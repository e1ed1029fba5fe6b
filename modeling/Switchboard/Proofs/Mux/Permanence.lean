import Switchboard.Proofs.Mux.Accounts

namespace Switchboard.Mux

namespace CallSide

variable {s s' : CallSide}

/-- The second state comes after the first. -/
structure Keeps (s s' : CallSide) : Prop where
  names : s'.backends.map Backend.name = s.backends.map Backend.name
  fallback : s'.fallback = s.fallback
  phase : ∀ agents, s.phase = .initialized agents → s'.phase = .initialized agents
  nextCall : s.nextCall ≤ s'.nextCall
  unfinished : ∀ call < s.nextCall, call ∈ s'.unfinished → call ∈ s.unfinished
  unstarted : ∀ call < s.nextCall, call ∈ s'.unstarted → call ∈ s.unstarted
  copies : ∀ ref, 0 < s'.copies ref →
    0 < s.copies ref ∨ ref.call ∈ s.unstarted ∨ s.nextCall ≤ ref.call

namespace Keeps

theorem refl (s : CallSide) : s.Keeps s :=
  ⟨rfl, rfl, fun _ => id, Nat.le_refl _, fun _ _ => id, fun _ _ => id, fun _ => .inl⟩

theorem trans {s'' : CallSide} (first : s.Keeps s') (second : s'.Keeps s'') : s.Keeps s'' where
  names := second.names.trans first.names
  fallback := second.fallback.trans first.fallback
  phase agents here := second.phase agents (first.phase agents here)
  nextCall := Nat.le_trans first.nextCall second.nextCall
  unfinished call bound member := first.unfinished call bound
    (second.unfinished call (Nat.lt_of_lt_of_le bound first.nextCall) member)
  unstarted call bound member := first.unstarted call bound
    (second.unstarted call (Nat.lt_of_lt_of_le bound first.nextCall) member)
  copies ref positive := by
    rcases second.copies ref positive with before | waits | new
    · exact first.copies ref before
    · by_cases bound : ref.call < s.nextCall
      · exact .inr (.inl (first.unstarted _ bound waits))
      · exact .inr (.inr (Nat.le_of_not_lt bound))
    · exact .inr (.inr (Nat.le_trans first.nextCall new))

theorem length (keeps : s.Keeps s') : s'.backends.length = s.backends.length := by
  simpa using congrArg List.length keeps.names

theorem occupied (keeps : s.Keeps s') (some : s'.backends ≠ []) : s.backends ≠ [] := by
  rw [← List.length_pos_iff, ← keeps.length]
  exact List.length_pos_iff.mpr some

theorem uninitialized (keeps : s.Keeps s') (phase : s'.phase = .uninitialized) :
    s.phase = .uninitialized := by
  cases here : s.phase with
  | uninitialized => rfl
  | initialized agents =>
    rw [keeps.phase agents here] at phase
    cases phase

theorem spent (keeps : s.Keeps s') {ref : RequestRef} (issued : ref.call < s.nextCall)
    (started : ref.call ∉ s.unstarted) (gone : s.copies ref = 0) : s'.copies ref = 0 := by
  by_contra some
  rcases keeps.copies ref (Nat.pos_of_ne_zero some) with before | waits | new
  · omega
  · exact started waits
  · omega

end Keeps

theorem Moved.unstarted {d : Ledger} (moved : s.Moved s' d) :
    ∀ call < s.nextCall, call ∈ s'.unstarted → call ∈ s.unstarted := by
  intro call bound member
  cases moved with
  | issued ask =>
    simp only [CallSide.unstarted, issue, List.map_append, List.map_cons, List.map_nil,
      List.mem_append, List.mem_singleton] at member ⊢
    rcases member with (old | new) | waits
    · exact .inl old
    · exact absurd bound (new ▸ Nat.lt_irrefl _)
    · exact .inr waits
  | @cancelled gone pending =>
    have fewer : (s.cancel gone).unstarted.Sublist s.unstarted :=
      (List.filter_sublist.map _).append (List.filter_sublist.map _)
    exact fewer.subset member
  | tornDown => cases member
  | _ => exact member

theorem Moved.unfinished (sound : s.Sound) {d : Ledger} (moved : s.Moved s' d) :
    ∀ call < s.nextCall, call ∈ s'.unfinished → call ∈ s.unfinished := by
  intro call bound member
  have total := moved.conserves sound call
  have positive := List.count_pos_iff.mpr member
  have old : (d.issued.map Prod.fst).count call = 0 := by
    cases moved with
    | issued ask => exact List.count_eq_zero_of_not_mem (by simpa using Nat.ne_of_lt bound)
    | _ => rfl
  exact List.count_pos_iff.mp (by omega)

theorem Moved.copies_le (sound : s.Sound) {d : Ledger} (moved : s.Moved s' d)
    (ref : RequestRef) : s'.copies ref ≤ s.copies ref := by
  cases moved with
  | noticed here accepting queue =>
    have total := copies_dequeue here (sound.channels _ (List.mem_of_getElem? here)) queue ref
    omega
  | taken here accepting queue =>
    exact Nat.le_of_eq
      (copies_taken here (sound.channels _ (List.mem_of_getElem? here)) queue ref)
  | answered reply good =>
    have total := copies_answer good reply ref
    change (s.answer _ _ reply).copies ref ≤ _
    omega
  | closed here accepting =>
    have total := copies_close here (sound.channels _ (List.mem_of_getElem? here)) ref
    refine Nat.le_trans (Nat.le_of_eq total) ?_
    split
    · rename_i same
      rw [copies_of_backend (same ▸ here)]
      exact Nat.le_add_left ..
    · exact Nat.le_refl _
  | _ => exact Nat.le_refl _

theorem Moved.keeps (sound : s.Sound) {d : Ledger} (moved : s.Moved s' d) : s.Keeps s' where
  names := by
    cases moved with
    | noticed => exact names_modify Backend.name_dequeue ..
    | taken => exact names_modify Backend.name_dequeue ..
    | closed => exact names_modify Backend.name_close ..
    | _ => rfl
  fallback := by cases moved <;> rfl
  phase := by
    intro agents initialized
    cases moved <;> exact initialized
  nextCall := by
    cases moved with
    | issued ask => exact Nat.le_succ _
    | _ => exact Nat.le_refl _
  unfinished := moved.unfinished sound
  unstarted := moved.unstarted
  copies ref positive := .inl (Nat.lt_of_lt_of_le positive (moved.copies_le sound ref))

theorem Proceeds.unstarted {es : List Effect} (proceeds : s.Proceeds s' es) :
    ∀ call ∈ s'.unstarted, call ∈ s.unstarted := by
  intro call member
  cases proceeds with
  | starts fresh started =>
    rw [CallSide.unstarted, started.fresh, List.map_nil, List.nil_append] at member
    rw [CallSide.unstarted, fresh, List.mem_append]
    cases started with
    | queued =>
      simp only [List.map_append, List.map_cons, List.map_nil, List.mem_append,
        List.mem_singleton] at member ⊢
      exact member.symm
    | opened =>
      rw [opened_eq] at member
      exact .inr member
    | _ => exact .inr member
  | ends => exact member
  | turns run =>
    cases run with
    | idle => exact member
    | pending => exact member
    | passed free next =>
      rw [opened_eq] at member
      simp only [CallSide.unstarted, next, List.map_cons, List.mem_append, List.mem_cons]
        at member ⊢
      tauto
    | _ =>
      simp only [CallSide.unstarted, List.map_nil, List.append_nil, List.mem_append] at member ⊢
      exact .inl member

theorem Proceeds.unfinished {es : List Effect} (proceeds : s.Proceeds s' es) :
    ∀ call ∈ s'.unfinished, call ∈ s.unfinished := by
  intro call member
  have total := proceeds.conserves call
  have positive := List.count_pos_iff.mpr member
  exact List.count_pos_iff.mp (by omega)

theorem SentTo.mem_of_copies {calls : List Nat} {bs : List Backend}
    (sent : SentTo calls s.backends bs) {ref : RequestRef}
    (positive : 0 < ({ s with backends := bs } : CallSide).copies ref) :
    0 < s.copies ref ∨ ref.call ∈ calls := by
  rw [sent.copies] at positive
  by_cases member : ref.call ∈ calls
  · exact .inr member
  · rw [List.count_eq_zero_of_not_mem member] at positive
    exact .inl (by simpa using positive)

theorem Proceeds.copies (sound : s.Sound) {es : List Effect} (proceeds : s.Proceeds s' es)
    (ref : RequestRef) (positive : 0 < s'.copies ref) :
    0 < s.copies ref ∨ ref.call ∈ s.unstarted := by
  have request (call : Nat) (params : Json) :=
    SentTo.request sound.channels call handshakeMethod params
  cases proceeds with
  | @starts call ask _ _ fresh started =>
    have waits := CallSide.mem_unstarted_of_fresh fresh
    cases started with
    | broadcast initialized sent =>
      exact .inl ((SentTo.mem_of_copies sent positive).resolve_right List.not_mem_nil)
    | @opened method params =>
      rw [opened_eq] at positive
      refine (SentTo.mem_of_copies (request call params) positive).imp_right fun member => ?_
      rwa [List.mem_singleton.mp member]
    | @routed method params b rest initialized other some =>
      have channel := sound.channels b
        (show b ∈ s.backends from (show s.backends = b :: rest from some) ▸ List.mem_cons_self)
      have total := copies_route (s := s) some channel call method params ref
      change 0 < ({ s with backends := _ } : CallSide).copies ref at positive
      -- the request is a new copy only when the first channel is open
      by_cases new : b.accepts = true ∧ ref = ⟨call, 0⟩
      · rw [new.2]
        exact .inr waits
      · rw [if_neg new] at total
        exact .inl (by omega)
    | _ => exact .inl positive
  | ends => exact .inl positive
  | turns run =>
    cases run with
    | @passed freed call params rest _ free next =>
      rw [opened_eq] at positive
      refine (SentTo.mem_of_copies (request call params) positive).imp_right fun member => ?_
      rw [List.mem_singleton.mp member]
      exact mem_unstarted_of_waiting (next ▸ List.mem_cons_self)
    | drained free busy kept sent =>
      exact (SentTo.mem_of_copies sent positive).imp_right (List.mem_append_right _)
    | _ => exact .inl positive

theorem Proceeds.keeps (sound : s.Sound) {es : List Effect} (proceeds : s.Proceeds s' es) :
    s.Keeps s' where
  names := by
    cases proceeds with
    | starts fresh started =>
      cases started with
      | broadcast initialized sent => exact sent.names
      | opened => simp [opened_eq]
      | routed initialized other some => simp [show s.backends = _ from some]
      | _ => rfl
    | ends => rfl
    | turns run =>
      cases run with
      | passed => simp [opened_eq]
      | drained free busy kept sent => exact sent.names
      | _ => rfl
  fallback := by
    cases proceeds with
    | starts fresh started =>
      cases started with
      | opened => rw [opened_eq]
      | _ => rfl
    | ends => rfl
    | turns run =>
      cases run with
      | passed => rw [opened_eq]
      | _ => rfl
  phase agents initialized := by
    cases proceeds with
    | starts fresh started =>
      cases started with
      | opened => rwa [opened_eq]
      | alone uninitialized =>
        rw [show s.phase = _ from uninitialized] at initialized
        cases initialized
      | _ => exact initialized
    | ends => exact initialized
    | turns run =>
      cases run with
      | passed => rwa [opened_eq]
      | published held =>
        rw [(sound.turns (.inl (by simp [held]))).1] at initialized
        cases initialized
      | _ => exact initialized
  nextCall := Nat.le_of_eq proceeds.nextCall.symm
  unfinished call _ := proceeds.unfinished call
  unstarted call _ := proceeds.unstarted call
  copies ref positive := (proceeds.copies sound ref positive).imp_right .inl

end CallSide

namespace Session

variable {s : Session}

/-- What no step takes back, no run takes back. -/
theorem run_keeps (sound : s.calls.Sound) (quiet : s.calls.Quiet) (commands : List Command) :
    s.calls.Keeps (s.run commands).calls :=
  run_induction (P := fun _ c => s.calls.Keeps c) (l := {})
    (fun sound _ keeps moved => keeps.trans (moved.keeps sound))
    (fun sound keeps proceeds => keeps.trans (proceeds.keeps sound)) sound quiet (.refl _) commands

theorem run_sound (sound : s.calls.Sound) (quiet : s.calls.Quiet) (commands : List Command) :
    (s.run commands).calls.Sound ∧ (s.run commands).calls.Quiet := by
  induction commands generalizing s with
  | nil => exact ⟨sound, quiet⟩
  | cons c rest ih =>
    obtain ⟨sound', quiet'⟩ := step_sound sound quiet c
    exact ih sound' quiet'

end Session

end Switchboard.Mux
