import Switchboard.Proofs.Mux.Completions

namespace Switchboard.Mux

namespace Attempt

variable {a : Attempt} {n : Nat}

theorem WellFormed.result_of_joined (wf : a.WellFormed n) (joined : a.finished = []) {i : Nat}
    (inRange : i < n) (arrived : i ∉ a.running) : ∃ v, a.got i = some (.ok v) := by
  have known : a.got i ≠ none := fun none => arrived ((wf.mem_running i).mpr ⟨inRange, none⟩)
  rw [got, joined, replyIn] at known ⊢
  cases here : a.results[i]?.join with
  | some v => exact ⟨v, rfl⟩
  | none =>
    rw [here] at known
    exact absurd rfl known

theorem WellFormed.hearAll_cases (wf : a.WellFormed n) {refs : List RequestRef} {index : Nat}
    (one : ∀ ref ∈ refs, ref.backend = index) (awaited : ⟨a.call, index⟩ ∈ refs → index ∈ a.running)
    (reply : Reply) :
    (a.hearAll refs reply = a ∧ ∀ j, ⟨a.call, j⟩ ∉ refs) ∨
      index ∈ a.running ∧ a.hearAll refs reply = a.arrive index reply ∧
        ∀ j, ⟨a.call, j⟩ ∈ refs ↔ j = index := by
  have once : a.hearAll refs reply =
      if index ∈ a.running ∧ ⟨a.call, index⟩ ∈ refs then a.arrive index reply else a := by
    clear awaited
    induction refs generalizing a with
    | nil => simp [Attempt.hearAll]
    | cons ref rest ih =>
      obtain ⟨call, backend⟩ := ref
      obtain ⟨rfl, others⟩ := List.forall_mem_cons.mp one
      have later := ih (wf.hear ⟨call, backend⟩ reply) others
      simp only [wf.mem_running_hear, Attempt.hear_call] at later
      refine later.trans ?_
      by_cases awaited : a.awaits ⟨call, backend⟩ = true
      · obtain ⟨rfl, running⟩ := awaits_iff.mp awaited
        simp [Attempt.hear, awaited, show backend ∈ a.running from running]
      · have other : backend ∈ a.running → a.call ≠ call :=
          fun running same => awaited (awaits_iff.mpr ⟨same, running⟩)
        by_cases running : backend ∈ a.running
        · simp [Attempt.hear, awaited, running, other running, Ne.symm (other running)]
        · simp [Attempt.hear, awaited, running]
  by_cases ours : ⟨a.call, index⟩ ∈ refs
  · rw [if_pos ⟨awaited ours, ours⟩] at once
    exact .inr ⟨awaited ours, once, fun j => ⟨fun member => one _ member, fun same => same ▸ ours⟩⟩
  · rw [if_neg fun both => ours both.2] at once
    exact .inl ⟨once, fun j member => ours (one _ member ▸ member)⟩

end Attempt

namespace CallSide

variable {s s' : CallSide} {a : Attempt}

/-- What a handshake ends by when the tasks that are over are joined. -/
def conclusion (s : CallSide) (a : Attempt) : Option Outcome :=
  match a.stage with
  | .pending _ => none
  | .complete results => some (.ok (merged (agentsOf s.backends results) s.fallback))
  | .failed i reply => some (.error (s.errorOf i reply))

theorem errorOf_congr (names : s'.backends.map Backend.name = s.backends.map Backend.name)
    (i : Nat) (reply : Reply) : s'.errorOf i reply = s.errorOf i reply := by
  cases reply with
  | error | panicked => rfl
  | _ =>
    have first := congrArg (·[i]?) names
    simp only [List.getElem?_map] at first
    simp only [errorOf]
    cases here : s'.backends[i]? <;> cases there : s.backends[i]? <;> rw [here, there] at first
    · cases first
    · cases first
    · simp only [Option.map_some, Option.some.injEq] at first
      simp only [Backend.closedError, first]

theorem agentsOf_congr {bs bs' : List Backend} (names : bs'.map Backend.name = bs.map Backend.name)
    (results : List (Option Json)) : agentsOf bs' results = agentsOf bs results := by
  have byName (bs : List Backend) : agentsOf bs results =
      ((bs.map Backend.name).zip results).filterMap fun r => r.2.map (Agent.mk r.1) := by
    rw [agentsOf, List.zip_map_left, List.filterMap_map]
    rfl
  rw [byName, byName, names]

theorem Keeps.conclusion (keeps : s.Keeps s') (a : Attempt) :
    s'.conclusion a = s.conclusion a := by
  unfold CallSide.conclusion
  split
  · rfl
  · rw [agentsOf_congr keeps.names, keeps.fallback]
  · rw [errorOf_congr keeps.names]

theorem HandshakesRun.ends_of_held (sound : s.Sound) {es : List Effect}
    (run : s.HandshakesRun s' es) (held : s.attempt = some a) (outcome : Outcome) :
    (a.call, outcome) ∈ endings es ↔ s.conclusion a = some outcome := by
  have unwaiting : a.call ∉ s.waiting.map Prod.fst :=
    fun waits => sound.started held (List.mem_append_right _ waits)
  have unwatching : a.call ∉ s.watchers := fun watches => by
    have total := sound.count_le_one a.call
    have here := List.count_pos_iff.mpr watches
    rw [count_unfinished, held] at total
    simp only [Option.map_some, Option.toList_some, List.count_singleton_self] at total
    omega
  have freed {freed : List (Nat × Outcome)} (free : s.Frees freed) :
      (a.call, outcome) ∈ freed ↔ s.conclusion a = some outcome := by
    rcases free with ⟨none, -⟩ | ⟨a', i, reply, held', stage, rfl⟩
    · rw [held] at none
      cases none
    · rw [held, Option.some.injEq] at held'
      subst held'
      simp [CallSide.conclusion, stage, eq_comm]
  cases run with
  | idle free =>
    rw [held] at free
    cases free
  | @pending a' results held' stage =>
    rw [held, Option.some.injEq] at held'
    subst held'
    simp [CallSide.conclusion, stage]
  | @published a' results es held' stage unsent ended =>
    rw [held, Option.some.injEq] at held'
    subst held'
    have others : (a.call, outcome) ∉ s.watchers.map (fun w => (w, Outcome.ok .null)) ++
        s.waiting.map fun w => (w.1, .error invokedTwice) := by
      rw [List.mem_append, not_or]
      refine ⟨fun member => unwatching ?_, fun member => unwaiting ?_⟩
      · obtain ⟨w, watches, same⟩ := List.mem_map.mp member
        exact (Prod.mk.inj same).1 ▸ watches
      · obtain ⟨w, waits, same⟩ := List.mem_map.mp member
        exact (Prod.mk.inj same).1 ▸ List.mem_map_of_mem waits
    rw [ended, List.mem_cons, or_iff_left others]
    simp [CallSide.conclusion, stage, eq_comm]
  | passed free _ _ _ ended =>
    rw [ended]
    exact freed free
  | @drained _ failed bs es free busy kept sent queues starts ended calls errors requested =>
    rw [ended, List.mem_append, or_iff_left]
    · exact freed free
    · intro member
      exact unwaiting (calls ▸ List.mem_map_of_mem member)

theorem Started.attempt_of_held {call : Nat} {ask : Ask} {es : List Effect}
    (started : s.Started call ask s' es) (held : s.attempt = some a) : s'.attempt = some a := by
  cases started with
  | opened _ _ free | alone _ _ free =>
    rw [held] at free
    cases free
  | _ => exact held

theorem Sound.of_started (sound : s.Sound) {es : List Effect}
    (started : s.fresh = [] ∧ s' = s ∧ es = [] ∨ ∃ call ask, s.fresh = [(call, ask)] ∧
      Started { s with fresh := [] } call ask s' es) :
    s.Keeps s' ∧ (∀ a, s.attempt = some a → s'.attempt = some a) ∧ ∀ call,
      s'.unfinished.count call + ((endings es).map Prod.fst).count call =
        s.unfinished.count call := by
  rcases started with ⟨-, rfl, rfl⟩ | ⟨call, ask, fresh, started⟩
  · exact ⟨.refl _, fun _ => id, fun _ => rfl⟩
  · have proceeds : s.Proceeds s' es := .starts fresh started
    exact ⟨proceeds.keeps sound, fun _ => started.attempt_of_held, proceeds.conserves⟩

theorem Sound.unended (sound : s.Sound) {es : List Effect} {call : Nat}
    (conserved : s'.unfinished.count call + ((endings es).map Prod.fst).count call =
      s.unfinished.count call)
    (still : call ∈ s'.endRouted.1.unfinished) (outcome : Outcome) :
    (call, outcome) ∉ endings (es ++ s'.endRouted.2) := by
  intro ended
  have here := List.count_pos_iff.mpr still
  have ends := (Proceeds.ends (s := s')).conserves call
  have once := sound.count_le_one call
  have member : 0 < ((endings (es ++ s'.endRouted.2)).map Prod.fst).count call :=
    List.count_pos_iff.mpr (List.mem_map_of_mem ended)
  rw [endings_append, List.map_append, List.count_append] at member
  omega

theorem Sound.ends_of_held (sound : s.Sound) (few : s.fresh.length ≤ 1)
    (held : s.attempt = some a) (outcome : Outcome) :
    (a.call, outcome) ∈ endings s.settle.2 ↔ s.conclusion a = some outcome := by
  obtain ⟨s₁, es₁, es₂, started, sound₁, turns, effects⟩ := settle_steps sound few
  obtain ⟨keeps, kept, conserved⟩ := sound.of_started started
  have held₂ : s₁.endRouted.1.attempt = some a := kept a held
  have early := sound.unended (conserved a.call) (mem_unfinished_of_attempt held₂) outcome
  have keeps₂ : s.Keeps s₁.endRouted.1 := keeps.trans (Proceeds.ends.keeps sound₁)
  rw [effects, endings_append, List.mem_append, or_iff_right early,
    turns.ends_of_held (sound₁.proceeds .ends) held₂, keeps₂.conclusion]

/-- When a command acts, the handshake that holds the turn ends with its call, or one task gets its
    reply, or nothing happens to it. -/
theorem Moved.hears {d : Ledger} (sound : s.Sound) (moved : s.Moved s' d)
    (held : s.attempt = some a) :
    ((a.call, .cancelled) ∈ d.ended ∧ a.call ∉ s'.unfinished ∧
      ∀ i reply, ¬Gets s s' d ⟨a.call, i⟩ reply) ∨
    (∀ outcome, (a.call, outcome) ∉ d.ended) ∧
      ((s'.attempt = some a ∧ ∀ i reply, ¬Gets s s' d ⟨a.call, i⟩ reply) ∨
        ∃ i reply, i ∈ a.running ∧ s'.attempt = some (a.arrive i reply) ∧
          ∀ j r, Gets s s' d ⟨a.call, j⟩ r ↔ j = i ∧ r = reply) := by
  have unheard {t : CallSide} {e : Ledger} (none : e.answers = [])
      (still : ∀ i, s.isOpen i = true → t.isOpen i = true) (i : Nat) (reply : Reply) :
      ¬Gets s t e ⟨a.call, i⟩ reply := by
    rw [Gets.of_open sound.channels (still i), none]
    exact List.not_mem_nil
  have dequeued {index : Nat} (i : Nat) : s.isOpen i = true →
      (s.backends.modify index .dequeue)[i]?.any Backend.accepts = true := fun here => by
    rw [isOpen_modify sound.channels (fun b channel => channel.accepts_dequeue), here]
  -- a reply that some requests to one backend get, all of which can be answered
  have heard (refs : List RequestRef) (index : Nat) (reply : Reply) {t : CallSide} {e : Ledger}
      (one : ∀ ref ∈ refs, ref.backend = index) (copies : ∀ ref ∈ refs, 0 < s.copies ref)
      (after : t.attempt = some (a.hearAll refs reply))
      (gets : ∀ j r, Gets s t e ⟨a.call, j⟩ r ↔ ⟨a.call, j⟩ ∈ refs ∧ r = reply) :
      (t.attempt = some a ∧ ∀ i reply, ¬Gets s t e ⟨a.call, i⟩ reply) ∨
        ∃ i reply, i ∈ a.running ∧ t.attempt = some (a.arrive i reply) ∧
          ∀ j r, Gets s t e ⟨a.call, j⟩ r ↔ j = i ∧ r = reply := by
    have wf := sound.attempt_wellFormed a held
    have awaited : ⟨a.call, index⟩ ∈ refs → index ∈ a.running :=
      fun member => (sound.attempt_running a held index).mpr (copies _ member)
    rcases wf.hearAll_cases one awaited reply with ⟨same, none⟩ | ⟨running, same, mine⟩
    · exact .inl ⟨same ▸ after, fun j r got => none j ((gets j r).mp got).1⟩
    · exact .inr ⟨index, reply, running, same ▸ after, fun j r => by rw [gets, mine]⟩
  cases moved with
  | @cancelled call pending =>
    by_cases ours : a.call = call
    · subst ours
      refine .inl ⟨List.mem_singleton_self _, fun here => ?_, unheard rfl fun _ => id⟩
      rw [unfinished_cancel, List.mem_filter] at here
      simp at here
    · refine .inr ⟨fun outcome ended => ?_, .inl ⟨?_, unheard rfl fun _ => id⟩⟩
      · cases List.mem_singleton.mp ended
        exact ours rfl
      · exact Option.filter_eq_some_iff.mpr ⟨held, by simpa using ours⟩
  | tornDown =>
    exact .inl ⟨List.mem_map_of_mem (mem_unfinished_of_attempt held), List.not_mem_nil,
      unheard rfl fun _ => id⟩
  | noticed => exact .inr ⟨fun _ => List.not_mem_nil, .inl ⟨held, unheard rfl dequeued⟩⟩
  | taken => exact .inr ⟨fun _ => List.not_mem_nil, .inl ⟨held, unheard rfl dequeued⟩⟩
  | @answered ticket ref reply good =>
    refine .inr ⟨fun _ => List.not_mem_nil, heard [ref] ref.backend reply (by simp)
      (by simpa using copies_pos_of_ticket (mem_tickets good)) (by simp [CallSide.heard, held])
      fun j r => ?_⟩
    have still : s.isOpen j = true → CallSide.isOpen
        { s.heard [ref] reply with tickets := s.tickets.set ticket none } j = true := id
    rw [Gets.of_open sound.channels still]
    simp
  | @closed index b here accepting =>
    have channel := sound.channels b (List.mem_of_getElem? here)
    refine .inr ⟨fun _ => List.not_mem_nil,
      heard (queuedRequests index b.queue) index .dropped
        (fun ref member => (mem_queuedRequests.mp member).1) (fun ref member => ?_)
        (by simp [CallSide.heard, held]) fun j r => ?_⟩
    · obtain ⟨same, queued⟩ := mem_queuedRequests.mp member
      rw [copies_of_backend (same ▸ here)]
      exact Nat.lt_of_lt_of_le queued (Nat.le_add_right ..)
    · have lost := mem_lost sound.channels here ⟨a.call, j⟩
      constructor
      · intro gets
        cases gets with
        | own answered => cases answered
        | lost queued shut => exact ⟨lost.mpr ⟨⟨_, _, queued⟩, shut⟩, rfl⟩
      · rintro ⟨member, rfl⟩
        obtain ⟨⟨_, _, queued⟩, shut⟩ := lost.mp member
        exact .lost queued shut
  | _ => exact .inr ⟨fun _ => List.not_mem_nil, .inl ⟨held, unheard rfl fun _ => id⟩⟩

end CallSide

end Switchboard.Mux
