import Switchboard.Proofs.Mux.Line

namespace Switchboard.Mux

theorem Attempt.WellFormed.got_of_finished {a : Attempt} {n : Nat} (wf : a.WellFormed n) {i : Nat}
    {reply : Reply} (member : (i, reply) ∈ a.finished) : i < n ∧ a.got i = some reply := by
  have unjoined := wf.unjoined _ member
  refine ⟨wf.length ▸ (List.getElem?_eq_some_iff.mp unjoined).1, ?_⟩
  rw [got, replyIn_of_unjoined unjoined]
  cases found : a.finished.find? fun r => r.1 == i with
  | none => exact absurd (List.mem_map_of_mem member) (find?_fst_eq_none.mp found)
  | some r =>
    have here : r.1 = i := by simpa using List.find?_some found
    have same := List.inj_on_of_nodup_map wf.finished_nodup (List.mem_of_find?_eq_some found)
      member here
    rw [same]
    rfl

/-- The request was not answered by a result, and never will be. -/
structure Missing (l : Ledger) (s : CallSide) (ref : RequestRef) : Prop where
  inRange : ref.backend < s.backends.length
  issued : ref.call < s.nextCall
  started : ref.call ∉ s.unstarted
  gone : s.copies ref = 0
  unanswered : ∀ v, (ref, .ok v) ∉ l.answers

structure Explained (l : Ledger) (s : CallSide) : Prop where
  why : ∀ {call outcome params}, (call, outcome) ∈ l.ended →
    (call, .request handshakeMethod params) ∈ l.issued → s.backends ≠ [] →
      outcome.isOk = true ∨ outcome = .cancelled ∨ ∃ i, Missing l s ⟨call, i⟩

variable {l : Ledger} {s s' : CallSide}

theorem Missing.keeps {ref : RequestRef} (missing : Missing l s ref) (keeps : s.Keeps s')
    {l' : Ledger} (answers : ∀ v, (ref, Reply.ok v) ∈ l'.answers → (ref, .ok v) ∈ l.answers) :
    Missing l' s' ref where
  inRange := keeps.length.symm ▸ missing.inRange
  issued := Nat.lt_of_lt_of_le missing.issued keeps.nextCall
  started waits := missing.started (keeps.unstarted _ missing.issued waits)
  gone := keeps.spent missing.issued missing.started missing.gone
  unanswered v answered := missing.unanswered v (answers v answered)

namespace CallSide

theorem Proceeds.missing (sound : s.Sound) (recorded : Recorded l s) {es : List Effect}
    (proceeds : s.Proceeds s' es) {call : Nat} {outcome : Outcome}
    (ended : (call, outcome) ∈ endings es) {params : Json}
    (handshake : (call, .request handshakeMethod params) ∈ l.issued) (some : s.backends ≠ []) :
    outcome.isOk = true ∨ ∃ i, Missing (l ++ { ended := endings es }) s' ⟨call, i⟩ := by
  have keeps := proceeds.keeps sound
  have begun : call ∉ s'.unstarted := fun waits =>
    (recorded.proceeds sound proceeds).not_mem_of_ended (List.mem_append_right _ ended)
      (mem_unfinished_of_unstarted waits)
  have missing {i : Nat} (inRange : i < s.backends.length) (gone : s'.copies ⟨call, i⟩ = 0)
      (unanswered : ∀ v, (⟨call, i⟩, Reply.ok v) ∉ l.answers) :
      ∃ i, Missing (l ++ { ended := endings es }) s' ⟨call, i⟩ :=
    ⟨i, keeps.length.symm ▸ inRange,
      Nat.lt_of_lt_of_le (recorded.issued_lt handshake) keeps.nextCall, begun, gone, fun v => by
        rw [Ledger.answers_append, List.append_nil]
        exact unanswered v⟩
  cases proceeds.endsBy sound recorded ended handshake with
  | published => exact .inl rfl
  | refused _ waits silent =>
    exact .inr (missing (List.length_pos_iff.mpr some) (silent 0) fun _ =>
      recorded.answers.unanswered_of_unstarted waits _)
  | closed _ waits here silent =>
    exact .inr (missing (List.getElem?_eq_some_iff.mp here).1 silent fun _ =>
      recorded.answers.unanswered_of_unstarted waits _)
  | @failed a i reply e _ held ours stage =>
    subst ours
    have wf := sound.attempt_wellFormed a held
    obtain ⟨arrived, bad⟩ := Attempt.of_stage_failed stage
    obtain ⟨inRange, got⟩ := wf.got_of_finished arrived
    have gone : s.copies ⟨a.call, i⟩ = 0 := by
      refine Nat.eq_zero_of_not_pos fun positive => ?_
      have none := ((wf.mem_running i).mp ((sound.attempt_running a held i).mpr positive)).2
      rw [got] at none
      cases none
    refine .inr (missing inRange
      (keeps.spent (recorded.issued_lt handshake) (sound.started held) gone) fun v answered => ?_)
    have ok := (recorded.answers.got a held i v).mpr answered
    rw [got, Option.some.injEq] at ok
    exact bad v ok

end CallSide

namespace Explained

theorem moved (explained : Explained l s) (recorded : Recorded l s) (sound : s.Sound)
    {d : Ledger} (moved : s.Moved s' d) : Explained (l ++ d) s' := by
  refine ⟨fun {call outcome params} ended issued some => ?_⟩
  have keeps := moved.keeps sound
  have occupied := keeps.occupied some
  rcases List.mem_append.mp ended with before | now
  · have asked := (List.mem_append.mp issued).resolve_right fun new =>
      Nat.ne_of_lt (recorded.ended_lt before) (moved.issued_new new)
    refine (explained.why before asked occupied).imp_right (Or.imp_right fun ⟨i, missing⟩ =>
      ⟨i, missing.keeps keeps fun v answered => (List.mem_append.mp answered).resolve_right ?_⟩)
    intro new
    have copies := moved.copies_of_answered new
    rw [missing.gone] at copies
    cases copies
  · exact .inr (.inl (moved.ended_cancelled now))

theorem proceeds (explained : Explained l s) (recorded : Recorded l s) (sound : s.Sound)
    {es : List Effect} (proceeds : s.Proceeds s' es) :
    Explained (l ++ { ended := endings es }) s' := by
  refine ⟨fun {call outcome params} ended issued some => ?_⟩
  have keeps := proceeds.keeps sound
  have occupied := keeps.occupied some
  rw [Ledger.issued_append, List.append_nil] at issued
  rcases List.mem_append.mp ended with before | now
  · refine (explained.why before issued occupied).imp_right (Or.imp_right fun ⟨i, missing⟩ =>
      ⟨i, missing.keeps keeps fun v answered => ?_⟩)
    rwa [Ledger.answers_append, List.append_nil] at answered
  · exact (proceeds.missing sound recorded now issued occupied).imp_right .inr

end Explained

theorem Recorded.succeeds (recorded : Recorded l s) (explained : Explained l s) (sound : s.Sound)
    (quiet : s.Quiet) (some : s.backends ≠ []) {call : Nat} {params : Json}
    (issued : (call, .request handshakeMethod params) ∈ l.issued)
    (kept : (call, .cancelled) ∉ l.ended)
    (answered : ∀ i < s.backends.length, ∃ v, (⟨call, i⟩, Reply.ok v) ∈ l.answers) :
    ∃ v, (call, .ok v) ∈ l.ended := by
  by_cases concluded : ∃ outcome, (call, outcome) ∈ l.ended
  · obtain ⟨outcome, ended⟩ := concluded
    rcases explained.why ended issued some with ok | rfl | ⟨i, missing⟩
    · cases outcome with
      | ok v => exact ⟨v, ended⟩
      | _ => cases ok
    · exact absurd ended kept
    · obtain ⟨v, known⟩ := answered i missing.inRange
      exact absurd known (missing.unanswered v)
  · have pending : call ∈ l.pending :=
      Ledger.mem_pending.mpr ⟨Ledger.mem_handshakes.mpr ⟨params, issued⟩, not_exists.mp concluded⟩
    rw [← recorded.line_eq sound quiet.fresh] at pending
    rcases List.mem_append.mp pending with turn | waits
    · obtain ⟨a, held, rfl⟩ := Option.map_eq_some_iff.mp (Option.mem_toList.mp turn)
      obtain ⟨i, running⟩ := List.exists_mem_of_ne_nil _ (quiet.attempt a held).2
      have copies := (sound.attempt_running a held i).mp running
      obtain ⟨v, known⟩ := answered i (sound.requested _ copies).2.2
      exact absurd known (recorded.answers.unanswered_of_copies copies _)
    · obtain ⟨v, known⟩ := answered 0 (List.length_pos_iff.mpr some)
      exact absurd known
        (recorded.answers.unanswered_of_unstarted (List.mem_append_right _ waits) _)

namespace Session

variable (names : List String) (settings : Settings) (commands : List Command)

theorem reached_explained :
    Explained (record names settings commands) (reached names settings commands) := by
  obtain ⟨sound, quiet⟩ := ofNames_sound names settings
  have run := run_induction (P := fun l c => Recorded l c ∧ Explained l c) (l := {})
    (fun sound _ known moved =>
      ⟨known.1.moved sound moved, known.2.moved known.1 sound moved⟩)
    (fun sound known proceeds =>
      ⟨known.1.proceeds sound proceeds, known.2.proceeds known.1 sound proceeds⟩)
    sound quiet ⟨recorded_ofNames names settings, ⟨nofun⟩⟩ commands
  exact run.2

theorem succeeds_of_answered (some : names ≠ []) {call : Nat} {params : Json}
    (issued : (call, .request handshakeMethod params) ∈ (record names settings commands).issued)
    (kept : (call, .cancelled) ∉ (record names settings commands).ended)
    (answered : ∀ i < names.length, ∃ v,
      (⟨call, i⟩, Reply.ok v) ∈ (record names settings commands).answers) :
    ∃ v, (call, .ok v) ∈ (record names settings commands).ended := by
  obtain ⟨sound, quiet⟩ := reached_sound names settings commands
  have length := reached_length names settings commands
  have occupied : (reached names settings commands).backends ≠ [] := by
    rw [← List.length_pos_iff, length]
    exact List.length_pos_iff.mpr some
  exact (reached_recorded names settings commands).1.succeeds
    (reached_explained names settings commands) sound quiet occupied issued kept (by rwa [length])

end Session

end Switchboard.Mux
