import Switchboard.Proofs.Mux.Turns

namespace Switchboard.Mux

namespace CallSide

variable {s : CallSide}

/-- Nothing can proceed. -/
structure Quiet (s : CallSide) : Prop where
  fresh : s.fresh = []
  attempt : ∀ a, s.attempt = some a → a.finished = [] ∧ a.running ≠ []
  waiting : s.attempt = none → s.waiting = []
  routed : ∀ r ∈ s.routed, r.reply = none

theorem endRouted_quiet (s : CallSide) : ∀ r ∈ s.endRouted.1.routed, r.reply = none := by
  intro r member
  simpa using (List.mem_filter.mp member).2

theorem endRouted_of_waiting (waits : ∀ r ∈ s.routed, r.reply = none) : s.endRouted = (s, []) := by
  have all : s.routed.filter (fun r => r.reply.isNone) = s.routed :=
    List.filter_eq_self.mpr fun r member => by rw [waits r member]; rfl
  have none : s.routed.flatMap (fun r => (r.reply.map (finishRouted s r)).getD []) = [] :=
    List.flatMap_eq_nil_iff.mpr fun r member => by rw [waits r member]; rfl
  rw [endRouted, all, none]

/-- The handshake that holds the turn, if there is one, has nothing to join and waits for a
    reply. -/
def Held (s : CallSide) : Prop := ∀ a, s.attempt = some a → a.finished = [] ∧ a.running ≠ []

theorem fresh_advance (s : CallSide) (a : Attempt) : (s.advance a).1.fresh = s.fresh := by
  unfold advance
  split <;> rfl

theorem routed_advance (s : CallSide) (a : Attempt) : (s.advance a).1.routed = s.routed := by
  unfold advance
  split <;> rfl

theorem waiting_advance (s : CallSide) (a : Attempt) : (s.advance a).1.waiting = s.waiting := by
  unfold advance
  split <;> rfl

theorem held_advance (s : CallSide) (a : Attempt) : (s.advance a).1.Held := by
  unfold advance
  split
  · rename_i results stage
    intro a' same
    cases same
    refine ⟨rfl, fun none => ?_⟩
    rw [Attempt.stage] at stage
    split at stage
    · cases stage
    · simp [show a.running = [] from none] at stage
  · intro a' held
    cases held
  · intro a' held
    cases held

theorem fresh_startHandshake (s : CallSide) (call : Nat) (params : Json) :
    (s.startHandshake call params).1.fresh = s.fresh := by
  unfold startHandshake
  split
  · rfl
  · dsimp only
    split
    · exact fresh_advance ..
    · rfl

theorem fresh_start (s : CallSide) (x : Nat × Ask) : (s.start x).1.fresh = s.fresh := by
  obtain ⟨call, ask⟩ := x
  cases ask with
  | awaitHandshake =>
    rw [start]
    split <;> rfl
  | notify method params =>
    rw [start]
    split
    · rfl
    · dsimp only
      split <;> rfl
  | request method params =>
    rw [start]
    split
    · split
      · exact fresh_startHandshake s call params
      · rfl
    · split
      · rfl
      · split <;> rfl

theorem fresh_startAll (calls : List (Nat × Ask)) (s : CallSide) :
    (overAll start calls s).1.fresh = s.fresh := by
  induction calls generalizing s with
  | nil => rfl
  | cons x rest ih => exact (ih (s.start x).1).trans (fresh_start s x)

theorem takeTurns_quiet (line : List (Nat × Json)) (held : s.Held)
    (empty : s.waiting = []) (fresh : s.fresh = []) (routed : ∀ r ∈ s.routed, r.reply = none) :
    (takeTurns line s).1.Quiet := by
  induction line generalizing s with
  | nil => exact ⟨fresh, held, fun _ => empty, routed⟩
  | cons w rest ih =>
    obtain ⟨call, params⟩ := w
    rw [takeTurns]
    split
    · rename_i busy
      exact ⟨fresh, held, fun free => by simp [show s.attempt = none from free] at busy, routed⟩
    · split
      · exact ih held empty fresh routed
      · refine ih (held_advance _ _) ?_ ?_ ?_
        · rw [waiting_advance]
          exact empty
        · rw [fresh_advance]
          exact fresh
        · rw [routed_advance]
          exact routed

theorem handshakes_quiet (fresh : s.fresh = [])
    (routed : ∀ r ∈ s.routed, r.reply = none) : s.handshakes.1.Quiet := by
  unfold handshakes
  cases held : s.attempt with
  | none => exact takeTurns_quiet _ (by simp [Held, held]) rfl fresh routed
  | some a =>
    refine takeTurns_quiet _ (held_advance s a) rfl ?_ ?_
    · exact (fresh_advance s a).trans fresh
    · rw [show _ = _ from routed_advance s a]
      exact routed

theorem settle_quiet (s : CallSide) : s.settle.1.Quiet := by
  refine handshakes_quiet ?_ (endRouted_quiet _)
  exact fresh_startAll s.fresh { s with fresh := [] }

theorem handshakes_of_idle (free : s.attempt = none) (empty : s.waiting = []) :
    s.handshakes = (s, []) := by
  unfold handshakes
  rw [free]
  simp only [empty, takeTurns, List.append_nil]
  rw [← empty]

theorem Quiet.handshakes (quiet : s.Quiet) : s.handshakes = (s, []) := by
  cases held : s.attempt with
  | none => exact handshakes_of_idle held (quiet.waiting held)
  | some a =>
    obtain ⟨unheard, running⟩ := quiet.attempt a held
    have stage : a.stage = .pending a.results := by
      simp [Attempt.stage, unheard, Attempt.join, running]
    have still : ({ s with attempt := some { a with finished := [] } } : CallSide) = s := by
      rw [← unheard, ← held]
    unfold CallSide.handshakes
    rw [held]
    simp only [advance, stage, still]
    rw [takeTurns_held (s := { s with waiting := [] }) held rfl]
    rfl

theorem Quiet.rests (quiet : s.Quiet) : s.settle = (s, []) := by
  have same : ({ s with fresh := [] } : CallSide) = s := by rw [← quiet.fresh]
  rw [CallSide.settle, quiet.fresh, overAll, same]
  dsimp only
  rw [endRouted_of_waiting quiet.routed, quiet.handshakes]
  rfl

theorem settle_issue_eq (fresh : s.fresh = []) (ask : Ask) :
    (s.issue ask).1.settle =
      let started := start { s with nextCall := s.nextCall + 1 } (s.nextCall, ask)
      let ended := started.1.endRouted
      let turned := ended.1.handshakes
      (turned.1, started.2 ++ ended.2 ++ turned.2) := by
  have same : ({ (s.issue ask).1 with fresh := [] } : CallSide) =
      { s with nextCall := s.nextCall + 1 } := by
    rw [issue, ← fresh]
  have new : (s.issue ask).1.fresh = [(s.nextCall, ask)] := by
    rw [issue, fresh]
    rfl
  simp only [settle, same, new, overAll, List.append_nil]

end CallSide

end Switchboard.Mux
