import Switchboard.Proofs.Mux.Forwarding
import Switchboard.Proofs.Mux.Permanence

namespace Switchboard.Mux

namespace FanIn

variable {α : Type}

@[simp] theorem woken_forward (isCancelled : Bool) (f : FanIn α) (index : Nat) :
    (f.forward isCancelled index).1.woken = f.woken := by
  obtain ⟨lanes, merged, same⟩ := f.forward_eq isCancelled index
  rw [same]

@[simp] theorem woken_forwardAll (isCancelled : Bool) (indices : List Nat) (f : FanIn α) :
    (forwardAll isCancelled indices f).1.woken = f.woken := by
  induction indices generalizing f with
  | nil => rfl
  | cons index rest ih =>
    exact (ih (f.forward isCancelled index).1).trans (woken_forward isCancelled f index)

@[simp] theorem woken_settle (f : FanIn α) : f.settle.1.woken = [] := by
  rw [settle, woken_forwardAll]

theorem settle_of_quiet {f : FanIn α} (quiet : f.woken = []) : f.settle = (f, []) := by
  have same : ({ f with woken := [] } : FanIn α) = f := by rw [← quiet]
  rw [settle, quiet, forwardAll, same]

end FanIn

namespace CallSide

variable {s : CallSide}

theorem Quiet.settle_issue (sound : s.Sound) (quiet : s.Quiet) (ask : Ask) :
    ∃ s' es, Started { s with nextCall := s.nextCall + 1 } s.nextCall ask s' es ∧
      (s'.Quiet → (s.issue ask).1.settle = (s', es)) := by
  refine ⟨_, _, start_started (s := { s with nextCall := s.nextCall + 1 }) sound.channels
    s.nextCall ask, fun rests => ?_⟩
  rw [settle_issue_eq quiet.fresh]
  simp only [endRouted_of_waiting rests.routed, rests.handshakes, List.append_nil]

end CallSide

namespace Session

/-- Nothing in the session can proceed. -/
structure Settled (s : Session) : Prop where
  calls : s.calls.Quiet
  notifications : s.notifications.woken = []
  requests : s.requests.woken = []

/-- What a session has beside its calling side. -/
def streams (s : Session) : FanIn Notification × FanIn ServerRequest × Bool :=
  (s.notifications, s.requests, s.isAlive)

variable {s t : Session}

theorem settled_settle (s : Session) : s.settle.1.Settled :=
  ⟨s.calls.settle_quiet, FanIn.woken_settle _, FanIn.woken_settle _⟩

theorem Settled.rests (settled : s.Settled) : s.settle = (s, []) := by
  rw [Session.settle, settled.calls.rests, FanIn.settle_of_quiet settled.notifications,
    FanIn.settle_of_quiet settled.requests]
  rfl

theorem settled_ofBackends (backends : List Backend) (settings : Settings) :
    (ofBackends backends settings).Settled :=
  ⟨⟨rfl, nofun, fun _ => rfl, nofun⟩, rfl, rfl⟩

theorem act_call (alive : s.isAlive = true) (ask : Ask) : s.act (.calls (.call ask)) =
    ({ s with calls := (s.calls.issue ask).1 }, .call s.calls.nextCall, []) := by
  simp [act, Command.backend?, CallCommand.backend?, alive, perform, CallSide.act, CallSide.issue]

theorem Settled.step_call (settled : s.Settled) (sound : s.calls.Sound) (alive : s.isAlive = true)
    (ask : Ask) :
    ∃ calls es, CallSide.Started { s.calls with nextCall := s.calls.nextCall + 1 }
        s.calls.nextCall ask calls es ∧
      (calls.Quiet →
        s.step (.calls (.call ask)) = ({ s with calls }, .call s.calls.nextCall, es)) := by
  obtain ⟨calls, es, started, settles⟩ := settled.calls.settle_issue sound ask
  refine ⟨calls, es, started, fun rests => ?_⟩
  simp only [step, act_call alive, Session.settle, settles rests,
    FanIn.settle_of_quiet settled.notifications, FanIn.settle_of_quiet settled.requests,
    List.map_nil, List.append_nil, List.nil_append]

theorem step_settled (s : Session) (c : Command) : (s.step c).1.Settled := settled_settle _

theorem run_settled (settled : s.Settled) (commands : List Command) :
    (s.run commands).Settled := by
  induction commands generalizing s with
  | nil => exact settled
  | cons c rest ih => exact ih (step_settled s c)

theorem reached_settled (names : List String) (settings : Settings) (commands : List Command) :
    ((ofNames names settings).run commands).Settled :=
  run_settled (settled_ofBackends _ settings) commands

theorem streams_eq_iff : s.streams = t.streams ↔ s.notifications = t.notifications ∧
    s.requests = t.requests ∧ s.isAlive = t.isAlive := by
  simp [streams]

theorem streams_act (same : s.streams = t.streams)
    (length : s.calls.backends.length = t.calls.backends.length) (c : Command) :
    (s.act c).1.streams = (t.act c).1.streams := by
  obtain ⟨notifications, requests, alive⟩ := streams_eq_iff.mp same
  unfold act
  rw [length, alive]
  split
  · exact same
  · split
    · exact same
    · cases c with
      | calls c => exact same
      | stream kind c =>
        cases kind <;> simp only [perform, streams, notifications, requests, alive]
      | dropPeer index => simp only [perform, streams, notifications, requests, alive]
      | shutdown => simp only [perform, shutDown, streams, notifications, requests]
      | drop => simp only [perform, discard, streams, notifications, requests]

theorem streams_step (same : s.streams = t.streams)
    (length : s.calls.backends.length = t.calls.backends.length) (c : Command) :
    (s.step c).1.streams = (t.step c).1.streams := by
  obtain ⟨notifications, requests, alive⟩ := streams_eq_iff.mp (streams_act same length c)
  simp only [step, settle, streams, notifications, requests, alive]

theorem streams_calls (settled : s.Settled) (c : CallCommand) :
    (s.step (.calls c)).1.streams = s.streams := by
  have acted : (s.act (.calls c)).1.streams = s.streams := by
    unfold act
    split
    · rfl
    · split <;> rfl
  obtain ⟨notifications, requests, alive⟩ := streams_eq_iff.mp acted
  simp only [step, Session.settle, streams, notifications, requests, alive,
    FanIn.settle_of_quiet settled.notifications, FanIn.settle_of_quiet settled.requests]

theorem streams_run (same : s.streams = t.streams) (sound : s.calls.Sound)
    (quiet : s.calls.Quiet) (sound' : t.calls.Sound) (quiet' : t.calls.Quiet)
    (length : s.calls.backends.length = t.calls.backends.length) (commands : List Command) :
    (s.run commands).streams = (t.run commands).streams := by
  induction commands generalizing s t with
  | nil => exact same
  | cons c rest ih =>
    obtain ⟨next, rested⟩ := step_sound sound quiet c
    obtain ⟨next', rested'⟩ := step_sound sound' quiet' c
    exact ih (streams_step same length c) next rested next' rested'
      ((run_keeps sound quiet [c]).length.trans
        (length.trans (run_keeps sound' quiet' [c]).length.symm))

end Session

end Switchboard.Mux
