import Switchboard.Proofs.Mux.Rest
import Switchboard.Proofs.Mux.Rounds

namespace Switchboard.Mux

def Effect.isLogged : Effect → Bool
  | .logged _ => true
  | _ => false

/-- Something that is seen of a run: what a command gave, or an effect. -/
inductive Sight
  | gave (result : Result)
  | showed (effect : Effect)

/-- One who watches runs: what is seen of a command's result, and which effects are noticed. -/
structure Observer where
  results : Command → Result → List Result
  notices : Effect → Bool

namespace Observer

variable (o : Observer)

def ofEffects (es : List Effect) : List Sight := (es.filter o.notices).map .showed

def ofActs : Session → List Command → List Sight
  | _, [] => []
  | s, c :: rest =>
    (o.results c (s.act c).2.1).map .gave ++ o.ofEffects (s.act c).2.2 ++ ofActs (s.act c).1 rest

def ofRounds : Session → List (List Command) → List Sight
  | _, [] => []
  | s, commands :: rest =>
    o.ofActs s commands ++ o.ofEffects (s.acts commands).settle.2 ++
      ofRounds (s.round commands) rest

theorem ofActs_append (s : Session) (first second : List Command) :
    o.ofActs s (first ++ second) = o.ofActs s first ++ o.ofActs (s.acts first) second := by
  induction first generalizing s with
  | nil => rfl
  | cons c rest ih =>
    rw [List.cons_append, ofActs, ih, ofActs, ← List.append_assoc]
    rfl

end Observer

/-- These rounds, with a part of each command only. A round of which nothing is left is gone. -/
def partsOf (part : Command → List Command) (rounds : List (List Command)) :
    List (List Command) :=
  (rounds.map fun commands => commands.flatMap part).filter fun commands => !commands.isEmpty

/-- Sessions that are alike look the same to the observer, also when of the commands to the first
    the second gets a part only. -/
structure Unwinds (o : Observer) (part : Command → List Command)
    (alike : Session → Session → Prop) : Prop where
  act : ∀ {s t}, alike s t → ∀ c, alike (s.act c).1 (t.acts (part c)) ∧
    o.ofActs s [c] = o.ofActs t (part c)
  settle : ∀ {s t}, alike s t → alike s.settle.1 t.settle.1 ∧
    o.ofEffects s.settle.2 = o.ofEffects t.settle.2

namespace Unwinds

variable {o : Observer} {part : Command → List Command} {alike : Session → Session → Prop}
  {s t : Session}

theorem acts (unwinds : Unwinds o part alike) (same : alike s t) (commands : List Command) :
    alike (s.acts commands) (t.acts (commands.flatMap part)) ∧
      o.ofActs s commands = o.ofActs t (commands.flatMap part) := by
  induction commands generalizing s t with
  | nil => exact ⟨same, rfl⟩
  | cons c rest ih =>
    obtain ⟨same', first⟩ := unwinds.act same c
    obtain ⟨after, others⟩ := ih same'
    rw [List.flatMap_cons, o.ofActs_append t, ← first, ← others]
    refine ⟨?_, o.ofActs_append s [c] rest⟩
    rw [Session.acts, Session.acts, List.foldl_append]
    exact after

theorem rounds (unwinds : Unwinds o part alike) (same : alike s t) (settled : t.Settled)
    (rounds : List (List Command)) :
    alike (s.rounds rounds) (t.rounds (partsOf part rounds)) ∧
      o.ofRounds s rounds = o.ofRounds t (partsOf part rounds) := by
  induction rounds generalizing s t with
  | nil => exact ⟨same, rfl⟩
  | cons commands rest ih =>
    obtain ⟨acted, seen⟩ := unwinds.acts same commands
    obtain ⟨after, shown⟩ := unwinds.settle acted
    by_cases gone : commands.flatMap part = []
    · have parts : partsOf part (commands :: rest) = partsOf part rest := by
        simp [partsOf, gone]
      have still : (t.acts (commands.flatMap part)).settle = (t, []) := by
        rw [gone]
        exact settled.rests
      rw [still] at after shown
      obtain ⟨later, others⟩ := ih after settled
      rw [parts, Observer.ofRounds, seen, shown, gone]
      exact ⟨later, others⟩
    · have parts : partsOf part (commands :: rest) =
          commands.flatMap part :: partsOf part rest := by
        simp [partsOf, gone]
      obtain ⟨later, others⟩ := ih (t := t.round (commands.flatMap part)) after
        (Session.settled_settle _)
      rw [parts, Observer.ofRounds, Observer.ofRounds, seen, shown]
      exact ⟨later, congrArg _ others⟩

end Unwinds

def Command.callPart : Command → List Command
  | .stream .. => []
  | .dropPeer backend => [.calls (.closeOutbound backend)]
  | c => [c]

def Command.streamPart : Command → List Command
  | .calls _ => []
  | .dropPeer backend =>
    [.stream .notifications (.close backend), .stream .requests (.close backend)]
  | c => [c]

/-- One who sees what commands to the calling side give, how calls end, and what backends are
    sent. -/
def callObserver : Observer where
  results
    | .stream .., _ => []
    | .dropPeer _, .peerDropped outbound _ _ => [.closed outbound]
    | _, result => [result]
  notices e := !e.isLogged

/-- One who sees what commands to the stream of a kind give. -/
def streamObserver (kind : StreamKind) : Observer where
  results
    | .calls _, _ => []
    | .stream k _, result => if k = kind then [result] else []
    | .dropPeer _, .peerDropped _ notifications requests => match kind with
      | .notifications => [.closed notifications]
      | .requests => [.closed requests]
    | _, result => [result]
  notices _ := false

namespace Session

variable {s t : Session}

def CallsAlike (s t : Session) : Prop := s.calls = t.calls ∧ s.isAlive = t.isAlive

def StreamsAlike (s t : Session) : Prop :=
  s.streams = t.streams ∧ s.calls.backends.length = t.calls.backends.length

theorem act_of_beyond {c : Command} (beyond : c.backend?.any (s.calls.backends.length ≤ ·) = true) :
    s.act c = (s, .noBackend, []) := by
  rw [act, if_pos beyond]

theorem act_of_gone {c : Command} (inRange : ¬c.backend?.any (s.calls.backends.length ≤ ·) = true)
    (gone : s.isAlive = false) (needs : c.needsLife = true) :
    s.act c = (s, .noMultiplexer, []) := by
  rw [act, if_neg inRange, if_pos (by rw [gone, needs]; rfl)]

theorem act_of_fits {c : Command} (inRange : ¬c.backend?.any (s.calls.backends.length ≤ ·) = true)
    (fits : s.isAlive = true ∨ c.needsLife = false) : s.act c = s.perform c := by
  rw [act, if_neg inRange, if_neg]
  rcases fits with alive | free
  · simp [alive]
  · simp [free]

theorem calls_act_alike (alike : s.CallsAlike t) (c : CallCommand) :
    (s.act (.calls c)).1.CallsAlike (t.act (.calls c)).1 ∧
      (s.act (.calls c)).2 = (t.act (.calls c)).2 := by
  obtain ⟨calls, alive⟩ := alike
  unfold act
  rw [calls, alive]
  split
  · exact ⟨⟨calls, alive⟩, rfl⟩
  · split
    · exact ⟨⟨calls, alive⟩, rfl⟩
    · exact ⟨⟨by simp only [perform, calls, alive], alive⟩, by simp only [perform, calls, alive]⟩

theorem act_stream (s : Session) (kind : StreamKind) (c : StreamCommand) :
    (s.act (.stream kind c)).1.CallsAlike s ∧ (s.act (.stream kind c)).2.2 = [] := by
  unfold act
  split
  · exact ⟨⟨rfl, rfl⟩, rfl⟩
  · split
    · exact ⟨⟨rfl, rfl⟩, rfl⟩
    · cases kind <;> exact ⟨⟨rfl, rfl⟩, rfl⟩

theorem calls_act_dropPeer (alike : s.CallsAlike t) (backend : Nat) :
    (s.act (.dropPeer backend)).1.CallsAlike (t.act (.calls (.closeOutbound backend))).1 ∧
      callObserver.ofActs s [.dropPeer backend] =
        callObserver.ofActs t [.calls (.closeOutbound backend)] := by
  obtain ⟨calls, alive⟩ := alike
  simp only [Observer.ofActs]
  by_cases beyond : (some backend).any (t.calls.backends.length ≤ ·) = true
  · rw [act_of_beyond (s := s) (by rw [calls]; exact beyond),
      act_of_beyond (s := t) (c := .calls (.closeOutbound backend)) beyond]
    exact ⟨⟨calls, alive⟩, rfl⟩
  · rw [act_of_fits (s := s) (by rw [calls]; exact beyond) (.inr rfl),
      act_of_fits (s := t) (c := .calls (.closeOutbound backend)) beyond (.inr rfl)]
    simp only [perform, calls]
    exact ⟨⟨rfl, alive⟩, rfl⟩

theorem ofEffects_logs (o : Observer) (ignores : ∀ log, o.notices (.logged log) = false)
    (es : List Effect) (logs : List Log) :
    o.ofEffects (es ++ logs.map .logged) = o.ofEffects es := by
  have none : (logs.map Effect.logged).filter o.notices = [] :=
    List.filter_eq_nil_iff.mpr fun e member => by
      obtain ⟨log, -, rfl⟩ := List.mem_map.mp member
      simp [ignores]
  rw [Observer.ofEffects, List.filter_append, none, List.append_nil, Observer.ofEffects]

theorem calls_act_end (alike : s.CallsAlike t) {c : Command} (ends : c.tearsDown = true) :
    (s.act c).1.CallsAlike (t.act c).1 ∧
      callObserver.ofActs s [c] = callObserver.ofActs t [c] := by
  have inRange (s : Session) : ¬c.backend?.any (s.calls.backends.length ≤ ·) = true := by
    cases c <;> first | exact Bool.false_ne_true | cases ends
  obtain ⟨calls, alive⟩ := alike
  simp only [Observer.ofActs]
  cases here : t.isAlive with
  | false =>
    have needs : c.needsLife = true := by cases c <;> first | rfl | cases ends
    rw [act_of_gone (inRange s) (alive.trans here) needs, act_of_gone (inRange t) here needs]
    exact ⟨⟨calls, alive⟩, rfl⟩
  | true =>
    rw [act_of_fits (inRange s) (.inl (alive.trans here)), act_of_fits (inRange t) (.inl here)]
    have logs := ofEffects_logs callObserver (fun _ => rfl)
    cases c with
    | shutdown =>
      simp only [perform, shutDown, calls, logs]
      exact ⟨⟨rfl, rfl⟩, trivial⟩
    | drop =>
      simp only [perform, discard, calls]
      exact ⟨⟨rfl, rfl⟩, trivial⟩
    | _ => cases ends

theorem calls_unwind : Unwinds callObserver Command.callPart CallsAlike where
  act {s t} alike c := by
    cases c with
    | calls c =>
      obtain ⟨after, same⟩ := calls_act_alike alike c
      refine ⟨after, ?_⟩
      simp only [Command.callPart, Observer.ofActs, same]
    | stream kind c =>
      obtain ⟨still, silent⟩ := act_stream s kind c
      refine ⟨⟨still.1.trans alike.1, still.2.trans alike.2⟩, ?_⟩
      simp only [Command.callPart, Observer.ofActs, silent]
      rfl
    | dropPeer backend => exact calls_act_dropPeer alike backend
    | shutdown => exact calls_act_end alike rfl
    | drop => exact calls_act_end alike rfl
  settle {s t} alike := by
    obtain ⟨calls, alive⟩ := alike
    simp only [Session.settle, ofEffects_logs callObserver (fun _ => rfl), calls]
    exact ⟨⟨rfl, alive⟩, trivial⟩

theorem length_settle (s : Session) :
    s.settle.1.calls.backends.length = s.calls.backends.length := by
  simpa using congrArg List.length (names_settle s)

theorem streams_act_alike (alike : s.StreamsAlike t) (c : Command) :
    (s.act c).1.StreamsAlike (t.act c).1 :=
  ⟨streams_act alike.1 alike.2 c,
    (length_calls_act s c).trans (alike.2.trans (length_calls_act t c).symm)⟩

theorem act_calls (s : Session) (c : CallCommand) : (s.act (.calls c)).1.StreamsAlike s := by
  refine ⟨?_, length_calls_act s _⟩
  unfold act
  split
  · rfl
  · split <;> rfl

theorem act_stream_alike (alike : s.StreamsAlike t) (kind : StreamKind) (c : StreamCommand) :
    (s.act (.stream kind c)).2.1 = (t.act (.stream kind c)).2.1 := by
  obtain ⟨same, length⟩ := alike
  obtain ⟨notifications, requests, alive⟩ := streams_eq_iff.mp same
  unfold act
  rw [length, alive]
  split
  · rfl
  · split
    · rfl
    · cases kind <;> simp only [perform, notifications, requests]

theorem act_end_alike (alike : s.StreamsAlike t) {c : Command} (ends : c.tearsDown = true) :
    (s.act c).2.1 = (t.act c).2.1 := by
  obtain ⟨-, -, alive⟩ := streams_eq_iff.mp alike.1
  cases here : t.isAlive <;> cases c <;>
    simp [act, Command.backend?, Command.needsLife, here, alive, perform,
      Command.tearsDown] at ends ⊢

theorem ofActs_stream (kind : StreamKind) (s : Session) (c : Command) (rest : List Command) :
    (streamObserver kind).ofActs s (c :: rest) =
      ((streamObserver kind).results c (s.act c).2.1).map .gave ++
        (streamObserver kind).ofActs (s.act c).1 rest := by
  simp [Observer.ofActs, Observer.ofEffects, streamObserver]

theorem streams_act_dropPeer (alike : s.StreamsAlike t) (kind : StreamKind) (backend : Nat) :
    (s.act (.dropPeer backend)).1.StreamsAlike (t.acts (Command.dropPeer backend).streamPart) ∧
      (streamObserver kind).ofActs s [.dropPeer backend] =
        (streamObserver kind).ofActs t (Command.dropPeer backend).streamPart := by
  obtain ⟨same, length⟩ := alike
  obtain ⟨notifications, requests, alive⟩ := streams_eq_iff.mp same
  simp only [Command.streamPart, ofActs_stream, acts, List.foldl_cons, List.foldl_nil]
  by_cases beyond : (some backend).any (t.calls.backends.length ≤ ·) = true
  · rw [act_of_beyond (s := s) (by rw [length]; exact beyond),
      act_of_beyond (s := t) (c := .stream .notifications (.close backend)) beyond,
      act_of_beyond (s := t) (c := .stream .requests (.close backend)) beyond]
    exact ⟨⟨same, length⟩, by cases kind <;> rfl⟩
  · rw [act_of_fits (s := s) (by rw [length]; exact beyond) (.inr rfl),
      act_of_fits (s := t) (c := .stream .notifications (.close backend)) beyond (.inr rfl),
      act_of_fits (s := (t.perform (.stream .notifications (.close backend))).1)
        (c := .stream .requests (.close backend)) beyond (.inr rfl)]
    simp only [perform, FanIn.act, notifications, requests]
    refine ⟨⟨streams_eq_iff.mpr ⟨rfl, rfl, alive⟩, ?_⟩, by cases kind <;> rfl⟩
    have closed := congrArg List.length (s.calls.names_closeOutbound backend)
    simp only [List.length_map] at closed
    exact closed.trans length

theorem streams_unwind (kind : StreamKind) :
    Unwinds (streamObserver kind) Command.streamPart StreamsAlike where
  act {s t} alike c := by
    cases c with
    | calls c =>
      have still := act_calls s c
      refine ⟨⟨still.1.trans alike.1, still.2.trans alike.2⟩, ?_⟩
      rw [ofActs_stream]
      rfl
    | stream k c =>
      refine ⟨streams_act_alike alike _, ?_⟩
      change _ = (streamObserver kind).ofActs t [.stream k c]
      rw [ofActs_stream, ofActs_stream, act_stream_alike alike]
      rfl
    | dropPeer backend => exact streams_act_dropPeer alike kind backend
    | shutdown =>
      refine ⟨streams_act_alike alike _, ?_⟩
      change _ = (streamObserver kind).ofActs t [.shutdown]
      rw [ofActs_stream, ofActs_stream, act_end_alike alike rfl]
      rfl
    | drop =>
      refine ⟨streams_act_alike alike _, ?_⟩
      change _ = (streamObserver kind).ofActs t [.drop]
      rw [ofActs_stream, ofActs_stream, act_end_alike alike rfl]
      rfl
  settle {s t} alike := by
    obtain ⟨same, length⟩ := alike
    obtain ⟨notifications, requests, alive⟩ := streams_eq_iff.mp same
    refine ⟨⟨?_, (length_settle s).trans (length.trans (length_settle t).symm)⟩, ?_⟩
    · exact streams_eq_iff.mpr ⟨by simp only [Session.settle, notifications],
        by simp only [Session.settle, requests], alive⟩
    · simp [Observer.ofEffects, streamObserver]

/-- The calls and the streams are independent. Without what is asked of the streams, a run comes to
    the same calls in the same state, and shows the same of them; without what is asked of the
    calls, it comes to the same streams, and gives the same from each. -/
theorem calls_streams_independent (backends : List Backend) (settings : Settings)
    (rounds : List (List Command)) :
    let s := ofBackends backends settings
    let calling := partsOf Command.callPart rounds
    let streaming := partsOf Command.streamPart rounds
    ((s.rounds rounds).calls = (s.rounds calling).calls ∧
      callObserver.ofRounds s rounds = callObserver.ofRounds s calling) ∧
    ∀ kind, (s.rounds rounds).stream kind = (s.rounds streaming).stream kind ∧
      (streamObserver kind).ofRounds s rounds = (streamObserver kind).ofRounds s streaming := by
  intro s calling streaming
  have settled := settled_ofBackends backends settings
  obtain ⟨calls, seen⟩ := calls_unwind.rounds ⟨rfl, rfl⟩ settled rounds
  refine ⟨⟨calls.1, seen⟩, fun kind => ?_⟩
  obtain ⟨streams, given⟩ := (streams_unwind kind).rounds ⟨rfl, rfl⟩ settled rounds
  obtain ⟨notifications, requests, -⟩ := streams_eq_iff.mp streams.1
  cases kind with
  | notifications => exact ⟨notifications, given⟩
  | requests => exact ⟨requests, given⟩

end Session

end Switchboard.Mux
