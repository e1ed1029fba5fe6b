import Switchboard.Mux.CallSide.Handshake

namespace Switchboard.Mux

def overAll {σ α ε : Type} (f : σ → α → σ × List ε) : List α → σ → σ × List ε
  | [], s => (s, [])
  | a :: rest, s =>
    let (s, es) := f s a
    let (s, more) := overAll f rest s
    (s, es ++ more)

namespace CallSide

/-- Sends a notification to the backends from `index` on, up to the first that does not take it. -/
def broadcast (method : String) (params : Json) :
    Nat → List Backend → List Backend × Option Reply × List Effect
  | _, [] => ([], some (.ok .null), [])
  | index, b :: rest =>
    let (b', reply) := b.notify method params
    let sent : Effect := .sent index b.name false method params b.accepts
    match reply with
    | some (.ok _) =>
      let (rest, outcome, effects) := broadcast method params (index + 1) rest
      (b' :: rest, outcome, sent :: effects)
    | some (.error e) =>
      (b' :: rest, reply, [sent, .logged (.broadcastFailed method b.name e)])
    | _ => (b' :: rest, reply, [sent])

def finishRouted (s : CallSide) (r : Routed) : Reply → List Effect
  | .ok v => [.ended r.call (.ok v)]
  | .error e => [.ended r.call (.error e)]
  | .panicked _ => [.ended r.call .panicked]
  | .dropped =>
    [.logged (.requestDropped (s.nameOf 0) r.method), .ended r.call (.error (s.errorOf 0 .dropped))]

-- The agents that a handshake publishes are the backends, one for one
-- (`Session.agents_are_backends`), so the calls go to these.

/-- Runs a new call up to where it has to wait. It acts on the phase that it finds. -/
def start (s : CallSide) : Nat × Ask → CallSide × List Effect
  | (call, .awaitHandshake) =>
    if s.phase.isInitialized then (s, [.ended call (.ok .null)])
    else ({ s with watchers := s.watchers ++ [call] }, [])
  | (call, .notify method params) =>
    match s.phase with
    | .uninitialized =>
      (s, [.logged (.notificationDropped method), .ended call (.ok .null)])
    | .initialized _ =>
      let (backends, reply, effects) := broadcast method params 0 s.backends
      let s := { s with backends }
      match reply with
      | some (.ok _) => (s, effects ++ [.ended call (.ok .null)])
      | some (.error e) => (s, effects ++ [.ended call (.error e)])
      | some _ => (s, effects ++ [.ended call .panicked])
      | none => ({ s with stalled := s.stalled ++ [call] }, effects)
  | (call, .request method params) =>
    match s.phase with
    | .uninitialized =>
      if isHandshake method then s.startHandshake call params
      else (s, [.ended call (.error (.notInitialized "server not initialized"))])
    | .initialized _ =>
      if isHandshake method then (s, [.ended call (.error invokedTwice)])
      else match s.backends with
        | [] =>
          (s, [.ended call (.error (.internalError "no backends to route requests to"))])
        | b :: rest =>
          let (b', reply) := b.request call method params
          let sent : Effect := .sent 0 b.name true method params b.accepts
          ({ s with backends := b' :: rest, routed := s.routed ++ [⟨call, method, reply⟩] },
            [sent])

def endRouted (s : CallSide) : CallSide × List Effect :=
  ({ s with routed := s.routed.filter fun r => r.reply.isNone },
    s.routed.flatMap fun r => (r.reply.map (finishRouted s r)).getD [])

def issue (s : CallSide) (ask : Ask) : CallSide × Nat :=
  ({ s with fresh := s.fresh ++ [(s.nextCall, ask)], nextCall := s.nextCall + 1 }, s.nextCall)

/-- Runs every call as far as it gets. -/
def settle (s : CallSide) : CallSide × List Effect :=
  let (s, started) := overAll start s.fresh { s with fresh := [] }
  let (s, ended) := s.endRouted
  let (s, effects) := s.handshakes
  (s, started ++ ended ++ effects)

/-- Drops a call. Its requests stay in the queues, but nobody waits for them. -/
def cancel (s : CallSide) (call : Nat) : CallSide :=
  { s with
    fresh := s.fresh.filter fun c => c.1 != call
    attempt := s.attempt.filter fun a => a.call != call
    waiting := s.waiting.filter fun w => w.1 != call
    routed := s.routed.filter fun r => r.call != call
    watchers := s.watchers.filter (· != call)
    stalled := s.stalled.filter (· != call) }

def tearDown (s : CallSide) : CallSide × List Effect :=
  ({ s with
      fresh := [], attempt := none, waiting := [], routed := [], watchers := [], stalled := [] },
    s.unfinished.map fun call => .ended call .cancelled)

end CallSide

end Switchboard.Mux
