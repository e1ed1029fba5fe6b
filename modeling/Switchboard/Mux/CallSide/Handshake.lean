import Switchboard.Mux.CallSide.Basic

namespace Switchboard.Mux.CallSide

def invokedTwice : RpcError := .invalidRequest "initialize invoked twice"

/-- What the handshake returns: the first backend's result, or an empty capability set under the
    configured identity. -/
def merged (agents : List Agent) (fallback : ServerInfo) : Json :=
  match agents with
  | first :: _ => first.result
  | [] => .obj [("capabilities", Capabilities.empty), ("serverInfo", fallback.toJson)]

/-- Sends the handshake to every backend from `index` on; the replies that are there at once. -/
def fanOut (call : Nat) (params : Json) :
    Nat → List Backend → List Backend × List (Nat × Reply) × List Effect
  | _, [] => ([], [], [])
  | index, b :: rest =>
    let (b', reply) := b.request call handshakeMethod params
    let (rest, arrivals, effects) := fanOut call params (index + 1) rest
    (b' :: rest, (reply.map (index, ·)).toList ++ arrivals,
      .sent index b.name true handshakeMethod params b.accepts :: effects)

def openAttempt (s : CallSide) (call : Nat) (params : Json) : CallSide × Attempt × List Effect :=
  let (backends, finished, effects) := fanOut call params 0 s.backends
  let indices := List.range s.backends.length
  let a : Attempt :=
    { call, finished
      running := indices.filter fun i => !finished.any fun r => r.1 == i
      results := indices.map fun _ => none }
  ({ s with backends }, a, .logged (.handshaking s.backends.length) :: effects)

/-- Each backend with its result; a backend without one is left out. -/
def agentsOf (backends : List Backend) (results : List (Option Json)) : List Agent :=
  (backends.zip results).filterMap fun (b, result) => result.map (Agent.mk b.name)

def issueLog (agent : Agent) : List Effect :=
  match Capabilities.issue? agent.result with
  | none => []
  | some .absent => [.logged (.noCapabilities agent.name)]
  | some (.malformed raw) => [.logged (.malformedCapabilities agent.name raw)]

/-- Publishes the results of a handshake: the state is initialized from here on, and those who watch
    for the end of the handshake are told. -/
def publish (s : CallSide) (call : Nat) (results : List (Option Json)) : CallSide × List Effect :=
  let agents := agentsOf s.backends results
  ({ s with phase := .initialized agents, watchers := [] },
    agents.flatMap issueLog ++
      [.logged .handshakeComplete, .ended call (.ok (merged agents s.fallback))] ++
      s.watchers.map (fun w => .ended w (.ok .null)))

def failAttempt (s : CallSide) (a : Attempt) (backend : Nat) (reply : Reply) : List Effect :=
  let e := s.errorOf backend reply
  let dropped := a.finished.filterMap fun r => match r.2 with
    | .dropped => some (Effect.logged (.requestDropped (s.nameOf r.1) handshakeMethod))
    | _ => none
  let failed := match reply with
    | .panicked _ => []
    | _ => [Effect.logged (.handshakeFailed (s.nameOf backend) e)]
  dropped ++ failed ++ [.ended a.call (.error e)]

/-- Goes on with the handshake that holds the turn. It gives the turn up when it is over. -/
def advance (s : CallSide) (a : Attempt) : CallSide × List Effect :=
  match a.stage with
  | .pending results => ({ s with attempt := some { a with finished := [], results } }, [])
  | .complete results => { s with attempt := none }.publish a.call results
  | .failed backend reply => ({ s with attempt := none }, s.failAttempt a backend reply)

/-- Gives the turn to the handshake calls that wait for it, up to one that keeps it. Each looks at
    the phase again: the handshake may have been published while it waited. -/
def takeTurns : List (Nat × Json) → CallSide → CallSide × List Effect
  | [], s => (s, [])
  | (call, params) :: rest, s =>
    if s.attempt.isSome then ({ s with waiting := (call, params) :: rest }, [])
    else if s.phase.isInitialized then
      let (s, effects) := takeTurns rest s
      (s, .ended call (.error invokedTwice) :: effects)
    else
      let (s, a, begun) := s.openAttempt call params
      let (s, went) := s.advance a
      let (s, effects) := takeTurns rest s
      (s, begun ++ went ++ effects)

def handshakes (s : CallSide) : CallSide × List Effect :=
  let (s, went) := match s.attempt with
    | none => (s, [])
    | some a => s.advance a
  let (s, effects) := takeTurns s.waiting { s with waiting := [] }
  (s, went ++ effects)

/-- Starts a handshake call. It gets the turn at once when nobody holds it or waits for it; without
    backends there is then nothing to wait for. -/
def startHandshake (s : CallSide) (call : Nat) (params : Json) : CallSide × List Effect :=
  if s.attempt.isSome || !s.waiting.isEmpty then
    ({ s with waiting := s.waiting ++ [(call, params)] }, [])
  else
    let (s, a, begun) := s.openAttempt call params
    if s.backends.isEmpty then
      let (s, went) := s.advance a
      (s, begun ++ went)
    else ({ s with attempt := some a }, begun)

end Switchboard.Mux.CallSide
