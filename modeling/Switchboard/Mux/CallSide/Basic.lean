import Switchboard.Capabilities.Advertised
import Switchboard.Mux.Backend
import Switchboard.Mux.Log
import Switchboard.Settings.Basic

namespace Switchboard.Mux

inductive Ask
  | request (method : String) (params : Json)
  | notify (method : String) (params : Json)
  | awaitHandshake

inductive Outcome
  | ok (value : Json)
  | error (error : RpcError)
  | cancelled
  | panicked

/-- What a step lets one see, in the order in which it happens. -/
inductive Effect
  | ended (call : Nat) (outcome : Outcome)
  -- A message is sent to the backend at `index`; `accepted` is false when it does not arrive.
  | sent (index : Nat) (server : String) (isRequest : Bool) (method : String) (params : Json)
      (accepted : Bool)
  | logged (log : Log)

/-- A request that a backend has been sent, by its call and the backend's place in the list. -/
structure RequestRef where
  call : Nat
  backend : Nat
  deriving DecidableEq

/-- A handshake under way. It has a task for each backend, which is over once its reply is there. -/
structure Attempt where
  call : Nat
  -- The backends whose replies are not there.
  running : List Nat
  -- The replies of tasks that have not been joined, in the order of their arrival.
  finished : List (Nat × Reply)
  -- What the joined tasks gave, at the places of their backends.
  results : List (Option Json)

/-- A request sent to the first backend, and its reply once that is there. -/
structure Routed where
  call : Nat
  method : String
  reply : Option Reply

/-- A backend that took part in the handshake, with the result it gave. -/
structure Agent where
  name : String
  result : Json

def Agent.capabilities (a : Agent) : Json := Capabilities.ofResult a.result

inductive Phase
  | uninitialized
  | initialized (agents : List Agent)

/-- The backends, the calls that have not ended, and the requests that peers hold. Handshake
    calls take turns: one fans out to all backends, the others wait behind it. -/
structure CallSide where
  backends : List Backend
  fallback : ServerInfo
  phase : Phase := .uninitialized
  nextCall : Nat := 0
  -- Calls that have not run yet.
  fresh : List (Nat × Ask) := []
  attempt : Option Attempt := none
  -- Handshake calls that wait for their turn, each with its params.
  waiting : List (Nat × Json) := []
  routed : List Routed := []
  watchers : List Nat := []
  -- Notifications that a backend never takes.
  stalled : List Nat := []
  -- The requests that were received, in order; `none` when answered or dropped.
  tickets : List (Option RequestRef) := []

/-- Where a handshake stands when the tasks that are over have been joined. -/
inductive Stage
  | pending (results : List (Option Json))
  | complete (results : List (Option Json))
  | failed (backend : Nat) (reply : Reply)

namespace Attempt

def awaits (a : Attempt) (ref : RequestRef) : Bool :=
  a.call == ref.call && a.running.contains ref.backend

def arrive (a : Attempt) (backend : Nat) (reply : Reply) : Attempt :=
  { a with
    running := a.running.erase backend
    finished := a.finished ++ [(backend, reply)] }

def hear (a : Attempt) (ref : RequestRef) (reply : Reply) : Attempt :=
  if a.awaits ref then a.arrive ref.backend reply else a

/-- Joins tasks in order, up to the first whose reply is no result. -/
def join : List (Nat × Reply) → List (Option Json) → Except (Nat × Reply) (List (Option Json))
  | [], results => .ok results
  | (i, .ok v) :: rest, results => join rest (results.set i (some v))
  | failure :: _, _ => .error failure

/-- The handshake is complete when no task is left. -/
def stage (a : Attempt) : Stage :=
  match join a.finished a.results with
  | .error (backend, reply) => .failed backend reply
  | .ok results => if a.running.isEmpty then .complete results else .pending results

end Attempt

namespace Routed

def awaits (r : Routed) (ref : RequestRef) : Bool :=
  r.call == ref.call && ref.backend == 0 && r.reply.isNone

def hear (r : Routed) (ref : RequestRef) (reply : Reply) : Routed :=
  if r.awaits ref then { r with reply := some reply } else r

end Routed

def Phase.isInitialized : Phase → Bool
  | .uninitialized => false
  | .initialized _ => true

def Phase.agents : Phase → List Agent
  | .uninitialized => []
  | .initialized agents => agents

namespace CallSide

def nameOf (s : CallSide) (index : Nat) : String := (s.backends[index]?.map Backend.name).getD ""

/-- The error that a call gets for a reply that is no result. -/
def errorOf (s : CallSide) (index : Nat) : Reply → RpcError
  | .error e => e
  | .panicked text => .internalError
      ("initialize task failed: task <id> panicked with message " ++ Text.quoted text)
  | _ => match s.backends[index]? with
    | some b => b.closedError
    | none => .requestFailed ""

def unfinished (s : CallSide) : List Nat :=
  s.fresh.map Prod.fst ++ (s.attempt.map Attempt.call).toList ++ s.waiting.map Prod.fst ++
    s.routed.map Routed.call ++ s.watchers ++ s.stalled

end CallSide

end Switchboard.Mux
