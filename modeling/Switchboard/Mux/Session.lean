import Switchboard.Mux.CallSide.Peer
import Switchboard.Mux.CallSide.Settle
import Switchboard.Mux.Command

namespace Switchboard.Mux

/-- What a peer sees of its queue. An empty one is closed once the multiplexer is gone. -/
def CallSide.Received.toResult (isAlive : Bool) : CallSide.Received → Result
  | .notification method params => .notification method params
  | .request method params ticket => .request method params ticket
  | .empty => if isAlive then .queueEmpty else .queueClosed
  | .gone => .queueGone

def CallSide.respond (s : CallSide) (ticket : Nat) (reply : Reply) : CallSide × Result :=
  match s.ticket? ticket with
  | none => (s, .noTicket)
  | some ref => (s.answer ticket ref reply, .delivered (s.awaits ref))

def CallSide.act (isAlive : Bool) (s : CallSide) :
    CallCommand → CallSide × Result × List Effect
  | .call ask =>
    let (s, number) := s.issue ask
    (s, .call number, [])
  | .cancel call =>
    if s.unfinished.contains call then
      (s.cancel call, .cancelled true, [.ended call .cancelled])
    else (s, .cancelled false, [])
  | .receive backend =>
    let (s, received) := s.receive backend
    (s, received.toResult isAlive, [])
  | .respond ticket value =>
    let (s, result) := s.respond ticket (.ok value)
    (s, result, [])
  | .respondError ticket error =>
    match Record.ofJson RpcError.read error with
    | .error p => (s, .undecodable p, [])
    | .ok e =>
      let (s, result) := s.respond ticket (.error e)
      (s, result, [])
  | .dropTicket ticket =>
    match s.ticket? ticket with
    | none => (s, .ticketDropped false, [])
    | some ref => (s.answer ticket ref .dropped, .ticketDropped true, [])
  | .closeOutbound backend =>
    let (s, wasOpen) := s.closeOutbound backend
    (s, .closed wasOpen, [])
  | .isInitialized => (s, .isInitialized s.phase.isInitialized, [])
  | .backendCount => (s, .backendCount s.backends.length, [])
  | .agents => (s, .agents s.phase.agents, [])

structure Codec (α : Type) where
  read : Json → Except Record.Problem α
  write : α → Json

namespace FanIn

variable {α : Type}

def pushAll (codec : Codec α) (index : Nat) :
    List Json → FanIn α → FanIn α × Except Record.Problem (List Bool)
  | [], f => (f, .ok [])
  | m :: rest, f =>
    match codec.read m with
    | .error p => (f, .error p)
    | .ok message =>
      let (f, taken) := f.push index message
      let (f, more) := pushAll codec index rest f
      (f, more.map (taken :: ·))

def act (codec : Codec α) (f : FanIn α) : StreamCommand → FanIn α × Result
  | .push backend messages =>
    match f.pushAll codec backend messages with
    | (f, .ok taken) => (f, .sent taken)
    | (f, .error p) => (f, .undecodable p)
  | .close backend =>
    let (f, wasOpen) := f.close backend
    (f, .closed wasOpen)
  | .take =>
    let (f, done) := f.take
    (f, .taken done)
  | .read max =>
    let (f, items, reason) := f.receive max
    (f, .items (items.map fun i => (i.1, codec.write i.2)) reason)
  | .drop =>
    let (f, done) := f.drop
    (f, .streamDropped done)

end FanIn

/-- The calling side and the fan-ins have no part in each other: a command acts on one of them, and
    only `dropPeer`, `shutdown` and `drop` on all. -/
structure Session where
  calls : CallSide
  notifications : FanIn Notification
  requests : FanIn ServerRequest
  isAlive : Bool := true

namespace Session

def ofBackends (backends : List Backend) (settings : Settings) : Session :=
  let names := backends.map Backend.name
  { calls := { backends, fallback := settings.serverInfo }
    notifications := .ofNames .notifications names
    requests := .ofNames .requests names }

def ofNames (names : List String) (settings : Settings) : Session :=
  ofBackends (names.map .ofName) settings

def startLogs (s : Session) : List Log :=
  .multiplexing s.calls.backends.length :: s.calls.backends.flatMap fun b =>
    [.forwarding .notifications b.name, .forwarding .requests b.name]

def notificationCodec : Codec Notification where
  read := Record.ofJson Notification.read
  write := Notification.toJson

def requestCodec : Codec ServerRequest where
  read := Record.ofJson ServerRequest.read
  write := ServerRequest.toJson

/-- Shuts a multiplexer down: every call is cancelled, and every forwarder is cancelled and waited
    for. None of them panics, so that no panic is logged here. -/
def shutDown (s : Session) : Session × List Effect :=
  let (calls, effects) := s.calls.tearDown
  let (notifications, logs) := s.notifications.cancel
  let (requests, more) := s.requests.cancel
  ({ calls
     notifications := notifications.release
     requests := requests.release
     isAlive := false }, effects ++ (logs ++ more ++ [Log.shutDown]).map .logged)

/-- Drops a multiplexer: every call is cancelled, and every forwarder is aborted. -/
def discard (s : Session) : Session × List Effect :=
  let (calls, effects) := s.calls.tearDown
  ({ calls
     notifications := s.notifications.abort.release
     requests := s.requests.abort.release
     isAlive := false }, effects)

def perform (s : Session) : Command → Session × Result × List Effect
  | .calls c =>
    let (calls, result, effects) := s.calls.act s.isAlive c
    ({ s with calls }, result, effects)
  | .stream .notifications c =>
    let (notifications, result) := s.notifications.act notificationCodec c
    ({ s with notifications }, result, [])
  | .stream .requests c =>
    let (requests, result) := s.requests.act requestCodec c
    ({ s with requests }, result, [])
  | .dropPeer backend =>
    let (calls, outbound) := s.calls.closeOutbound backend
    let (notifications, n) := s.notifications.close backend
    let (requests, r) := s.requests.close backend
    ({ s with calls, notifications, requests }, .peerDropped outbound n r, [])
  | .shutdown =>
    let (s, effects) := s.shutDown
    (s, .shutdown, effects)
  | .drop =>
    let (s, effects) := s.discard
    (s, .dropped, effects)

def act (s : Session) (c : Command) : Session × Result × List Effect :=
  if c.backend?.any (s.calls.backends.length ≤ ·) then (s, .noBackend, [])
  else if !s.isAlive && c.needsLife then (s, .noMultiplexer, [])
  else s.perform c

def settle (s : Session) : Session × List Effect :=
  let (calls, effects) := s.calls.settle
  let (notifications, logs) := s.notifications.settle
  let (requests, more) := s.requests.settle
  ({ s with calls, notifications, requests }, effects ++ (logs ++ more).map .logged)

/-- A command, and then everything that can proceed. -/
def step (s : Session) (c : Command) : Session × Result × List Effect :=
  let (s, result, effects) := s.act c
  let (s, more) := s.settle
  (s, result, effects ++ more)

/-- Whether the handshake is over, `none` once the multiplexer is gone. -/
def isInitialized? (s : Session) : Option Bool :=
  if s.isAlive then some s.calls.phase.isInitialized else none

end Session

end Switchboard.Mux
