import Switchboard.Wire.RpcError
import Switchboard.Wire.Message

namespace Switchboard.Mux

/-- What becomes of a request: an answer, a responder dropped without one, or a backend that
    panics. -/
inductive Reply
  | ok (value : Json)
  | error (error : RpcError)
  | dropped
  | panicked (text : String)

/-- A message in the queue of a channel backend. A request is known by the call that it is made
    for, which makes one request at most to each backend. -/
inductive Outbound
  | notification (method : String) (params : Json)
  | request (call : Nat) (method : String) (params : Json)

structure Channel where
  isOpen : Bool := true
  queue : List Outbound := []

/-- Replies in the order of their use, the last one for good; `none` is a reply that never comes. -/
abbrev Script := List (Option Reply)

def Script.next (fallback : Reply) : Script → Option Reply × Script
  | [] => (some fallback, [])
  | [reply] => (reply, [reply])
  | reply :: rest => (reply, rest)

structure ScriptedServer where
  handshakes : Script
  requests : Script
  notifications : Script

inductive Link
  | channel (channel : Channel)
  | scripted (server : ScriptedServer)

structure Backend where
  name : String
  link : Link

namespace Backend

def ofName (name : String) : Backend := ⟨name, .channel {}⟩

def closedError (b : Backend) : RpcError :=
  .requestFailed ("backend '" ++ b.name ++ "': channel closed")

def echo (b : Backend) (method : String) : Reply :=
  .ok (.obj [("method", .str method), ("server", .str b.name)])

def accepts (b : Backend) : Bool :=
  match b.link with
  | .channel c => c.isOpen
  | .scripted _ => true

/-- Makes a request. The reply is there at once when the channel is closed or from a script. -/
def request (b : Backend) (call : Nat) (method : String) (params : Json) :
    Backend × Option Reply :=
  match b.link with
  | .channel c =>
    if c.isOpen then
      ({ b with link := .channel { c with queue := c.queue ++ [.request call method params] } },
        none)
    else (b, some (.error b.closedError))
  | .scripted s =>
    if isHandshake method then
      let (reply, rest) := s.handshakes.next (b.echo method)
      ({ b with link := .scripted { s with handshakes := rest } }, reply)
    else
      let (reply, rest) := s.requests.next (b.echo method)
      ({ b with link := .scripted { s with requests := rest } }, reply)

def notify (b : Backend) (method : String) (params : Json) : Backend × Option Reply :=
  match b.link with
  | .channel c =>
    if c.isOpen then
      ({ b with link := .channel { c with queue := c.queue ++ [.notification method params] } },
        some (.ok .null))
    else (b, some (.error b.closedError))
  | .scripted s =>
    let (reply, rest) := s.notifications.next (.ok .null)
    ({ b with link := .scripted { s with notifications := rest } }, reply)

def outbound? (b : Backend) : Option (List Outbound) :=
  match b.link with
  | .channel c => if c.isOpen then some c.queue else none
  | .scripted _ => none

def dequeue (b : Backend) : Backend :=
  match b.link with
  | .channel c => { b with link := .channel { c with queue := c.queue.tail } }
  | .scripted _ => b

/-- Closes the outbound side; what is queued is lost. -/
def close (b : Backend) : Backend :=
  match b.link with
  | .channel _ => { b with link := .channel ⟨false, []⟩ }
  | .scripted _ => b

end Backend

end Switchboard.Mux
