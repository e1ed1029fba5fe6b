import Switchboard.Mux.CallSide.Basic
import Switchboard.Mux.FanIn

namespace Switchboard.Mux

inductive CallCommand
  | call (ask : Ask)
  | cancel (call : Nat)
  | receive (backend : Nat)
  | respond (ticket : Nat) (value : Json)
  -- The error is read from JSON.
  | respondError (ticket : Nat) (error : Json)
  | dropTicket (ticket : Nat)
  | closeOutbound (backend : Nat)
  | isInitialized
  | backendCount
  | agents

inductive StreamCommand
  -- Reads messages from JSON and pushes them, up to the first that cannot be read.
  | push (backend : Nat) (messages : List Json)
  | close (backend : Nat)
  | take
  | read (max : Option Nat)
  | drop

inductive Command
  | calls (c : CallCommand)
  | stream (kind : StreamKind) (c : StreamCommand)
  -- Closes the outbound side and both streams of a backend.
  | dropPeer (backend : Nat)
  | shutdown
  | drop

def CallCommand.backend? : CallCommand → Option Nat
  | .receive b | .closeOutbound b => some b
  | _ => none

def StreamCommand.backend? : StreamCommand → Option Nat
  | .push b _ | .close b => some b
  | _ => none

def Command.backend? : Command → Option Nat
  | .calls c => c.backend?
  | .stream _ c => c.backend?
  | .dropPeer b => some b
  | .shutdown | .drop => none

/-- Whether a command needs a multiplexer that has not been torn down. -/
def Command.needsLife : Command → Bool
  | .calls c => match c with
    | .call _ | .isInitialized | .backendCount | .agents => true
    | _ => false
  | .stream _ c => match c with
    | .take => true
    | _ => false
  | .dropPeer _ => false
  | .shutdown | .drop => true

inductive Result
  | call (number : Nat)
  | cancelled (done : Bool)
  | notification (method : String) (params : Json)
  | request (method : String) (params : Json) (ticket : Nat)
  | queueEmpty
  | queueClosed
  | queueGone
  | delivered (done : Bool)
  | noTicket
  | ticketDropped (done : Bool)
  | sent (taken : List Bool)
  | undecodable (problem : Record.Problem)
  | closed (wasOpen : Bool)
  | peerDropped (outbound notifications requests : Bool)
  | taken (done : Bool)
  | items (messages : List (String × Json)) (reason : End)
  | streamDropped (done : Bool)
  | isInitialized (value : Bool)
  | backendCount (value : Nat)
  | agents (value : List Agent)
  | shutdown
  | dropped
  | noBackend
  | noMultiplexer

end Switchboard.Mux
