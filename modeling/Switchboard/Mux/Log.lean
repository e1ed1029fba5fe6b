import Switchboard.LogLine
import Switchboard.Wire.RpcError

namespace Switchboard.Mux

inductive StreamKind
  | notifications
  | requests
  deriving DecidableEq

def StreamKind.text : StreamKind → String
  | .notifications => "notifications"
  | .requests => "server requests"

inductive Log
  | multiplexing (count : Nat)
  | forwarding (kind : StreamKind) (backend : String)
  | sourceClosed (kind : StreamKind) (backend : String)
  | mergedDropped (kind : StreamKind) (backend : String)
  | forwarderCancelled (kind : StreamKind) (backend : String)
  | notificationDropped (method : String)
  | handshaking (count : Nat)
  | handshakeFailed (backend : String) (error : RpcError)
  | handshakeComplete
  | noCapabilities (backend : String)
  | malformedCapabilities (backend : String) (raw : Json)
  | broadcastFailed (method : String) (backend : String) (error : RpcError)
  | requestDropped (backend : String) (method : String)
  | shutDown

namespace Log

def level : Log → String
  | .handshakeFailed .. | .noCapabilities _ | .malformedCapabilities .. | .broadcastFailed ..
  | .requestDropped .. => "WARN"
  | _ => "DEBUG"

def target : Log → String
  | .forwarding .. | .sourceClosed .. | .mergedDropped .. | .forwarderCancelled .. =>
    "lspx::forward"
  | .requestDropped .. => "lspx::backend"
  | _ => "lspx::multiplexer"

/-- The message up to where a decoder is quoted. -/
def headline : Log → String
  | .multiplexing count => "Multiplexing " ++ toString count ++ " backend(s)"
  | .forwarding kind backend => "Forwarding " ++ kind.text ++ " from '" ++ backend ++ "'"
  | .sourceClosed kind backend =>
    "Backend '" ++ backend ++ "' closed its " ++ kind.text ++ " stream"
  | .mergedDropped kind backend =>
    "Merged " ++ kind.text ++ " stream dropped, stopping forwarder for '" ++ backend ++ "'"
  | .forwarderCancelled kind backend =>
    "Forwarder for " ++ kind.text ++ " from '" ++ backend ++ "' cancelled"
  | .notificationDropped method =>
    "Dropping notification '" ++ method ++ "' received before initialize"
  | .handshaking count => "Initializing " ++ toString count ++ " backend(s)"
  | .handshakeFailed backend error =>
    "Backend '" ++ backend ++ "' failed to initialize: " ++ error.text
  | .handshakeComplete => "Handshake complete, multiplexer initialized"
  | .noCapabilities backend => "Backend '" ++ backend ++ "' returned no capabilities"
  | .malformedCapabilities backend _ =>
    "Backend '" ++ backend ++ "' returned malformed capabilities"
  | .broadcastFailed method backend error =>
    "Broadcast of '" ++ method ++ "' to '" ++ backend ++ "' failed: " ++ error.text
  | .requestDropped backend method =>
    "Backend '" ++ backend ++ "' dropped request '" ++ method ++ "' without answering"
  | .shutDown => "Multiplexer shut down"

/-- The message. What the decoder says of capabilities that it refuses is given by `wording`. -/
def message (wording : Json → String) (log : Log) : String :=
  match log with
  | .malformedCapabilities _ raw => log.headline ++ ": " ++ wording raw
  | _ => log.headline

def line (wording : Json → String) (log : Log) : LogLine :=
  ⟨log.level, log.target, log.message wording⟩

def text (log : Log) : String := LogLine.text ⟨log.level, log.target, log.headline⟩

end Log

end Switchboard.Mux
