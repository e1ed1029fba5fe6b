import Switchboard.Capabilities.Provider

namespace Switchboard.Capabilities

inductive Issue
  | absent
  | malformed (raw : Json)

def empty : Json := .obj []

/-- The capability set of a handshake result. -/
def advertised (result : Json) : Except Issue Json :=
  match result.get? "capabilities" with
  | none => .error .absent
  | some raw => match Provider.serverCapabilities.read raw with
    | none => .error (.malformed raw)
    | some set => .ok set

def issue? (result : Json) : Option Issue :=
  match advertised result with
  | .ok _ => none
  | .error issue => some issue

/-- The capability set of a handshake result, empty when it gives none. -/
def ofResult (result : Json) : Json := (advertised result).toOption.getD empty

end Switchboard.Capabilities
