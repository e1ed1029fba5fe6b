import Switchboard.Record.Form

namespace Switchboard

open Json (Doc)
open Record

def handshakeMethod : String := "initialize"

def isHandshake (method : String) : Bool := method == handshakeMethod

inductive RequestId
  | number (value : Int64)
  | text (value : String)
  | null
  deriving DecidableEq

namespace RequestId

def toJson : RequestId → Json
  | .number n => .int n.toInt
  | .text s => .str s
  | .null => .null

/-- The whole value is read before it is looked at. -/
def read (doc : Doc) : Except Problem RequestId := do
  match ← ofFault doc.read with
  | .null => return .null
  | .str s => return .text s
  | .num (.int n) =>
    if Width.isInt64 n then return .number (Int64.ofInt n)
    else throw (.mismatch (.noVariant "Id"))
  | _ => throw (.mismatch (.noVariant "Id"))

end RequestId

structure Notification where
  method : String
  params : Json

namespace Notification

def toJson (n : Notification) : Json :=
  .obj [("method", .str n.method), ("params", n.params)]

inductive Field
  | method
  | params
  deriving DecidableEq

abbrev Field.Ty : Field → Type
  | .method => String
  | .params => Json

def form (origin : Origin) : Form Field Field.Ty where
  name := "Notification"
  fields := [.method, .params]
  complete f := by cases f <;> simp
  key
    | .method => "method"
    | .params => "params"
  read
    | .method => Record.string
    | .params => Record.any origin
  fallback
    | .method => none
    | .params => some .null

def read (origin : Origin) (doc : Doc) : Except Problem Notification := do
  let r ← (form origin).readRecord origin doc
  return ⟨r .method, r .params⟩

end Notification

structure ServerRequest where
  id : RequestId
  method : String
  params : Json

namespace ServerRequest

def toJson (r : ServerRequest) : Json :=
  .obj [("id", r.id.toJson), ("method", .str r.method), ("params", r.params)]

inductive Field
  | id
  | method
  | params
  deriving DecidableEq

abbrev Field.Ty : Field → Type
  | .id => RequestId
  | .method => String
  | .params => Json

def form (origin : Origin) : Form Field Field.Ty where
  name := "ServerRequest"
  fields := [.id, .method, .params]
  complete f := by cases f <;> simp
  key
    | .id => "id"
    | .method => "method"
    | .params => "params"
  read
    | .id => RequestId.read
    | .method => Record.string
    | .params => Record.any origin
  fallback
    | .id => none
    | .method => none
    | .params => some .null

def read (origin : Origin) (doc : Doc) : Except Problem ServerRequest := do
  let r ← (form origin).readRecord origin doc
  return ⟨r .id, r .method, r .params⟩

end ServerRequest

end Switchboard
