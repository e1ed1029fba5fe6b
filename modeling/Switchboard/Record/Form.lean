import Switchboard.Json.Document
import Switchboard.Record.Mismatch

namespace Switchboard.Record

open Json (Doc Fault)

inductive Problem
  | mismatch (what : Mismatch)
  | fault (what : Fault)

/-- A text is read while it is scanned; a value is whole before. -/
inductive Origin
  | text
  | value
  deriving DecidableEq

/-- What an array of `count` items that goes on behind the last field is told. -/
def Origin.surplus (count : Nat) : Origin → Problem
  | .text => .fault .malformed
  | .value => .mismatch (.tooLong count)

def ofFault {α : Type} : Except Fault α → Except Problem α
  | .ok a => .ok a
  | .error f => .error (.fault f)

/-- What a document is called where something else is expected. Strings and numbers are read whole
    before they are called wrong, arrays and objects are not. -/
def found : Doc → Except Problem Found
  | .null => .ok .null
  | .bool b => .ok (.bool b)
  | .num (.int n) => .ok (.int n)
  | .num (.float x) => .ok (.float x)
  | .str s => .ok (.str s)
  | .arr _ => .ok .sequence
  | .obj _ => .ok .map
  | .unfit _ => .error (.fault .malformed)
  | .broken b => .error (.fault b.read)

def wrongType {α : Type} (doc : Doc) (expected : Expected) : Except Problem α := do
  throw (.mismatch (.type (← found doc) expected))

def string : Doc → Except Problem String
  | .str s => .ok s
  | doc => wrongType doc .string

def code : Doc → Except Problem Int32
  | .num (.int n) =>
    if Width.isInt32 n then .ok (Int32.ofInt n)
    else .error (.mismatch (.range (.int n) .code))
  | doc => wrongType doc .code

/-- Any value. One from a text gets its keys sorted; one that was there before is kept as it is. -/
def any (origin : Origin) (doc : Doc) : Except Problem Json := do
  let value ← ofFault doc.read
  match origin with
  | .text => return value.sortKeys
  | .value => return value

def optional (origin : Origin) (doc : Doc) : Except Problem (Option Json) := do
  match ← any origin doc with
  | .null => return none
  | value => return some value

/-- The fields `F` of a record, in order, each with its key, its reading, and what it is when the
    document does not have it (`none` for a required field). -/
structure Form (F : Type) (Ty : F → Type) where
  name : String
  fields : List F
  complete : ∀ f, f ∈ fields
  key : F → String
  read : (f : F) → Doc → Except Problem (Ty f)
  fallback : (f : F) → Option (Ty f)

abbrev Draft {F : Type} (Ty : F → Type) := (f : F) → Option (Ty f)

namespace Form

variable {F : Type} [DecidableEq F] {Ty : F → Type}

def Draft.empty : Draft Ty := fun _ => none

def Draft.set (draft : Draft Ty) (f : F) (value : Ty f) : Draft Ty :=
  fun g => if h : f = g then some (h ▸ value) else draft g

def field? (form : Form F Ty) (key : String) : Option F :=
  form.fields.find? fun f => form.key f == key

/-- Keys that name no field are passed over. -/
def readEntries (form : Form F Ty) (draft : Draft Ty) : Json.Entries → Except Problem (Draft Ty)
  | .close => .ok draft
  | .stop b => .error (.fault b.read)
  | .cons none _ _ => .error (.fault .malformed)
  | .cons (some key) doc rest =>
    match form.field? key with
    | none => do
      ofFault doc.skim
      readEntries form draft rest
    | some f =>
      if (draft f).isSome then .error (.mismatch (.duplicate key))
      else do
        let value ← form.read f doc
        readEntries form (Draft.set draft f value) rest

def itemCount : Json.Items → Nat
  | .close | .stop _ => 0
  | .cons _ rest => itemCount rest + 1

/-- Reads `count` fields and more, and says how many there were. -/
def readItems (form : Form F Ty) (origin : Origin) (draft : Draft Ty) (count : Nat) :
    List F → Json.Items → Except Problem (Draft Ty × Nat)
  | _, .close => .ok (draft, count)
  | _, .stop b => .error (.fault b.read)
  | [], .cons _ rest => .error (origin.surplus (count + itemCount rest + 1))
  | f :: fields, .cons doc rest => do
    let value ← form.read f doc
    readItems form origin (Draft.set draft f value) (count + 1) fields rest

/-- A field's value, its own or the one it has by default. -/
def value? (form : Form F Ty) (draft : Draft Ty) (f : F) : Option (Ty f) :=
  (draft f).or (form.fallback f)

/-- All fields; `absent` tells of the first that is required and was not read. -/
def finish (form : Form F Ty) (absent : F → Mismatch) (draft : Draft Ty) :
    Except Problem ((f : F) → Ty f) :=
  match h : form.fields.find? fun f => (form.value? draft f).isNone with
  | some f => .error (.mismatch (absent f))
  | none => .ok fun f => (form.value? draft f).get (by
      have := List.find?_eq_none.mp h f (form.complete f)
      simpa [Option.isSome_iff_ne_none] using this)

def readRecord (form : Form F Ty) (origin : Origin) : Doc → Except Problem ((f : F) → Ty f)
  | .obj entries => do
    let draft ← form.readEntries Draft.empty entries
    form.finish (fun f => .missing (form.key f)) draft
  | .arr items => do
    let (draft, count) ← form.readItems origin Draft.empty 0 form.fields items
    form.finish (fun _ => .tooShort count form.name form.fields.length) draft
  | doc => wrongType doc (.record form.name)

end Form

def ofText {α : Type} (read : Origin → Doc → Except Problem α) (text : String) :
    Except Problem α :=
  (Json.Document.ofText text).take .fault (read .text)

def ofJson {α : Type} (read : Origin → Doc → Except Problem α) (value : Json) :
    Except Problem α :=
  read .value (Doc.ofJson value)

end Switchboard.Record
