import Switchboard.Json.Basic
import Switchboard.Width

namespace Switchboard

/-- What a field's absence means. -/
inductive Presence
  | required
  -- Absent or `null`, and then not written.
  | optional
  -- Absent or `null`, and then written as `null`.
  | nullable
  deriving DecidableEq

/-- Whether a record may also be written as the list of its fields, one item each. -/
inductive RecordShape
  | plain
  | keyed
  deriving DecidableEq

inductive Schema
  | any
  | bool
  | str
  | int32
  | list (item : Schema)
  | oneOf (alternatives : List Schema)
  | choice (names : List String)
  | record (shape : RecordShape) (fields : List (String × Presence × Schema))
  deriving Inhabited

namespace Schema

/-- A field from the value under its key, if there is one: its entry in the result, or `none` when
    it does not read. -/
def readField (key : String) (presence : Presence) (read : Json → Option Json)
    (value : Option Json) : Option (List (String × Json)) :=
  match presence, value with
  | .required, none => none
  | .required, some v => (read v).map fun r => [(key, r)]
  | .optional, none | .optional, some .null => some []
  | .nullable, none | .nullable, some .null => some [(key, .null)]
  | .optional, some v | .nullable, some v => (read v).map fun r => [(key, r)]

def chosen? (names : List String) : Json → Option Json
  | .str s | .obj [(s, .null)] => if names.contains s then some (.str s) else none
  | _ => none

mutual

/-- The value as the schema writes it, or `none` when it is no value of the schema. Unknown keys and
    absent fields are left out, and of alternatives the first that reads decides. -/
def read : Schema → Json → Option Json
  | .any, v => some v
  | .bool, .bool b => some (.bool b)
  | .str, .str s => some (.str s)
  | .int32, .num (.int n) => if Width.isInt32 n then some (.int n) else none
  | .list item, .arr vs => (vs.mapM (read item)).map .arr
  | .oneOf alternatives, v => readFirst alternatives v
  | .choice names, v => chosen? names v
  | .record _ fields, .obj entries => (readEntries fields entries).map .object
  | .record .plain fields, .arr vs => (readItems fields vs).map .object
  | _, _ => none

def readFirst : List Schema → Json → Option Json
  | [], _ => none
  | s :: rest, v => match read s v with
    | some r => some r
    | none => readFirst rest v

def readEntries : List (String × Presence × Schema) → List (String × Json) →
    Option (List (String × Json))
  | [], _ => some []
  | (key, presence, s) :: rest, entries => do
    let entry ← readField key presence (read s) (entries.lookup key)
    return entry ++ (← readEntries rest entries)

def readItems : List (String × Presence × Schema) → List Json → Option (List (String × Json))
  | [], [] => some []
  | (key, presence, s) :: rest, v :: vs => do
    let entry ← readField key presence (read s) (some v)
    return entry ++ (← readItems rest vs)
  | _, _ => none

end

end Schema

end Switchboard
