import Switchboard.Assoc
import Switchboard.Decimal.Binary64

namespace Switchboard

/-- Integers that fit a signed or an unsigned 64-bit word stay exact. -/
inductive Json.Number
  | int (value : Int)
  | float (value : Binary64)
  deriving DecidableEq, Inhabited

inductive Json
  | null
  | bool (value : Bool)
  | num (value : Json.Number)
  | str (value : String)
  | arr (items : List Json)
  | obj (entries : List (String × Json))
  deriving Inhabited

namespace Json

abbrev int (n : Int) : Json := .num (.int n)

def ofNat (n : Nat) : Json := .num (.int n)

/-- The object with these entries, a later one replacing an earlier one of its key. -/
def object (entries : List (String × Json)) : Json :=
  .obj (Assoc.ofList entries)

mutual

/-- The entries of all objects in the order of their keys, and of those under one key the last. -/
def sortKeys : Json → Json
  | .arr items => .arr (sortKeysOfItems items)
  | .obj entries => object (sortKeysOfEntries entries)
  | v => v

def sortKeysOfItems : List Json → List Json
  | [] => []
  | v :: rest => sortKeys v :: sortKeysOfItems rest

def sortKeysOfEntries : List (String × Json) → List (String × Json)
  | [] => []
  | (key, v) :: rest => (key, sortKeys v) :: sortKeysOfEntries rest

end

def get? (key : String) : Json → Option Json
  | .obj entries => entries.lookup key
  | _ => none

end Json

end Switchboard
