import Switchboard.Assoc
import Switchboard.Decimal.Binary64

namespace Switchboard.Toml

/-- How a table came to be, which decides what may still be added to it. -/
inductive Standing
  -- The root table, and one that has a header of its own.
  | explicit
  -- A table on the way to one with a header.
  | implied
  -- A table on the way of a dotted key.
  | dotted
  -- A table written in braces; it is complete.
  | inline
  deriving DecidableEq

/-- Integers may be of any size and floats may have overflowed (`none`) until someone looks at them.
    `tables` is an array of tables made by headers. -/
inductive Value
  | str (value : String)
  | int (value : Int)
  | float (value : Option Binary64)
  | bool (value : Bool)
  | datetime
  | arr (items : List (Nat × Value))
  | tables (items : List (Nat × List (String × Nat × Value)))
  | table (standing : Standing) (entries : List (String × Nat × Value))
  deriving Inhabited

/-- Entries are in ascending order of their keys, each with its place: the number of characters of
    the document that are left where it starts. -/
abbrev Entries := List (String × Nat × Value)

structure Table where
  standing : Standing
  entries : Entries

structure Key where
  name : String
  place : Nat

structure Assignment where
  path : List Key
  key : Key
  place : Nat
  value : Value

namespace Table

def root : Table := ⟨.explicit, []⟩

def toValue (t : Table) : Value := .table t.standing t.entries

def find? (t : Table) (key : Key) : Option (Nat × Value) := t.entries.lookup key.name

def put (t : Table) (key : Key) (place : Nat) (value : Value) : Table :=
  { t with entries := Assoc.put key.name (place, value) t.entries }

/-- Changes the table that a path leads to; tables that are missing on the way are made. The way
    goes through the last table of an array of tables, and not through inline tables. Dotted keys do
    not go through tables with a header either. -/
def modify (dotted : Bool) (f : Table → Option Table) : List Key → Table → Option Table
  | [], t => f t
  | key :: path, t =>
    match t.find? key with
    | none => do
      let child ← modify dotted f path ⟨if dotted then .dotted else .implied, []⟩
      return t.put key key.place child.toValue
    | some (place, .table standing entries) =>
      if standing = .inline ∨ (dotted ∧ standing = .explicit) then none
      else do
        let child ← modify dotted f path ⟨standing, entries⟩
        return t.put key place child.toValue
    | some (place, .tables items) => do
      let (head, entries) ← items.getLast?
      let child ← modify dotted f path ⟨.explicit, entries⟩
      return t.put key place (.tables (items.dropLast ++ [(head, child.entries)]))
    | some _ => none

/-- Adds a value that no other has the key of. Dotted keys add to tables made by dotted keys, other
    keys to other tables. -/
def add (isDotted : Bool) (key : Key) (place : Nat) (value : Value) (t : Table) : Option Table :=
  if (t.standing = .dotted) ≠ isDotted then none
  else if (t.find? key).isSome then none
  else some (t.put key place value)

def assign (t : Table) (a : Assignment) : Option Table :=
  t.modify true (add (!a.path.isEmpty) a.key a.place a.value) a.path

def ofAssignments (assignments : List Assignment) : Option Table := assignments.foldlM assign root

/-- Opens a table by its header. A table that was implied by others keeps what it has. -/
def openTable (place : Nat) (key : Key) (t : Table) : Option Table :=
  match t.find? key with
  | none => some (t.put key place (.table .explicit []))
  | some (_, .table .implied entries) => some (t.put key place (.table .explicit entries))
  | some _ => none

def openItem (place : Nat) (key : Key) (t : Table) : Option Table :=
  match t.find? key with
  | none => some (t.put key place (.tables [(place, [])]))
  | some (first, .tables items) => some (t.put key first (.tables (items ++ [(place, [])])))
  | some _ => none

end Table

inductive Statement
  | header (isItem : Bool) (place : Nat) (path : List Key) (key : Key)
  | assignment (a : Assignment)

structure Builder where
  root : Table
  current : List Key

namespace Builder

def add (b : Builder) : Statement → Option Builder
  | .header isItem place path key => do
    let enter := if isItem then Table.openItem place key else Table.openTable place key
    let root ← b.root.modify false enter path
    return ⟨root, path ++ [key]⟩
  | .assignment a => do
    let root ← b.root.modify false (·.assign a) b.current
    return { b with root }

/-- The entries of a document's root table, unless its statements contradict each other. -/
def entriesOf (statements : List Statement) : Option Entries :=
  (statements.foldlM add ⟨.root, []⟩).map fun b => b.root.entries

end Builder

end Switchboard.Toml
