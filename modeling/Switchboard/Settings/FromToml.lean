import Switchboard.Record.Mismatch
import Switchboard.Settings.Basic
import Switchboard.Toml.Document

namespace Switchboard

open Record (Found Expected Mismatch)
open Toml (Value Entries)

/-- What is wrong, and where: so many characters of the document are left there. -/
structure Misplaced where
  what : Mismatch
  place : Nat

namespace Toml.Value

/-- Integers beyond 128 bits, signed or unsigned, overflow. -/
def intOverflows (n : Int) : Bool := !Width.fits128 n

/-- What a value is called where something else is expected. Dates and times count as tables. -/
def found : Value → Except Mismatch Found
  | .str s => .ok (.str s)
  | .int n => if intOverflows n then .error .intOverflow else .ok (.int n)
  | .float (some x) => .ok (.float x)
  | .float none => .error .floatOverflow
  | .bool b => .ok (.bool b)
  | .datetime | .table .. => .ok .map
  | .arr _ | .tables _ => .ok .sequence

def mismatch (v : Value) (expected : Expected) : Mismatch :=
  match v.found with
  | .ok found => .type found expected
  | .error overflow => overflow

mutual

def overflow? (place : Nat) : Value → Option Misplaced
  | .int n => if intOverflows n then some ⟨.intOverflow, place⟩ else none
  | .float none => some ⟨.floatOverflow, place⟩
  | .arr items => overflowOfItems? items
  | .tables items => overflowOfTables? items
  | .table _ entries => overflowOfEntries? entries
  | .str _ | .float (some _) | .bool _ | .datetime => none

def overflowOfItems? : List (Nat × Value) → Option Misplaced
  | [] => none
  | (place, v) :: rest => (overflow? place v).or (overflowOfItems? rest)

def overflowOfTables? : List (Nat × List (String × Nat × Value)) → Option Misplaced
  | [] => none
  | (_, entries) :: rest => (overflowOfEntries? entries).or (overflowOfTables? rest)

def overflowOfEntries? : List (String × Nat × Value) → Option Misplaced
  | [] => none
  | (_, place, v) :: rest => (overflow? place v).or (overflowOfEntries? rest)

end

def string (place : Nat) : Value → Except Misplaced String
  | .str s => .ok s
  | v => .error ⟨v.mismatch .string, place⟩

def ignore (place : Nat) (v : Value) : Except Misplaced Unit :=
  match overflow? place v with
  | none => .ok ()
  | some problem => .error problem

end Toml.Value

namespace ServerInfo

def ofEntries (info : ServerInfo) : Entries → Except Misplaced ServerInfo
  | [] => .ok info
  | (key, place, v) :: rest => do
    let info ← match key with
      | "name" => do pure { info with name := ← v.string place }
      | "version" => do pure { info with version := ← v.string place }
      | _ => do v.ignore place; pure info
    ofEntries info rest

/-- The items of an array fill the fields in order; what follows is not looked at. -/
def ofItems : List (Nat × Value) → Except Misplaced ServerInfo
  | [] => .ok {}
  | [(p, name)] => return { name := ← name.string p }
  | (p, name) :: (q, version) :: _ =>
    return { name := ← name.string p, version := ← version.string q }

def ofToml (place : Nat) : Value → Except Misplaced ServerInfo
  | .table _ entries => ofEntries {} entries
  | .arr items => ofItems items
  | .tables items => ofItems (items.map fun i => (i.1, .table .explicit i.2))
  | .datetime => .ok {}
  | v => .error ⟨v.mismatch (.record form.name), place⟩

end ServerInfo

namespace Settings

/-- The settings of a document's root table. Entries are visited in the order of their keys, unknown
    ones too, and the first problem is the one that is told. -/
def ofEntries (settings : Settings) : Entries → Except Misplaced Settings
  | [] => .ok settings
  | (key, place, v) :: rest => do
    let settings ← match key with
      | "server_info" => do pure { settings with serverInfo := ← ServerInfo.ofToml place v }
      | _ => do v.ignore place; pure settings
    ofEntries settings rest

/-- Why a text gives no settings: it is no TOML, or TOML of the wrong shape at a line and column,
    which count from 1. -/
inductive ParseError
  | syntaxError
  | shape (what : Mismatch) (line column : Nat)

/-- The line and the column, in characters, behind the given part of a text. -/
def position (before : List Char) : Nat × Nat :=
  (before.count '\n' + 1, (before.reverse.takeWhile (· ≠ '\n')).length + 1)

def ofToml (text : String) : Except ParseError Settings :=
  match Toml.ofText text with
  | none => .error .syntaxError
  | some entries =>
    match ofEntries {} entries with
    | .ok settings => .ok settings
    | .error problem =>
      let (line, column) := position (text.toList.take (text.length - problem.place))
      .error (.shape problem.what line column)

namespace ParseError

def headline (line column : Nat) : String :=
  "Invalid config: TOML parse error at line " ++ toString line ++ ", column " ++ toString column

end ParseError

end Settings

end Switchboard
