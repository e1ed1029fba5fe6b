import Switchboard.Toml.Quoted
import Switchboard.Toml.Scalar

namespace Switchboard.Toml

open Quoted (isBlank isPlain newline?)

def skipBlanks (s : List Char) : List Char := s.dropWhile isBlank

def skipComment : List Char → Option (List Char)
  | [] => some []
  | '\n' :: s => some ('\n' :: s)
  | '\r' :: '\n' :: s => some ('\r' :: '\n' :: s)
  | c :: s => if isPlain c then skipComment s else none

def endLine (s : List Char) : Option (List Char) := do
  let s ← match skipBlanks s with
    | '#' :: s => skipComment s
    | s => some s
  match s with
  | [] => some []
  | s => newline? s

def skipTrivia : Nat → List Char → Option (List Char)
  | 0, _ => none
  | fuel + 1, s =>
    match skipBlanks s with
    | '#' :: s => do skipTrivia fuel (← skipComment s)
    | s => match newline? s with
      | some s => skipTrivia fuel s
      | none => some s

def isBareKeyChar (c : Char) : Bool := c.isAlphanum || c == '_' || c == '-'

def keyPart? (s : List Char) : Option (Key × List Char) :=
  let place := s.length
  match s with
  | '"' :: _ | '\'' :: _ => (Quoted.line? s).map fun r => (⟨r.1, place⟩, r.2)
  | s =>
    let name := s.takeWhile isBareKeyChar
    if name.isEmpty then none
    else some (⟨String.ofList name, place⟩, s.dropWhile isBareKeyChar)

/-- A key and the blanks around it. Its last part stands apart. -/
def key? : Nat → List Char → Option ((List Key × Key) × List Char)
  | 0, _ => none
  | fuel + 1, s => do
    let (part, s) ← keyPart? (skipBlanks s)
    match skipBlanks s with
    | '.' :: s =>
      let ((path, key), s) ← key? fuel s
      return ((part :: path, key), s)
    | s => return (([], part), s)

/-- A word, and behind a date also the time that follows a single space. -/
def word (s : List Char) : List Char × List Char :=
  let front := s.takeWhile Scalar.isWordChar
  let rest := s.dropWhile Scalar.isWordChar
  match Scalar.date? front, rest with
  | some [], ' ' :: more =>
    let next := more.takeWhile Scalar.isWordChar
    if next.isEmpty then (front, rest)
    else (front ++ ' ' :: next, more.dropWhile Scalar.isWordChar)
  | _, _ => (front, rest)

/-- Arrays and inline tables may be nested this deep. -/
def depthLimit : Nat := 80

mutual

def value? : Nat → Nat → List Char → Option (Value × List Char)
  | 0, _, _ => none
  | fuel + 1, depth, s =>
    match s with
    | '"' :: _ | '\'' :: _ => (Quoted.value? s).map fun r => (.str r.1, r.2)
    | '[' :: s =>
      if depth < depthLimit then (items? fuel (depth + 1) s).map fun r => (.arr r.1, r.2)
      else none
    | '{' :: s => do
      if depth < depthLimit then
        let (assignments, s) ← assignments? fuel (depth + 1) s
        let table ← Table.ofAssignments assignments
        return (.table .inline table.entries, s)
      else none
    | s =>
      let (front, rest) := word s
      (Scalar.ofWord front).map (·, rest)

def items? : Nat → Nat → List Char → Option (List (Nat × Value) × List Char)
  | 0, _, _ => none
  | fuel + 1, depth, s => do
    match ← skipTrivia fuel s with
    | ']' :: s => return ([], s)
    | s =>
      let place := s.length
      let (v, s) ← value? fuel depth s
      match ← skipTrivia fuel s with
      | ']' :: s => return ([(place, v)], s)
      | ',' :: s =>
        let (more, s) ← items? fuel depth s
        return ((place, v) :: more, s)
      | _ => none

def assignments? : Nat → Nat → List Char → Option (List Assignment × List Char)
  | 0, _, _ => none
  | fuel + 1, depth, s => do
    match ← skipTrivia fuel s with
    | '}' :: s => return ([], s)
    | s =>
      let (a, s) ← assignment? fuel depth s
      match ← skipTrivia fuel s with
      | '}' :: s => return ([a], s)
      | ',' :: s =>
        let (more, s) ← assignments? fuel depth s
        return (a :: more, s)
      | _ => none

/-- A key and its value, on one line as far as the key goes. -/
def assignment? : Nat → Nat → List Char → Option (Assignment × List Char)
  | 0, _, _ => none
  | fuel + 1, depth, s => do
    let ((path, key), s) ← key? fuel s
    match s with
    | '=' :: s =>
      let s := skipBlanks s
      let (value, rest) ← value? fuel depth s
      return (⟨path, key, s.length, value⟩, rest)
    | _ => none

end

def header? (fuel place : Nat) (s : List Char) : Option (Statement × List Char) :=
  match s with
  | '[' :: s => do
    let ((path, key), s) ← key? fuel s
    match s with
    | ']' :: ']' :: s => return (.header true place path key, s)
    | _ => none
  | s => do
    let ((path, key), s) ← key? fuel s
    match s with
    | ']' :: s => return (.header false place path key, s)
    | _ => none

def statements? : Nat → List Char → Option (List Statement)
  | 0, _ => none
  | fuel + 1, s => do
    match ← skipTrivia (fuel + 1) s with
    | [] => return []
    | '[' :: s =>
      let (statement, s) ← header? fuel (s.length + 1) s
      return statement :: (← statements? fuel (← endLine s))
    | s =>
      let (a, s) ← assignment? fuel 0 s
      return .assignment a :: (← statements? fuel (← endLine s))

def dropMark : List Char → List Char
  | '\uFEFF' :: s => s
  | s => s

/-- The entries of a document's root table; `none` if the text is no TOML. -/
def ofText (text : String) : Option Entries := do
  let s := dropMark text.toList
  Builder.entriesOf (← statements? (3 * s.length + 3) s)

end Switchboard.Toml
