import Switchboard.Toml.Value

namespace Switchboard.Toml.Scalar

def isWordChar (c : Char) : Bool :=
  c.isAlphanum || c == '_' || c == '-' || c == '+' || c == '.' || c == ':'

def digit? (base : Nat) (c : Char) : Option Nat :=
  let n :=
    if '0' ≤ c ∧ c ≤ '9' then c.toNat - '0'.toNat
    else if 'a' ≤ c ∧ c ≤ 'f' then c.toNat - 'a'.toNat + 10
    else if 'A' ≤ c ∧ c ≤ 'F' then c.toNat - 'A'.toNat + 10
    else base
  if n < base then some n else none

/-- The value and the number of digits, with single underscores between digits. -/
def digits? (base : Nat) : List Char → Option (Nat × Nat)
  | [] => none
  | c :: rest => do go (← digit? base c) 1 rest
where
  go (value count : Nat) : List Char → Option (Nat × Nat)
    | [] => some (value, count)
    | '_' :: c :: rest => do go (value * base + (← digit? base c)) (count + 1) rest
    | c :: rest => do go (value * base + (← digit? base c)) (count + 1) rest

def whole? (s : List Char) : Option Nat := do
  let (value, count) ← digits? 10 s
  if s.head? = some '0' ∧ 1 < count then none else some value

def isDigitOrUnderscore (c : Char) : Bool := c.isDigit || c == '_'

def exponent? : List Char → Option Int
  | '-' :: s => (digits? 10 s).map fun d => -(d.1 : Int)
  | '+' :: s => (digits? 10 s).map fun d => (d.1 : Int)
  | s => (digits? 10 s).map fun d => (d.1 : Int)

/-- What follows the whole part of a float: a fraction, an exponent, or both. The digits of the
    fraction as a number, how many there are, and the exponent. -/
def floatTail? : List Char → Option (Nat × Nat × Int)
  | '.' :: s => do
    let (fraction, count) ← digits? 10 (s.takeWhile isDigitOrUnderscore)
    match s.dropWhile isDigitOrUnderscore with
    | [] => some (fraction, count, 0)
    | 'e' :: s | 'E' :: s => return (fraction, count, ← exponent? s)
    | _ => none
  | 'e' :: s | 'E' :: s => return (0, 0, ← exponent? s)
  | _ => none

def number? (negative : Bool) (s : List Char) : Option Value := do
  let n ← whole? (s.takeWhile isDigitOrUnderscore)
  match s.dropWhile isDigitOrUnderscore with
  | [] => return .int (if negative then -n else n)
  | rest =>
    let (fraction, count, e) ← floatTail? rest
    return .float (Binary64.nearest negative (n * Nat.pow 10 count + fraction) (e - count))

def fixed? (count : Nat) (s : List Char) : Option (Nat × List Char) :=
  let front := s.take count
  if front.length = count ∧ front.all Char.isDigit then
    (digits? 10 front).map fun d => (d.1, s.drop count)
  else none

def isLeapYear (year : Nat) : Bool :=
  year % 4 = 0 && (year % 100 ≠ 0 || year % 400 = 0)

def daysIn (year month : Nat) : Nat :=
  match month with
  | 2 => if isLeapYear year then 29 else 28
  | 4 | 6 | 9 | 11 => 30
  | _ => 31

def date? (s : List Char) : Option (List Char) := do
  let (year, s) ← fixed? 4 s
  let s ← dropChar '-' s
  let (month, s) ← fixed? 2 s
  let s ← dropChar '-' s
  let (day, s) ← fixed? 2 s
  if 1 ≤ month ∧ month ≤ 12 ∧ 1 ≤ day ∧ day ≤ daysIn year month then some s else none
where
  dropChar (c : Char) : List Char → Option (List Char)
    | d :: s => if c = d then some s else none
    | [] => none

/-- What follows a time. Seconds may be left out, and a fraction follows seconds only. -/
def time? (s : List Char) : Option (List Char) := do
  let (hour, s) ← fixed? 2 s
  let s ← date?.dropChar ':' s
  let (minute, s) ← fixed? 2 s
  if hour > 23 ∨ minute > 59 then none
  else match s with
    | ':' :: s =>
      let (second, s) ← fixed? 2 s
      if second > 60 then none
      else match s with
        | '.' :: s =>
          if (s.takeWhile Char.isDigit).isEmpty then none else some (s.dropWhile Char.isDigit)
        | s => some s
    | s => some s

def isOffset : List Char → Bool
  | [] | ['Z'] | ['z'] => true
  | '+' :: s | '-' :: s => (do
    let (hours, s) ← fixed? 2 s
    let s ← date?.dropChar ':' s
    let (minutes, s) ← fixed? 2 s
    return hours ≤ 23 && minutes ≤ 59 && s.isEmpty).getD false
  | _ => false

def isDatetime (s : List Char) : Bool :=
  match date? s with
  | none => time? s == some []
  | some [] => true
  | some (c :: s) =>
    (c == 'T' || c == 't' || c == ' ') && (time? s).any isOffset

def ofWord (s : List Char) : Option Value :=
  match s with
  | ['t', 'r', 'u', 'e'] => some (.bool true)
  | ['f', 'a', 'l', 's', 'e'] => some (.bool false)
  | ['i', 'n', 'f'] | ['+', 'i', 'n', 'f'] => some (.float (some (.ofFloat (1.0 / 0.0))))
  | ['-', 'i', 'n', 'f'] => some (.float (some (.ofFloat (-1.0 / 0.0))))
  | ['n', 'a', 'n'] | ['+', 'n', 'a', 'n'] | ['-', 'n', 'a', 'n'] =>
    some (.float (some (.ofFloat (0.0 / 0.0))))
  | '0' :: 'x' :: s => (digits? 16 s).map fun d => .int d.1
  | '0' :: 'o' :: s => (digits? 8 s).map fun d => .int d.1
  | '0' :: 'b' :: s => (digits? 2 s).map fun d => .int d.1
  | '+' :: s => number? false s
  | '-' :: s => number? true s
  | s => if isDatetime s then some .datetime else number? false s

end Switchboard.Toml.Scalar
