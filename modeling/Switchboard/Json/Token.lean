import Switchboard.Json.Basic
import Switchboard.Width

namespace Switchboard.Json

inductive Fault
  | malformed
  | truncated
  deriving DecidableEq, Inhabited

/-- Where a text goes wrong. The two differ where only the value's reader looks closely, and in a
    number that the text cuts off. -/
structure Break where
  read : Fault
  skim : Fault
  deriving DecidableEq, Inhabited

namespace Break

def both (f : Fault) : Break := ⟨f, f⟩

def number (rest : List Char) : Break :=
  ⟨if rest.isEmpty then .truncated else .malformed, .malformed⟩

end Break

/-- A text that is no JSON ends in a lexeme that says why. `none` is a number or a string that can
    be passed over, but not read. -/
inductive Token
  | openArr
  | closeArr
  | openObj
  | closeObj
  | comma
  | colon
  | null
  | bool (value : Bool)
  | num (value : Option Number)
  | str (value : Option String)
  | brokenStr (why : Break)
  | broken (why : Break)

namespace Number

/-- Takes digits while the significand stays below `2 ^ 64`; the digits left over. -/
def absorb (significand : Nat) : List Char → Nat × List Char
  | [] => (significand, [])
  | c :: rest =>
    let next := significand * 10 + (c.toNat - '0'.toNat)
    if Width.isNat64 next then absorb next rest else (significand, c :: rest)

/-- An integer without fraction and exponent stays exact when it fits 64 bits; `-0` does not. -/
def ofInteger (negative : Bool) (n : Nat) : Option Number :=
  if !negative then some (.int n)
  else if n = 0 || !Width.isInt64 (-n) then (Binary64.scaled true n 0).map .float
  else some (.int (-n))

/-- The value of a number's text. Digits that no longer fit the significand count as powers of ten
    in front of the point and not at all behind it. `none` when out of range. -/
def ofParts (negative : Bool) (whole : List Char) (fraction : List Char)
    (exponent : Option Int) : Option Number :=
  let (n, excess) := absorb 0 whole
  if fraction.isEmpty && exponent.isNone && excess.isEmpty then ofInteger negative n
  else
    let (significand, ignored) := absorb n fraction
    let shift : Int := excess.length - (fraction.length - ignored.length)
    let e := exponent.getD 0
    let value :=
      if Width.isInt32 e.natAbs then Binary64.scaled negative significand (shift + e)
      else if significand ≠ 0 ∧ 0 < e then none
      else Binary64.scaled negative 0 0
    value.map .float

end Number

namespace Token

def isBlank (c : Char) : Bool := c == ' ' || c == '\n' || c == '\t' || c == '\r'

def number (negative : Bool) (s : List Char) : Token × List Char :=
  let whole := s.takeWhile Char.isDigit
  let s := s.dropWhile Char.isDigit
  match whole with
  | [] => (.broken (.number s), [])
  | '0' :: _ :: _ => (.broken (.both .malformed), [])
  | whole =>
    match s with
    | '.' :: s =>
      let fraction := s.takeWhile Char.isDigit
      let s := s.dropWhile Char.isDigit
      if fraction.isEmpty then (.broken (.number s), []) else exponent whole fraction s
    | s => exponent whole [] s
where
  exponent (whole fraction s : List Char) : Token × List Char :=
    match s with
    | 'e' :: s | 'E' :: s =>
      let (down, s) := match s with
        | '-' :: s => (true, s)
        | '+' :: s => (false, s)
        | s => (false, s)
      let digits := s.takeWhile Char.isDigit
      let s := s.dropWhile Char.isDigit
      if digits.isEmpty then (.broken (.number s), [])
      else
        let e : Int := (String.ofList digits).toNat?.getD 0
        (.num (Number.ofParts negative whole fraction (some (if down then -e else e))), s)
    | s => (.num (Number.ofParts negative whole fraction none), s)

def word (token : Token) : List Char → List Char → Token × List Char
  | [], s => (token, s)
  | _ :: _, [] => (.broken (.both .truncated), [])
  | w :: ws, c :: s => if w = c then word token ws s else (.broken (.both .malformed), [])

def hexDigit? (c : Char) : Option Nat :=
  if '0' ≤ c ∧ c ≤ '9' then some (c.toNat - '0'.toNat)
  else if 'a' ≤ c ∧ c ≤ 'f' then some (c.toNat - 'a'.toNat + 10)
  else if 'A' ≤ c ∧ c ≤ 'F' then some (c.toNat - 'A'.toNat + 10)
  else none

/-- Four hexadecimal digits. A text with fewer than four bytes left is cut off, whatever they
    are. -/
def hexFour (s : List Char) : Except Fault (Nat × List Char) :=
  match s with
  | a :: b :: c :: d :: rest =>
    match hexDigit? a, hexDigit? b, hexDigit? c, hexDigit? d with
    | some a, some b, some c, some d => .ok (((a * 16 + b) * 16 + c) * 16 + d, rest)
    | _, _, _, _ => .error .malformed
  | s => if (String.ofList s).utf8ByteSize < 4 then .error .truncated else .error .malformed

/-- What an escape stands for; `none` is half of a surrogate pair, which no character is. -/
def unicodeEscape (s : List Char) : Except Fault (Option Char × List Char) := do
  let (n, s) ← hexFour s
  if n < 0xd800 ∨ 0xe000 ≤ n then return (some (Char.ofNat n), s)
  else if 0xdc00 ≤ n then return (none, s)
  else match s with
    | [] | ['\\'] => throw .truncated
    | '\\' :: 'u' :: s' =>
      let (low, s') ← hexFour s'
      if 0xdc00 ≤ low ∧ low < 0xe000 then
        return (some (Char.ofNat (0x10000 + (n - 0xd800) * 0x400 + (low - 0xdc00))), s')
      else return (none, s')
    | s => return (none, s)

def escape (s : List Char) : Except Fault (Option Char × List Char) :=
  match s with
  | [] => throw .truncated
  | '"' :: s => pure ('"', s)
  | '\\' :: s => pure ('\\', s)
  | '/' :: s => pure ('/', s)
  | 'b' :: s => pure ('\x08', s)
  | 'f' :: s => pure ('\x0c', s)
  | 'n' :: s => pure ('\n', s)
  | 'r' :: s => pure ('\r', s)
  | 't' :: s => pure ('\t', s)
  | 'u' :: s => unicodeEscape s
  | _ :: _ => throw .malformed

/-- The rest of a string behind its opening quote. After half a surrogate pair (`whole = false`)
    it can only be passed over. -/
def string : Nat → Bool → List Char → List Char → Token × List Char
  | 0, _, _, _ => (.broken (.both .malformed), [])
  | _ + 1, whole, _, [] => stop whole .truncated
  | _ + 1, whole, acc, '"' :: s =>
    (.str (if whole then some (String.ofList acc.reverse) else none), s)
  | fuel + 1, whole, acc, '\\' :: s =>
    match escape s with
    | .ok (some c, s) => string fuel whole (c :: acc) s
    | .ok (none, s) => string fuel false acc s
    | .error f => stop whole f
  | fuel + 1, whole, acc, c :: s =>
    if c.toNat < 0x20 then stop whole .malformed else string fuel whole (c :: acc) s
where
  stop (whole : Bool) (f : Fault) : Token × List Char :=
    (.brokenStr ⟨if whole then f else .malformed, f⟩, [])

def next (c : Char) (s : List Char) : Token × List Char :=
  match c with
  | '[' => (.openArr, s)
  | ']' => (.closeArr, s)
  | '{' => (.openObj, s)
  | '}' => (.closeObj, s)
  | ',' => (.comma, s)
  | ':' => (.colon, s)
  | 'n' => word .null ['u', 'l', 'l'] s
  | 't' => word (.bool true) ['r', 'u', 'e'] s
  | 'f' => word (.bool false) ['a', 'l', 's', 'e'] s
  | '-' => number true s
  | '"' => string (s.length + 1) true [] s
  | c => if c.isDigit then number false (c :: s) else (.broken (.both .malformed), [])

def scan : Nat → List Char → List Token
  | 0, _ => []
  | _ + 1, [] => []
  | fuel + 1, c :: s =>
    if isBlank c then scan fuel s
    else
      let (token, rest) := next c s
      token :: scan fuel rest

-- Each lexeme takes a character or more, so the text's length is enough fuel.
def ofText (text : String) : List Token := scan text.toList.length text.toList

end Token

end Switchboard.Json
