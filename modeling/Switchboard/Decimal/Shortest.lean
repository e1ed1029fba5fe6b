import Switchboard.Decimal.Binary64

namespace Switchboard

structure Decimal where
  coefficient : Nat
  exponent : Int
  deriving DecidableEq

namespace Decimal

/-- Which of two equally near neighbours is taken. -/
inductive Tie
  | toEven
  | away
  deriving DecidableEq

def trim (d : Decimal) : Decimal :=
  if d.coefficient = 0 then d
  else if d.coefficient % 10 = 0 then trim ⟨d.coefficient / 10, d.exponent + 1⟩
  else d
termination_by d.coefficient
decreasing_by omega

def digitCount (n : Nat) : Nat := (Nat.toDigits 10 n).length

/-- The `e` with `10 ^ e ≤ num / den < 10 ^ (e + 1)`. -/
def magnitude (num den : Nat) : Int :=
  if den ≤ num then (digitCount (num / den) : Int) - 1
  else -(digitCount ((den - 1) / num) : Int)

/-- The reals that round to a positive float, over one denominator. -/
structure Interval where
  low : Nat
  value : Nat
  high : Nat
  den : Nat
  closed : Bool

def Interval.ofFloat (x : Binary64) : Interval :=
  let m := 4 * x.significand
  let q := x.exponent - 2
  let scale := Nat.pow 2 q.toNat
  { low := (m - if x.hasShortGapBelow then 1 else 2) * scale
    value := m * scale
    high := (m + 2) * scale
    den := Nat.pow 2 (-q).toNat
    closed := x.significand % 2 = 0 }

/-- The point of the grid `10 ^ k` inside the interval that is nearest to its value, if any is. -/
def Interval.gridPoint? (i : Interval) (tie : Tie) (k : Int) : Option Nat :=
  let s := Nat.pow 10 (-k).toNat
  let d := i.den * Nat.pow 10 k.toNat
  let inside (c : Nat) : Bool :=
    if i.closed then i.low * s ≤ c * d && c * d ≤ i.high * s
    else i.low * s < c * d && c * d < i.high * s
  let c := i.value * s / d
  let twice := 2 * (i.value * s - c * d)
  match inside c, inside (c + 1) with
  | false, false => none
  | true, false => some c
  | false, true => some (c + 1)
  | true, true =>
    if twice < d then some c
    else if d < twice then some (c + 1)
    else match tie with
      | .away => some (c + 1)
      | .toEven => some (if c % 2 = 0 then c else c + 1)

/-- The fewest digits that read back, of those the nearest. Seventeen digits always suffice. -/
def shortest (tie : Tie) (x : Binary64) : Decimal :=
  let i := Interval.ofFloat x
  let top := magnitude i.value i.den
  let found := (List.range 17).findSome? fun (n : Nat) =>
    let k := top - n
    (i.gridPoint? tie k).map (Decimal.mk · k)
  (found.getD ⟨i.value / i.den, 0⟩).trim

end Decimal

structure FloatLayout where
  tie : Decimal.Tie
  -- Whether a number with this many digits before its point is written without an exponent.
  positional : Int → Bool

namespace FloatLayout

def json : FloatLayout := ⟨.toEven, fun point => -5 < point && point ≤ 16⟩

def positionalOnly : FloatLayout := ⟨.away, fun _ => true⟩

def placePoint (digits : List Char) (point : Int) : List Char :=
  if point ≤ 0 then ['0', '.'] ++ List.replicate (-point).toNat '0' ++ digits
  else
    let n := point.toNat
    let whole := (digits ++ List.replicate (n - digits.length) '0').take n
    match digits.drop n with
    | [] => whole ++ ['.', '0']
    | fraction => whole ++ '.' :: fraction

def withExponent (digits : List Char) (point : Int) : List Char :=
  let e := point - 1
  let mantissa := match digits with
    | [] => []
    | [d] => [d]
    | d :: rest => d :: '.' :: rest
  mantissa ++ 'e' :: (if e < 0 then '-' else '+') :: (toString e.natAbs).toList

def text (layout : FloatLayout) (x : Binary64) : String :=
  if x.isNaN then "NaN"
  else
    let sign := if x.isNegative then "-" else ""
    let magnitude :=
      if x.isInfinite then "inf"
      else if x.isZero then "0.0"
      else
        let d := Decimal.shortest layout.tie x
        let digits := (toString d.coefficient).toList
        let point := d.exponent + digits.length
        String.ofList (if layout.positional point then placePoint digits point
          else withExponent digits point)
    sign ++ magnitude

end FloatLayout

end Switchboard
