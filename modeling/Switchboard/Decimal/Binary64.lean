namespace Switchboard

/-- A binary64 float by its bits: `0.0` and `-0.0` are two values, and a NaN equals itself. -/
structure Binary64 where
  bits : UInt64
  deriving DecidableEq, Inhabited

namespace Binary64

def ofFloat (x : Float) : Binary64 := ⟨x.toBits⟩

def isNegative (x : Binary64) : Bool := x.bits >>> 63 == 1

def exponentField (x : Binary64) : Nat := ((x.bits >>> 52) &&& 0x7ff).toNat

def fractionField (x : Binary64) : Nat := (x.bits &&& 0xfffffffffffff).toNat

def isNaN (x : Binary64) : Bool := x.exponentField == 0x7ff && x.fractionField != 0

def isInfinite (x : Binary64) : Bool := x.exponentField == 0x7ff && x.fractionField == 0

def isZero (x : Binary64) : Bool := x.exponentField == 0 && x.fractionField == 0

def significand (x : Binary64) : Nat :=
  if x.exponentField = 0 then x.fractionField else x.fractionField + 0x10000000000000

def exponent (x : Binary64) : Int := max x.exponentField 1 - 1075

/-- The gap to the next smaller float is half the gap to the next larger one: the significand is
    the least of its binade, and the binade is not the lowest. -/
def hasShortGapBelow (x : Binary64) : Bool :=
  x.fractionField == 0 && x.exponentField > 1

def tenPow (e : Nat) : Float := Float.ofScientific 1 false e

/-- Division by `10 ^ e` in steps of at most `10 ^ 308`, each rounded. Zero ends it early. -/
def divTenPow (x : Float) (e : Nat) : Float :=
  if e ≤ 308 then x / tenPow e
  else if x == 0 then x
  else divTenPow (x / tenPow 308) (e - 308)
termination_by e

/-- `± significand · 10 ^ exponent` for a significand below `2 ^ 64`, rounded when the significand
    becomes a float and once more by the power of ten. `none` when out of range. -/
def scaled (negative : Bool) (significand : Nat) (exponent : Int) : Option Binary64 :=
  let x := (UInt64.ofNat significand).toFloat
  let signed (y : Float) := ofFloat (if negative then -y else y)
  if exponent < 0 then some (signed (divTenPow x (-exponent).toNat))
  else if exponent ≤ 308 then
    let y := x * tenPow exponent.toNat
    if y.isInf then none else some (signed y)
  else if significand = 0 then some (signed x)
  else none

/-- `± coefficient · 10 ^ exponent` rounded once, to nearest. `none` when out of range. -/
def nearest (negative : Bool) (coefficient : Nat) (exponent : Int) : Option Binary64 :=
  let digits := (toString coefficient).length
  let y : Float :=
    if coefficient = 0 then 0
    else if exponent + digits < -400 then 0
    else if exponent + digits > 400 then Float.ofScientific 1 false 400
    else Float.ofScientific coefficient (exponent < 0) exponent.natAbs
  if y.isInf then none else some (ofFloat (if negative then -y else y))

end Binary64

end Switchboard
