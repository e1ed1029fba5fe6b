namespace Switchboard.Width

def isInt32 (n : Int) : Bool := -2147483648 ≤ n && n ≤ 2147483647

def isInt64 (n : Int) : Bool := -9223372036854775808 ≤ n && n ≤ 9223372036854775807

def isNat64 (n : Nat) : Bool := n ≤ 18446744073709551615

/-- A word of 64 bits, signed or unsigned. -/
def fits64 (n : Int) : Bool := -9223372036854775808 ≤ n && n ≤ 18446744073709551615

def isInt128 (n : Int) : Bool :=
  -170141183460469231731687303715884105728 ≤ n && n ≤ 170141183460469231731687303715884105727

def fits128 (n : Int) : Bool :=
  -170141183460469231731687303715884105728 ≤ n && n ≤ 340282366920938463463374607431768211455

end Switchboard.Width
