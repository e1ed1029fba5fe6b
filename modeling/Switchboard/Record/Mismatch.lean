import Switchboard.Decimal.Shortest
import Switchboard.Text.Quoted
import Switchboard.Width

namespace Switchboard.Record

inductive Found
  | null
  | bool (value : Bool)
  | int (value : Int)
  | float (value : Binary64)
  | str (value : String)
  | sequence
  | map

inductive Expected
  | string
  | code
  | record (name : String)

inductive Mismatch
  | type (found : Found) (expected : Expected)
  | range (found : Found) (expected : Expected)
  | missing (field : String)
  | duplicate (field : String)
  -- A list of `count` items ends before all required fields are given.
  | tooShort (count : Nat) (name : String) (size : Nat)
  | tooLong (count : Nat)
  | noVariant (name : String)
  | intOverflow
  | floatOverflow

/-- What an integer is called behind its digits: nothing when it fits 64 bits. -/
def widthNote (n : Int) : String :=
  if Width.fits64 n then ""
  else if Width.isInt128 n then " as i128"
  else " as u128"

def Found.text (layout : FloatLayout) : Found → String
  | .null => "null"
  | .bool true => "boolean `true`"
  | .bool false => "boolean `false`"
  | .int n => "integer `" ++ toString n ++ "`" ++ widthNote n
  | .float x => "floating point `" ++ layout.text x ++ "`"
  | .str s => "string " ++ Text.quoted s
  | .sequence => "sequence"
  | .map => "map"

def Expected.text : Expected → String
  | .string => "a string"
  | .code => "i32"
  | .record name => "struct " ++ name

def Mismatch.message (layout : FloatLayout) : Mismatch → String
  | .type found expected =>
    "invalid type: " ++ found.text layout ++ ", expected " ++ expected.text
  | .range found expected =>
    "invalid value: " ++ found.text layout ++ ", expected " ++ expected.text
  | .missing field => "missing field `" ++ field ++ "`"
  | .duplicate field => "duplicate field `" ++ field ++ "`"
  | .tooShort count name size =>
    "invalid length " ++ toString count ++ ", expected struct " ++ name ++ " with "
      ++ toString size ++ (if size = 1 then " element" else " elements")
  | .tooLong count =>
    "invalid length " ++ toString count ++ ", expected fewer elements in array"
  | .noVariant name => "data did not match any variant of untagged enum " ++ name
  | .intOverflow => "integer number overflowed"
  | .floatOverflow => "floating-point number overflowed"

end Switchboard.Record
