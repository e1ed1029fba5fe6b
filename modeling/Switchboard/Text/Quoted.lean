import Switchboard.Text.Printable

namespace Switchboard.Text

def hex (n : Nat) : List Char := Nat.toDigits 16 n

/-- The quote, the backslash and four control characters have short escapes; every other character
    that is not printable is written by its code point. -/
def escaped (c : Char) : List Char :=
  match c with
  | '"' => ['\\', '"']
  | '\\' => ['\\', '\\']
  | '\n' => ['\\', 'n']
  | '\t' => ['\\', 't']
  | '\r' => ['\\', 'r']
  | '\x00' => ['\\', '0']
  | c => if isPrintable c then [c] else ['\\', 'u', '\x7b'] ++ hex c.toNat ++ ['\x7d']

def quoted (s : String) : String :=
  String.ofList ('"' :: s.toList.flatMap escaped ++ ['"'])

end Switchboard.Text
