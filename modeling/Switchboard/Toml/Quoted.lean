namespace Switchboard.Toml.Quoted

/-- Tabs are the only control characters that strings and comments may hold. -/
def isPlain (c : Char) : Bool := c == '\t' || (0x20 ≤ c.toNat && c.toNat ≠ 0x7f)

def isBlank (c : Char) : Bool := c == ' ' || c == '\t'

def newline? : List Char → Option (List Char)
  | '\n' :: s => some s
  | '\r' :: '\n' :: s => some s
  | _ => none

def hexDigit? (c : Char) : Option Nat :=
  if '0' ≤ c ∧ c ≤ '9' then some (c.toNat - '0'.toNat)
  else if 'a' ≤ c ∧ c ≤ 'f' then some (c.toNat - 'a'.toNat + 10)
  else if 'A' ≤ c ∧ c ≤ 'F' then some (c.toNat - 'A'.toNat + 10)
  else none

def codePoint? : Nat → Nat → List Char → Option (Char × List Char)
  | 0, n, s => if n.isValidChar then some (Char.ofNat n, s) else none
  | count + 1, n, c :: s => do codePoint? count (n * 16 + (← hexDigit? c)) s
  | _ + 1, _, [] => none

def escape? : List Char → Option (Char × List Char)
  | 'b' :: s => some ('\x08', s)
  | 't' :: s => some ('\t', s)
  | 'n' :: s => some ('\n', s)
  | 'f' :: s => some ('\x0c', s)
  | 'r' :: s => some ('\r', s)
  | 'e' :: s => some ('\x1b', s)
  | '"' :: s => some ('"', s)
  | '\\' :: s => some ('\\', s)
  | 'x' :: s => codePoint? 2 0 s
  | 'u' :: s => codePoint? 4 0 s
  | 'U' :: s => codePoint? 8 0 s
  | _ => none

def basic? : Nat → List Char → List Char → Option (String × List Char)
  | 0, _, _ => none
  | _ + 1, _, [] => none
  | _ + 1, acc, '"' :: s => some (String.ofList acc.reverse, s)
  | fuel + 1, acc, '\\' :: s => do
    let (c, s) ← escape? s
    basic? fuel (c :: acc) s
  | fuel + 1, acc, c :: s => if isPlain c then basic? fuel (c :: acc) s else none

def literal? (acc : List Char) : List Char → Option (String × List Char)
  | [] => none
  | '\'' :: s => some (String.ofList acc.reverse, s)
  | c :: s => if isPlain c then literal? (c :: acc) s else none

/-- Two quotes more may stand before the three that end a string. -/
def closing (quote : Char) (acc s : List Char) : String × List Char :=
  let extra := (s.take 2).takeWhile (· == quote)
  (String.ofList (acc.reverse ++ extra), s.drop extra.length)

def skipLines : List Char → List Char
  | '\n' :: s => skipLines s
  | '\r' :: '\n' :: s => skipLines s
  | ' ' :: s | '\t' :: s => skipLines s
  | s => s

/-- A basic string of several lines. A backslash at the end of a line takes the blanks and line ends
    behind it away. -/
def basicLines? : Nat → List Char → List Char → Option (String × List Char)
  | 0, _, _ => none
  | _ + 1, _, [] => none
  | _ + 1, acc, '"' :: '"' :: '"' :: s => some (closing '"' acc s)
  | fuel + 1, acc, '\r' :: '\n' :: s => basicLines? fuel ('\n' :: '\r' :: acc) s
  | fuel + 1, acc, '\n' :: s => basicLines? fuel ('\n' :: acc) s
  | fuel + 1, acc, '\\' :: s =>
    match newline? (s.dropWhile isBlank) with
    | some s => basicLines? fuel acc (skipLines s)
    | none => do
      let (c, s) ← escape? s
      basicLines? fuel (c :: acc) s
  | fuel + 1, acc, c :: s => if isPlain c then basicLines? fuel (c :: acc) s else none

def literalLines? : Nat → List Char → List Char → Option (String × List Char)
  | 0, _, _ => none
  | _ + 1, _, [] => none
  | _ + 1, acc, '\'' :: '\'' :: '\'' :: s => some (closing '\'' acc s)
  | fuel + 1, acc, '\r' :: '\n' :: s => literalLines? fuel ('\n' :: '\r' :: acc) s
  | fuel + 1, acc, '\n' :: s => literalLines? fuel ('\n' :: acc) s
  | fuel + 1, acc, c :: s => if isPlain c then literalLines? fuel (c :: acc) s else none

/-- A line end at the very start of a string of several lines does not count. -/
def dropFirstNewline (s : List Char) : List Char := (newline? s).getD s

def value? (s : List Char) : Option (String × List Char) :=
  let fuel := s.length + 1
  match s with
  | '"' :: '"' :: '"' :: s => basicLines? fuel [] (dropFirstNewline s)
  | '\'' :: '\'' :: '\'' :: s => literalLines? fuel [] (dropFirstNewline s)
  | '"' :: s => basic? fuel [] s
  | '\'' :: s => literal? [] s
  | _ => none

def line? (s : List Char) : Option (String × List Char) :=
  match s with
  | '"' :: s => basic? (s.length + 1) [] s
  | '\'' :: s => literal? [] s
  | _ => none

end Switchboard.Toml.Quoted
