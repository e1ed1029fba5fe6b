import Switchboard.Json.Token

namespace Switchboard.Json

mutual

/-- A text in its own order: repeated keys stay, and a place where it goes wrong is part of it. -/
inductive Doc
  | null
  | bool (value : Bool)
  | num (value : Number)
  | str (value : String)
  | arr (items : Items)
  | obj (entries : Entries)
  -- A value that can be passed over but not read: a number out of range, a string with half a
  -- surrogate pair, an array or object nested too deep.
  | unfit (inner : Doc)
  | broken (why : Break)
  deriving Inhabited

inductive Items
  | close
  -- Neither a comma nor the end of the array.
  | stop (why : Break)
  | cons (item : Doc) (rest : Items)
  deriving Inhabited

inductive Entries
  | close
  -- No key where one is due, or neither a comma nor the end of the object.
  | stop (why : Break)
  -- The key is `none` when it can only be passed over. A missing colon breaks the value.
  | cons (key : Option String) (value : Doc) (rest : Entries)
  deriving Inhabited

end

namespace Doc

mutual

/-- The first problem that one meets who passes over the value. -/
def skim : Doc → Except Fault Unit
  | .null | .bool _ | .num _ | .str _ => .ok ()
  | .arr items => skimItems items
  | .obj entries => skimEntries entries
  | .unfit inner => skim inner
  | .broken b => .error b.skim

def skimItems : Items → Except Fault Unit
  | .close => .ok ()
  | .stop b => .error b.skim
  | .cons item rest => do skim item; skimItems rest

def skimEntries : Entries → Except Fault Unit
  | .close => .ok ()
  | .stop b => .error b.skim
  | .cons _ value rest => do skim value; skimEntries rest

end

mutual

/-- The value with its entries in the order of the document, or the first problem that one meets who
    reads all of it. -/
def read : Doc → Except Fault Json
  | .null => .ok .null
  | .bool b => .ok (.bool b)
  | .num n => .ok (.num n)
  | .str s => .ok (.str s)
  | .arr items => return .arr (← readItems items)
  | .obj entries => return .obj (← readEntries entries)
  | .unfit _ => .error .malformed
  | .broken b => .error b.read

def readItems : Items → Except Fault (List Json)
  | .close => .ok []
  | .stop b => .error b.read
  | .cons item rest => return (← read item) :: (← readItems rest)

def readEntries : Entries → Except Fault (List (String × Json))
  | .close => .ok []
  | .stop b => .error b.read
  | .cons none _ _ => .error .malformed
  | .cons (some key) value rest => return (key, ← read value) :: (← readEntries rest)

end

mutual

def ofJson : Json → Doc
  | .null => .null
  | .bool b => .bool b
  | .num n => .num n
  | .str s => .str s
  | .arr items => .arr (ofItems items)
  | .obj entries => .obj (ofEntries entries)

def ofItems : List Json → Items
  | [] => .close
  | item :: rest => .cons (ofJson item) (ofItems rest)

def ofEntries : List (String × Json) → Entries
  | [] => .close
  | (key, value) :: rest => .cons (some key) (ofJson value) (ofEntries rest)

end

def depthLimit : Nat := 127

def nested (depth : Nat) (doc : Doc) : Doc := if depth ≤ depthLimit then doc else .unfit doc

def atEnd : Break := .both .truncated

def wrong : Break := .both .malformed

mutual

/-- The value at the front, inside `depth` arrays and objects. -/
def value : Nat → Nat → List Token → Doc × List Token
  | 0, _, _ => (.broken wrong, [])
  | _ + 1, _, [] => (.broken atEnd, [])
  | fuel + 1, depth, token :: rest =>
    match token with
    | .null => (.null, rest)
    | .bool b => (.bool b, rest)
    | .num (some n) => (.num n, rest)
    | .str (some s) => (.str s, rest)
    | .num none | .str none => (.unfit .null, rest)
    | .broken b | .brokenStr b => (.broken b, [])
    | .openArr =>
      let (found, rest) := firstItem fuel (depth + 1) rest
      (nested (depth + 1) (.arr found), rest)
    | .openObj =>
      let (found, rest) := firstEntry fuel (depth + 1) rest
      (nested (depth + 1) (.obj found), rest)
    | .closeArr | .closeObj | .comma | .colon => (.broken wrong, [])

def firstItem : Nat → Nat → List Token → Items × List Token
  | 0, _, _ => (.stop wrong, [])
  | _ + 1, _, [] => (.stop atEnd, [])
  | _ + 1, _, .closeArr :: rest => (.close, rest)
  | fuel + 1, depth, rest => item fuel depth rest

def item : Nat → Nat → List Token → Items × List Token
  | 0, _, _ => (.stop wrong, [])
  | fuel + 1, depth, rest =>
    let (doc, rest) := value fuel depth rest
    let (more, rest) := moreItems fuel depth rest
    (.cons doc more, rest)

def moreItems : Nat → Nat → List Token → Items × List Token
  | 0, _, _ => (.stop wrong, [])
  | _ + 1, _, [] => (.stop atEnd, [])
  | _ + 1, _, .closeArr :: rest => (.close, rest)
  | fuel + 1, depth, .comma :: rest => item fuel depth rest
  | _ + 1, _, _ => (.stop wrong, [])

def firstEntry : Nat → Nat → List Token → Entries × List Token
  | 0, _, _ => (.stop wrong, [])
  | _ + 1, _, .closeObj :: rest => (.close, rest)
  | fuel + 1, depth, rest => entry fuel depth rest

def entry : Nat → Nat → List Token → Entries × List Token
  | 0, _, _ => (.stop wrong, [])
  | _ + 1, _, [] => (.stop atEnd, [])
  | fuel + 1, depth, .str key :: rest =>
    let (doc, rest) := match rest with
      | .colon :: rest => value fuel depth rest
      | [] => (.broken atEnd, [])
      | _ => (.broken wrong, [])
    let (more, rest) := moreEntries fuel depth rest
    (.cons key doc more, rest)
  | _ + 1, _, .brokenStr b :: _ => (.stop b, [])
  | _ + 1, _, _ => (.stop wrong, [])

def moreEntries : Nat → Nat → List Token → Entries × List Token
  | 0, _, _ => (.stop wrong, [])
  | _ + 1, _, [] => (.stop atEnd, [])
  | _ + 1, _, .closeObj :: rest => (.close, rest)
  | fuel + 1, depth, .comma :: rest => entry fuel depth rest
  | _ + 1, _, _ => (.stop wrong, [])

end

end Doc

structure Document where
  root : Doc
  hasMore : Bool

def Document.ofText (text : String) : Document :=
  let tokens := Token.ofText text
  -- Three calls at most take a lexeme.
  let (root, rest) := Doc.value (3 * tokens.length + 3) 0 tokens
  ⟨root, !rest.isEmpty⟩

/-- What one makes of a text: the result of taking its value, unless something follows. -/
def Document.take {ε α : Type} (d : Document) (fault : Fault → ε) (f : Doc → Except ε α) :
    Except ε α := do
  let a ← f d.root
  if d.hasMore then throw (fault .malformed)
  return a

def ofText (text : String) : Except Fault Json :=
  (Document.ofText text).take id fun doc => doc.read.map sortKeys

end Switchboard.Json
