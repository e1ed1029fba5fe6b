import Switchboard.Assoc

namespace Switchboard

inductive FileTree
  | file (bytes : ByteArray)
  | dir (entries : List (String × FileTree))
  deriving Inhabited

inductive IoError
  | notFound
  | isADirectory
  | notADirectory
  | invalidData
  deriving DecidableEq

namespace IoError

def message : IoError → String
  | .notFound => "No such file or directory (os error 2)"
  | .isADirectory => "Is a directory (os error 21)"
  | .notADirectory => "Not a directory (os error 20)"
  | .invalidData => "stream did not contain valid UTF-8"

end IoError

/-- A place in a tree: the entry there, and the directories above it, the nearest first. -/
structure Location where
  node : FileTree
  above : List FileTree

namespace FileTree

def put (entry : FileTree) : List String → FileTree → FileTree
  | [], _ => entry
  | name :: rest, .dir entries =>
    let child := put entry rest ((entries.lookup name).getD (.dir []))
    .dir (Assoc.put name child entries)
  | name :: rest, .file _ => .dir [(name, put entry rest (.dir []))]

def text : FileTree → Except IoError String
  | .dir _ => .error .isADirectory
  | .file bytes => match String.fromUTF8? bytes with
    | some text => .ok text
    | none => .error .invalidData

end FileTree

def pathParts (path : String) : List String := (path.toList.splitOn '/').map String.ofList

namespace Location

def top (l : Location) : Location :=
  match l.above.getLast? with
  | some root => ⟨root, []⟩
  | none => l

def walk (l : Location) : List String → Except IoError Location
  | [] => .ok l
  | part :: rest =>
    match l.node with
    | .file _ => .error .notADirectory
    | .dir entries =>
      if part = "" ∨ part = "." then walk l rest
      else if part = ".." then
        match l.above with
        | [] => walk l rest
        | parent :: above => walk ⟨parent, above⟩ rest
      else match entries.lookup part with
        | none => .error .notFound
        | some child => walk ⟨child, l.node :: l.above⟩ rest

def start (l : Location) (path : String) : Location := if path.startsWith "/" then l.top else l

/-- Where a path leads from here, part by part: every part but the last has to be a directory. -/
def resolve (l : Location) (path : String) : Except IoError Location :=
  if path = "" then .error .notFound else (l.start path).walk (pathParts path)

def pathExists (l : Location) (path : String) : Bool := (l.resolve path).isOk

def readText (l : Location) (path : String) : Except IoError String := do
  (← l.resolve path).node.text

end Location

/-- A path below another. A slash in front makes a path that replaces it. -/
def joinPath (base part : String) : String :=
  if part.startsWith "/" then part
  else if base = "" ∨ base.endsWith "/" then base ++ part
  else base ++ "/" ++ part

end Switchboard
