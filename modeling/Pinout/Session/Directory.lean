import Pinout.Session.Files

/-! # A directory of files

A session works in one directory, which has files and no other directories. Paths are taken from
there. They may lead to directories above, of which there are as many as a path asks for, and to the
root, which is above all of them; nothing is found there but what a run has written.
-/

namespace Pinout.Session

/-- The files of a directory by name, and those of directories above by the shortest paths to them,
such as `../x`. -/
structure Directory where
  entries : List (String × ByteArray) := []

/-- What a path means in a directory. The file need not be there. -/
inductive Target where
  | directory
  | file (name : String)
deriving Repr, DecidableEq

namespace Directory

def find? (directory : Directory) (name : String) : Option ByteArray :=
  (directory.entries.find? (·.1 = name)).map (·.2)

def maxNameSize : Nat := 255

def maxPathSize : Nat := 4095

def root : String := "/"

/-- What stands before the names one directory further up. The root has none above it. -/
def above (base : String) : String :=
  if base = root then root else base ++ "../"

/-- Where the parts of a path lead, from the directory before whose names there is `base`. Only the
last part may be a file. -/
def follow (directory : Directory) (base : String) :
    List (List Char) → Except OpenFailure Target
  | [] => .ok .directory
  | part :: parts =>
    let name := String.ofList part
    if isTrivialPart part then directory.follow base parts
    else if part = ['.', '.'] then directory.follow (above base) parts
    else if maxNameSize < name.utf8ByteSize then .error .nameTooLong
    else if parts.isEmpty then .ok (.file (base ++ name))
    else if (directory.find? (base ++ name)).isSome then .error .notDirectory
    else .error .notFound

/-- Where a path leads. One that begins with a slash is taken from the root. -/
def locate (directory : Directory) (path : String) : Except OpenFailure Target :=
  let cs := path.toList
  if cs.contains '\x00' then .error .zeroInName
  else if maxPathSize < path.utf8ByteSize then .error .nameTooLong
  else if cs.isEmpty then .error .notFound
  else directory.follow (if cs.head? = some '/' then root else "") (pathParts cs)

def open? (directory : Directory) (path : String) : Except OpenFailure (Option ByteArray) :=
  match directory.locate path with
  | .error failure => .error failure
  | .ok .directory => .ok none
  | .ok (.file name) =>
    match directory.find? name with
    | some content => .ok (some content)
    | none => .error .notFound

def files (directory : Directory) : Files :=
  ⟨directory.open?⟩

/-- Puts a file in place of the one of that name, if there is one. -/
def write (directory : Directory) (name : String) (content : ByteArray) : Directory :=
  ⟨directory.entries.filter (·.1 ≠ name) ++ [(name, content)]⟩

def writePath? (directory : Directory) (path : String) (content : ByteArray) : Option Directory :=
  match directory.locate path with
  | .ok (.file name) => some (directory.write name content)
  | _ => none

end Directory

end Pinout.Session
