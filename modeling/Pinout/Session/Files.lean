import Pinout.Gzip.Member

/-! # Text files

Definitions, constraints and profiles are read from text files. One whose name ends in `.gz`, in any
case, is decompressed; every text must be UTF-8.
-/

namespace Pinout.Session

inductive OpenFailure where
  | notFound
  | notDirectory
  | nameTooLong
  | zeroInName
deriving Repr, DecidableEq

inductive ReadFailure where
  | isDirectory
  | compressed (error : Gzip.GzipError)
  | invalidText
deriving Repr, DecidableEq

inductive LoadError where
  | cannotOpen (path : String) (failure : OpenFailure)
  | cannotRead (path : String) (failure : ReadFailure)
deriving Repr, DecidableEq

def OpenFailure.message : OpenFailure → String
  | notFound => "No such file or directory (os error 2)"
  | notDirectory => "Not a directory (os error 20)"
  | nameTooLong => "File name too long (os error 36)"
  | zeroInName => "file name contained an unexpected NUL byte"

def ReadFailure.message : ReadFailure → String
  | isDirectory => "Is a directory (os error 21)"
  | compressed error => error.message
  | invalidText => "stream did not contain valid UTF-8"

def LoadError.message : LoadError → String
  | cannotOpen path failure => "Can't open file " ++ path ++ ": " ++ failure.message
  | cannotRead path failure => "Can't read file " ++ path ++ ": " ++ failure.message

/-- What opening a path gives: bytes, or nothing that could be read for a directory. -/
structure Files where
  open? : String → Except OpenFailure (Option ByteArray)

def pathParts : List Char → List (List Char)
  | [] => [[]]
  | c :: cs => if c = '/' then [] :: pathParts cs else (pathParts cs).modifyHead (c :: ·)

def isTrivialPart (part : List Char) : Bool :=
  part = [] || part = ['.']

def fileName? (path : String) : Option (List Char) :=
  match (pathParts path.toList).reverse.dropWhile isTrivialPart with
  | [] => none
  | name :: _ => if name = ['.', '.'] then none else some name

/-- What follows the last dot of a name that has something in front of it. -/
def extension? (name : List Char) : Option (List Char) :=
  match name.reverse.dropWhile (· != '.') with
  | '.' :: _ :: _ => some (name.reverse.takeWhile (· != '.')).reverse
  | _ => none

def isCompressed (path : String) : Bool :=
  ((fileName? path).bind extension?).any fun ending => ending.map Char.toLower = ['g', 'z']

def decodeText (bytes : ByteArray) : Except ReadFailure String :=
  match String.fromUTF8? bytes with
  | some text => .ok text
  | none => .error .invalidText

def textOf (path : String) (content : ByteArray) : Except ReadFailure String :=
  if isCompressed path then
    match Gzip.decompress content.toList with
    | .ok bytes => decodeText ⟨bytes⟩
    | .error error => .error (.compressed error)
  else
    decodeText content

def Files.readText (files : Files) (path : String) : Except LoadError String :=
  match files.open? path with
  | .error failure => .error (.cannotOpen path failure)
  | .ok none => .error (.cannotRead path .isDirectory)
  | .ok (some content) =>
    match textOf path content with
    | .ok text => .ok text
    | .error failure => .error (.cannotRead path failure)

end Pinout.Session
