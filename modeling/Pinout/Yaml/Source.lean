import Pinout.Yaml.Character

/-! # Characters in their places

Where a character stands decides what it means: indentation is counted in columns, and a key has to
be on one line and short. A source is a text whose characters know their places. All line ends of a
source are line feeds, but for the separators U+2028 and U+2029.
-/

namespace Pinout.Yaml

structure Placed where
  char : Char
  /-- How many bytes stand in front of it. -/
  index : Nat
  line : Nat
  column : Nat
deriving Repr, DecidableEq

abbrev Source :=
  List Placed

/-- The characters of a text, the first of which stands at some place. -/
def placed (index line column : Nat) : List Char → Source
  | [] => []
  | c :: cs =>
    ⟨c, index, line, column⟩ ::
      if isBreak c then placed (index + c.utf8Size) (line + 1) 0 cs
      else placed (index + c.utf8Size) line (column + 1) cs

def withLineFeeds : List Char → List Char
  | [] => []
  | '\r' :: '\n' :: cs => '\n' :: withLineFeeds cs
  | c :: cs => (if c == '\r' || c.toNat == 0x85 then '\n' else c) :: withLineFeeds cs

def source? (text : String) : Option Source :=
  if text.toList.all isReadable then some (placed 0 0 0 (withLineFeeds text.toList)) else none

def startsWith (p : Char → Bool) : Source → Bool
  | [] => false
  | x :: _ => p x.char

def endsWord : Source → Bool
  | [] => true
  | x :: _ => isSeparator x.char

def endsLine : Source → Bool
  | [] => true
  | x :: _ => isBreak x.char

/-- Whether a line begins with a mark that is written three times, as a word of its own. -/
def startsWithMark (mark : Char) : Source → Bool
  | x :: y :: z :: rest =>
    x.column == 0 && x.char == mark && y.char == mark && z.char == mark && endsWord rest
  | _ => false

def isBoundary (source : Source) : Bool :=
  startsWithMark '-' source || startsWithMark '.' source

def charsWhile (p : Char → Bool) (source : Source) : List Char :=
  (source.takeWhile fun x => p x.char).map (·.char)

def skipWhile (p : Char → Bool) (source : Source) : Source :=
  source.dropWhile fun x => p x.char

def after? (c : Char) : Source → Option Source
  | [] => none
  | x :: rest => if x.char = c then some rest else none

/-- The next line, if nothing but blanks and a comment is left of this one. -/
def nextLine? (source : Source) : Option Source :=
  let rest := skipWhile isBlank source
  let rest := if startsWith (· == '#') rest then skipWhile (!isBreak ·) rest else rest
  if endsLine rest then some (rest.drop 1) else none

end Pinout.Yaml
