import Pinout.Yaml.Character
import Pinout.Yaml.Number

/-! # Writing texts

How a text is written as a YAML scalar: plain where that reads back as the same text, in single
quotation marks otherwise. A text of several lines is written as a literal block. What none of these
can hold, a character without a glyph or a blank at the end of a line, takes double quotation marks
and escapes.
-/

namespace Pinout.Yaml

def hasPair (p q : Char → Bool) : List Char → Bool
  | c :: d :: cs => (p c && q d) || hasPair p q (d :: cs)
  | _ => false

def hasSpaceBreak (cs : List Char) : Bool :=
  hasPair (· == ' ') isBreak cs

def hasBreakSpace (cs : List Char) : Bool :=
  hasPair isBreak (· == ' ') cs

def separates : List Char → Bool
  | [] => true
  | c :: _ => isSeparator c

/-- Whether a colon ends a word, or a number sign begins one, behind the first character. -/
def hasInnerIndicator : List Char → Bool
  | c :: d :: cs =>
    (d == ':' && separates cs) || (d == '#' && isSeparator c) || hasInnerIndicator (d :: cs)
  | _ => false

/-- Whether a plain scalar of this text would be read as something else. -/
def hasIndicator : List Char → Bool
  | [] => false
  | c :: cs =>
    ['-', '-', '-'].isPrefixOf (c :: cs) || ['.', '.', '.'].isPrefixOf (c :: cs) ||
      isIndicator c || ((c == '?' || c == ':' || c == '-') && separates cs) ||
      hasInnerIndicator (c :: cs)

inductive Style where
  | plain
  | single
  | double
  | literal
deriving Repr, DecidableEq

def allowsPlain (cs : List Char) : Bool :=
  cs.all isPrintable && !cs.any isBreak && cs.head? != some ' ' && cs.getLast? != some ' ' &&
    !hasIndicator cs

def allowsSingle (cs : List Char) : Bool :=
  cs.all isPrintable && !hasSpaceBreak cs && !hasBreakSpace cs

def allowsLiteral (cs : List Char) : Bool :=
  cs.all isPrintable && !hasSpaceBreak cs && cs.getLast? != some ' '

def styleOf (cs : List Char) : Style :=
  if cs.contains '\n' then
    if allowsLiteral cs then .literal else .double
  else if !(isOtherValue cs || isPaddedDigits cs) && allowsPlain cs then
    .plain
  else if allowsSingle cs then
    .single
  else
    .double

def hexDigits (width n : Nat) : List Char :=
  let digits := (Nat.toDigits 16 n).map Char.toUpper
  List.replicate (width - digits.length) '0' ++ digits

def escape (c : Char) : List Char :=
  match c.toNat with
  | 0x00 => ['\\', '0']
  | 0x07 => ['\\', 'a']
  | 0x08 => ['\\', 'b']
  | 0x09 => ['\\', 't']
  | 0x0A => ['\\', 'n']
  | 0x0B => ['\\', 'v']
  | 0x0C => ['\\', 'f']
  | 0x0D => ['\\', 'r']
  | 0x1B => ['\\', 'e']
  | 0x22 => ['\\', '"']
  | 0x5C => ['\\', '\\']
  | 0x85 => ['\\', 'N']
  | 0x2028 => ['\\', 'L']
  | 0x2029 => ['\\', 'P']
  | code =>
    if isPrintable c then [c]
    else if code ≤ 0xFF then '\\' :: 'x' :: hexDigits 2 code
    else if code ≤ 0xFFFF then '\\' :: 'u' :: hexDigits 4 code
    else '\\' :: 'U' :: hexDigits 8 code

/-- A text whose lines begin at an indentation, from a place that is at the beginning of a line or
not. -/
def indentLines (indent : Nat) (atStart : Bool) : List Char → List Char
  | [] => []
  | c :: cs =>
    if isBreak c then c :: indentLines indent true cs
    else
      (if atStart then List.replicate indent ' ' else []) ++ c :: indentLines indent false cs

def endsInBreak (cs : List Char) : Bool :=
  cs.getLast?.any isBreak

/-- The text of a scalar in single quotation marks. A mark inside is written twice. -/
def writeSingle (indent : Nat) (cs : List Char) : List Char :=
  let doubled := cs.flatMap fun c => if c.toNat = 0x27 then [c, c] else [c]
  let close := if endsInBreak cs then List.replicate indent ' ' else []
  Char.ofNat 0x27 :: indentLines indent false doubled ++ close ++ [Char.ofNat 0x27]

/-- What stands behind the bar of a literal block: the indentation, where the text would hide it,
and what happens to the line ends at its end. -/
def literalHints (cs : List Char) : List Char :=
  let indentation := if cs.head?.any fun c => c == ' ' || isBreak c then ['2'] else []
  let chomping :=
    if !endsInBreak cs then ['-']
    else if cs.dropLast.isEmpty || endsInBreak cs.dropLast then ['+']
    else []
  indentation ++ chomping

/-- A text as a scalar, with the line end behind it. Further lines begin at the indentation. -/
def writeText (indent : Nat) (s : String) : List Char :=
  let cs := s.toList
  match styleOf cs with
  | .plain => cs ++ ['\n']
  | .single => writeSingle indent cs ++ ['\n']
  | .double => '"' :: cs.flatMap escape ++ ['"', '\n']
  | .literal =>
    '|' :: literalHints cs ++ ['\n'] ++ indentLines indent true cs ++
      if endsInBreak cs then [] else ['\n']

end Pinout.Yaml
