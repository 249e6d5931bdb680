import Pinout.Yaml.Folding
import Pinout.Yaml.Number
import Pinout.Yaml.Source

/-! # Scalars in quotation marks

In single quotation marks, a mark inside is written twice, and all else stands for itself. In double
quotation marks, a backslash begins an escape. No quotation goes on over the end of a document.
-/

namespace Pinout.Yaml

def prepend (piece : Piece) (result : Option (List Piece × Source)) :
    Option (List Piece × Source) :=
  result.map fun (pieces, rest) => (piece :: pieces, rest)

def isSingleMark (c : Char) : Bool :=
  c.toNat == 0x27

/-- A scalar behind its opening single mark, and what is left behind the closing one. -/
def singleQuoted? : Source → Option (List Piece × Source)
  | [] => none
  | x :: rest =>
    if isBoundary (x :: rest) then
      none
    else if isSingleMark x.char then
      match rest with
      | [] => some ([], [])
      | y :: behind =>
        if isSingleMark y.char then prepend (.text y.char) (singleQuoted? behind)
        else some ([], y :: behind)
    else
      prepend (.ofChar x.char) (singleQuoted? rest)

def escaped? (c : Char) : Option Char :=
  match c with
  | '0' => some '\x00'
  | 'a' => some '\x07'
  | 'b' => some '\x08'
  | 't' => some '\t'
  | '\t' => some '\t'
  | 'n' => some '\n'
  | 'v' => some '\x0b'
  | 'f' => some '\x0c'
  | 'r' => some '\r'
  | 'e' => some '\x1b'
  | ' ' => some ' '
  | '"' => some '"'
  | '/' => some '/'
  | '\\' => some '\\'
  | 'N' => some '\u0085'
  | '_' => some '\u00a0'
  | 'L' => some '\u2028'
  | 'P' => some '\u2029'
  | _ => none

/-- How many hexadecimal digits follow a letter behind a backslash. -/
def codeLength? (c : Char) : Option Nat :=
  match c with
  | 'x' => some 2
  | 'u' => some 4
  | 'U' => some 8
  | _ => none

inductive EscapeState where
  | outside
  | begun
  /-- Some digits are still to come. -/
  | code (digits value : Nat)
deriving Repr, DecidableEq

def doubleQuoted? : EscapeState → Source → Option (List Piece × Source)
  | _, [] => none
  | .outside, x :: rest =>
    if isBoundary (x :: rest) then none
    else if x.char = '"' then some ([], rest)
    else if x.char = '\\' then doubleQuoted? .begun rest
    else prepend (.ofChar x.char) (doubleQuoted? .outside rest)
  | .begun, x :: rest =>
    if isBreak x.char then
      prepend .escapedLineEnd (doubleQuoted? .outside rest)
    else
      match escaped? x.char, codeLength? x.char with
      | some c, _ => prepend (.text c) (doubleQuoted? .outside rest)
      | none, some digits => doubleQuoted? (.code digits 0) rest
      | none, none => none
  | .code digits value, x :: rest =>
    match digit? 16 x.char with
    | none => none
    | some digit =>
      let value := 16 * value + digit
      if 1 < digits then doubleQuoted? (.code (digits - 1) value) rest
      else if value.isValidChar then
        prepend (.text (Char.ofNat value)) (doubleQuoted? .outside rest)
      else none

end Pinout.Yaml
