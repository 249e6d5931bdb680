import Pinout.Yaml.Folding
import Pinout.Yaml.Source

/-! # Plain scalars

A plain scalar ends in front of a comment, of a colon that ends a word, of a line that is not
indented enough, and in flow collections in front of an indicator.
-/

namespace Pinout.Yaml

def endsPlain (flowing : Bool) : Source → Bool
  | [] => true
  | x :: rest => (x.char == ':' && endsWord rest) || (flowing && isFlowIndicator x.char)

/-- Whether a colon in a flow collection touches an indicator, which is an error. -/
def isMisplacedColon (flowing : Bool) : Source → Bool
  | x :: y :: _ => flowing && x.char == ':' && (isFlowIndicator y.char || y.char == '?')
  | _ => false

/-- What stands in front of a character of a plain scalar. -/
inductive PlainState where
  | inWord
  | behindBlank
  | behindLineEnd
deriving Repr, DecidableEq

/-- The pieces of a plain scalar, and what is left behind it and the blanks and line ends that
follow it. Its lines after the first are indented by some columns at least. -/
def plainPieces? (flowing : Bool) (indent : Nat) :
    PlainState → Source → Option (List Piece × Source)
  | _, [] => some ([], [])
  | state, x :: rest =>
    let keep (state : PlainState) : Option (List Piece × Source) :=
      (plainPieces? flowing indent state rest).map fun (pieces, rest) =>
        (.ofChar x.char :: pieces, rest)
    let startsWord := state != .inWord
    if isBreak x.char then
      keep .behindLineEnd
    else if isBlank x.char then
      match state with
      | .behindLineEnd => if x.char == '\t' && x.column < indent then none else keep .behindLineEnd
      | _ => keep .behindBlank
    else if startsWord && ((!flowing && x.column < indent) || isBoundary (x :: rest) ||
        x.char == '#') then
      some ([], x :: rest)
    else if isMisplacedColon flowing (x :: rest) then
      none
    else if endsPlain flowing (x :: rest) then
      some ([], x :: rest)
    else
      keep .inWord

structure PlainText where
  text : List Char
  /-- Whether a line end follows it. -/
  endsLine : Bool
deriving Repr, DecidableEq

def plain? (flowing : Bool) (indent : Nat) (source : Source) : Option (PlainText × Source) :=
  (plainPieces? flowing indent .inWord source).map fun (pieces, rest) =>
    let behind := pieces.reverse.takeWhile (!·.isText)
    let inner := (pieces.reverse.dropWhile (!·.isText)).reverse
    (⟨folded inner, behind.any (·.isLineEnd)⟩, rest)

end Pinout.Yaml
