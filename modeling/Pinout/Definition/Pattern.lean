import Pinout.Definition.Lexeme
import Pinout.Text.Blank
import Pinout.Text.Lines
import Pinout.Unicode.Word

/-! # What each kind of lexeme looks like

`Kind.match? kind cs` is the length of the lexeme of that kind at the beginning of `cs`, if there is
one. Kinds are tried in a fixed order and the first that matches is taken, however long the match:
blanks come before line breaks, which are therefore never found.
-/

namespace Pinout.Definition

open Text

def isIdentifierStart (c : Char) : Bool :=
  c == '-' || c == '_' || c.isAlpha

def isIdentifierRest (c : Char) : Bool :=
  isIdentifierStart c || c.isDigit

def runLength (p : Char → Bool) (cs : List Char) : Nat :=
  (cs.takeWhile p).length

def run? (p : Char → Bool) (cs : List Char) : Option Nat :=
  match runLength p cs with
  | 0 => none
  | n + 1 => some (n + 1)

def word? (word cs : List Char) : Option Nat :=
  if word.isPrefixOf cs then some word.length else none

def indexLength : List Char → Nat
  | '(' :: cs =>
    let digits := runLength Char.isDigit cs
    match digits, cs.drop digits with
    | _ + 1, ')' :: _ => digits + 2
    | _, _ => 0
  | _ => 0

def fractionLength : List Char → Nat
  | '.' :: cs =>
    match runLength Char.isDigit cs with
    | 0 => 0
    | n + 1 => n + 2
  | _ => 0

/-- The length of the unit of nanoseconds where it ends a word, or zero. -/
def unitLength : List Char → Nat
  | 'n' :: 's' :: [] => 2
  | 'n' :: 's' :: c :: _ => if Unicode.isWord c then 0 else 2
  | _ => 0

def identifier? : List Char → Option Nat
  | [] => none
  | c :: cs =>
    if isIdentifierStart c then
      let rest := runLength isIdentifierRest cs
      some (1 + rest + indexLength (cs.drop rest))
    else
      none

def number? (cs : List Char) : Option Nat :=
  (run? Char.isDigit cs).map fun whole =>
    let afterWhole := cs.drop whole
    let fraction := fractionLength afterWhole
    whole + fraction + unitLength (afterWhole.drop fraction)

def comment? : List Char → Option Nat
  | '#' :: cs => some (1 + runLength (!isBreak ·) cs)
  | _ => none

def quoted? : List Char → Option Nat
  | '"' :: cs =>
    let inner := runLength (fun c => !(c == '"' || isBreak c)) cs
    match cs.drop inner with
    | '"' :: _ => some (inner + 2)
    | _ => none
  | _ => none

def blockEnd? : List Char → Option Nat
  | [] => none
  | '>' :: '>' :: _ => some 2
  | _ :: cs => (blockEnd? cs).map (· + 1)

def block? : List Char → Option Nat
  | '<' :: '<' :: cs => (blockEnd? cs).map (· + 2)
  | _ => none

def lineBreak? : List Char → Option Nat
  | c :: _ => if isBreak c then some 1 else none
  | [] => none

def Kind.match? : Kind → List Char → Option Nat
  | .endOfInput, _ => none
  | .blanks, cs => run? isBlank cs
  | .comment, cs => comment? cs
  | .lineBreak, cs => lineBreak? cs
  | .identifier, cs => identifier? cs
  | .number, cs => number? cs
  | .headerWord, cs => word? "@header".toList cs
  | .configWord, cs => word? "@config".toList cs
  | .comma, cs => word? [','] cs
  | .colon, cs => word? [':'] cs
  | .equals, cs => word? ['='] cs
  | .quoted, cs => quoted? cs
  | .block, cs => block? cs
  | .openBrace, cs => word? ['{'] cs
  | .closeBrace, cs => word? ['}'] cs
  | .openBracket, cs => word? ['['] cs
  | .closeBracket, cs => word? [']'] cs

def Kind.order : List Kind :=
  [.blanks, .comment, .lineBreak, .identifier, .number, .headerWord, .configWord, .comma, .colon,
    .equals, .quoted, .block, .openBrace, .closeBrace, .openBracket, .closeBracket]

def firstMatch? (cs : List Char) : Option (Kind × Nat) :=
  Kind.order.findSome? fun kind => (kind.match? cs).map (kind, ·)

end Pinout.Definition
