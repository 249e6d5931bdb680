import Pinout.Text.Utf8

/-! # Lexemes of the definition language

A lexeme is a piece of a source text together with the place where it stands, counted in bytes.
-/

namespace Pinout.Definition

inductive Kind where
  | endOfInput
  | blanks
  | comment
  | lineBreak
  | identifier
  | number
  | headerWord
  | configWord
  | comma
  | colon
  | equals
  | quoted
  | block
  | openBrace
  | closeBrace
  | openBracket
  | closeBracket
deriving Repr, DecidableEq

namespace Kind

def label : Kind → String
  | endOfInput => "Eof"
  | blanks => "Whitespace"
  | comment => "Comment"
  | lineBreak => "Eol"
  | identifier => "Identifier"
  | number => "Number"
  | headerWord => "Header"
  | configWord => "Config"
  | comma => "Comma"
  | colon => "Colon"
  | equals => "Equal"
  | quoted => "String"
  | block => "MultilineString"
  | openBrace => "LCurly"
  | closeBrace => "RCurly"
  | openBracket => "LBracket"
  | closeBracket => "RBracket"

def isName : Kind → Bool
  | identifier | number | quoted => true
  | _ => false

def isLayout : Kind → Bool
  | blanks | comment => true
  | _ => false

end Kind

structure Lexeme where
  kind : Kind
  offset : Nat
  text : List Char
deriving Repr, DecidableEq

namespace Lexeme

/-- What stands at the end of the text, or where no lexeme is recognized. -/
def endAt (offset : Nat) : Lexeme :=
  ⟨.endOfInput, offset, []⟩

def isEnd (lexeme : Lexeme) : Bool :=
  lexeme.kind = .endOfInput

def length (lexeme : Lexeme) : Nat :=
  Text.byteLength lexeme.text

def stop (lexeme : Lexeme) : Nat :=
  lexeme.offset + lexeme.length

/-- The name a lexeme spells: its text, without the quotation marks of a quoted one. -/
def name (lexeme : Lexeme) : String :=
  .ofList (if lexeme.kind = .quoted then lexeme.text.tail.dropLast else lexeme.text)

def describe (lexeme : Lexeme) : String :=
  lexeme.kind.label ++ "[" ++ toString lexeme.offset ++ "," ++ toString lexeme.stop ++ ") ~" ++
    String.ofList lexeme.text ++ "~"

end Lexeme

end Pinout.Definition
