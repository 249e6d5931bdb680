import Pinout.Definition.Grammar

/-! # Reading definitions

A text that goes wrong still yields the boards that were complete before the fault. The fault is
reported at the lexeme that cannot stand where it does, or where lexing ended.
-/

namespace Pinout.Definition

structure Reading where
  boards : List Board
  fault : Option Diagnostic
deriving Repr, DecidableEq

namespace Reading

def isComplete (reading : Reading) : Bool :=
  reading.fault.isNone

def toExcept (reading : Reading) : Except Diagnostic (List Board) :=
  match reading.fault with
  | some fault => .error fault
  | none => .ok reading.boards

end Reading

/-- What is wrong where the lexemes were not all taken or ended too early. -/
def faultAt? (state : State) (left : List Lexeme) (final : Lexer) : Option (Nat × Complaint) :=
  match left, state.place with
  | lexeme :: _, place => some (lexeme.offset, place.missing)
  | [], .betweenBoards => if final.stalled then some (final.offset, .unrecognizedInput) else none
  | [], place => some (final.offset, place.missing)

def read (source : String) : Reading :=
  let (lexemes, final) := (Lexer.ofSource source).lexemes
  let (state, left) := run {} (lexemes.filter (!·.kind.isLayout))
  { boards := state.boards.reverse
    fault := (faultAt? state left final).map fun (offset, complaint) =>
      .ofSource source offset complaint }

end Pinout.Definition
