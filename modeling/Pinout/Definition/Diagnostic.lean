import Pinout.Definition.Excerpt

/-! # Diagnostics

What is wrong with a definition text, and where.
-/

namespace Pinout.Definition

inductive Complaint where
  | unrecognizedInput
  | missingName
  | missingBoardStart
  | missingBoardEnd
  | missingHeaderText
  | missingConfigStart
  | missingConfigEnd
  | missingBusAdditionsEnd
  | missingPinAdditionsEnd
  | missingKey
deriving Repr, DecidableEq

namespace Complaint

def message : Complaint → String
  | unrecognizedInput => "Unrecognized input"
  | missingName => "Expected an identifier or string"
  | missingBoardStart => "A board definition should start with a left curly brace"
  | missingBoardEnd => "A board definition should end with a right curly brace"
  | missingHeaderText => "Expected multi-line string after @header"
  | missingConfigStart => "A configuration block must start with '\x7b'"
  | missingConfigEnd => "A configuration block must end with '\x7d'"
  | missingBusAdditionsEnd => "A right curly brace must close bus additions"
  | missingPinAdditionsEnd => "A right curly brace must close pin additions"
  | missingKey => "An assignment must begin with a valid name type"

end Complaint

structure Diagnostic where
  offset : Nat
  complaint : Complaint
  rendered : String
deriving Repr, DecidableEq

namespace Diagnostic

def ofSource (source : String) (offset : Nat) (complaint : Complaint) : Diagnostic :=
  ⟨offset, complaint, (Excerpt.of source offset).render complaint.message⟩

def message (diagnostic : Diagnostic) : String :=
  diagnostic.complaint.message

end Diagnostic

end Pinout.Definition
