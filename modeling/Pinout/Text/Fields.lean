import Pinout.Text.Blank

/-! # Lists and arrows in arguments

The small notations of the command line: items separated by commas or semicolons with blanks
around them, and `a -> b` for a pair.
-/

namespace Pinout.Text

/-- The texts between the occurrences of a separator, one more than there are occurrences. -/
def splitAt (separator : Char) : List Char → List (List Char)
  | [] => [[]]
  | c :: cs =>
    if c = separator then [] :: splitAt separator cs
    else (splitAt separator cs).modifyHead (c :: ·)

/-- The trimmed items between separators, those without characters left out. -/
def items (separator : Char) (cs : List Char) : List (List Char) :=
  ((splitAt separator cs).map trim).filter (!·.isEmpty)

def splitArrow? : List Char → Option (List Char × List Char)
  | [] => none
  | '-' :: '>' :: cs => some ([], cs)
  | c :: cs => (splitArrow? cs).map fun (before, after) => (c :: before, after)

def splitOnce? (separator : Char) : List Char → Option (List Char × List Char)
  | [] => none
  | c :: cs =>
    if c = separator then some ([], cs)
    else (splitOnce? separator cs).map fun (before, after) => (c :: before, after)

/-- Both sides of an arrow, trimmed. A text without an arrow stands for both. -/
def arrow (cs : List Char) : List Char × List Char :=
  match splitArrow? cs with
  | some (source, target) => (trim source, trim target)
  | none => (trim cs, trim cs)

def commaItems (s : String) : List String :=
  (items ',' s.toList).map .ofList

def semicolonItems (s : String) : List String :=
  (items ';' s.toList).map .ofList

def arrowOf (s : String) : String × String :=
  let (source, target) := arrow s.toList
  (.ofList source, .ofList target)

end Pinout.Text
