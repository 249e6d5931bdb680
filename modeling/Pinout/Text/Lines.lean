import Pinout.Text.Blank

/-! # Lines

A line ends at a carriage return, at a line feed, or at the two together, which count once. A
terminator at the very end of a text does not begin another line, and a text without characters has
no line at all.
-/

namespace Pinout.Text

def isBreak (c : Char) : Bool :=
  c == '\r' || c == '\n'

theorem isBreak_iff {c : Char} : isBreak c = true ↔ c = '\r' ∨ c = '\n' := by
  simp [isBreak]

theorem isBlank_of_isBreak {c : Char} (h : isBreak c = true) : isBlank c = true := by
  rcases isBreak_iff.1 h with rfl | rfl <;> decide

/-- The texts between the terminators, one more than there are terminators. -/
def segments : List Char → List (List Char)
  | [] => [[]]
  | '\r' :: '\n' :: cs => [] :: segments cs
  | c :: cs => if isBreak c then [] :: segments cs else (segments cs).modifyHead (c :: ·)

def lines (cs : List Char) : List (List Char) :=
  if cs.isEmpty then
    []
  else
    let parts := segments cs
    if 1 < parts.length ∧ parts.getLast? = some [] then parts.dropLast else parts

def trimLines (cs : List Char) : List Char :=
  ['\n'].intercalate ((segments cs).map trim)

def linesOf (s : String) : List String :=
  (lines s.toList).map .ofList

theorem segments_ne_nil (cs : List Char) : segments cs ≠ [] := by
  fun_induction segments cs with
  | case1 => simp
  | case2 => simp
  | case3 => simp
  | case4 c cs _ _ ih => cases h : segments cs with
    | nil => exact absurd h ih
    | cons => simp

end Pinout.Text
