import Pinout.Text.Blank
import Mathlib.Data.List.Basic

/-! # Texts without their blanks

Texts that differ in their layout only are equal when all blanks are deleted.
-/

namespace Pinout.Text

def unblanked (text : String) : String :=
  .ofList (text.toList.filter (!isBlank ·))

@[simp]
theorem unblanked_append (a b : String) : unblanked (a ++ b) = unblanked a ++ unblanked b := by
  simp only [unblanked, String.toList_append, List.filter_append, String.ofList_append]

theorem filter_dropWhile_isBlank (cs : List Char) :
    (cs.dropWhile isBlank).filter (!isBlank ·) = cs.filter (!isBlank ·) := by
  induction cs with
  | nil => rfl
  | cons c cs ih =>
    rw [List.dropWhile_cons]
    split
    · next blank => rw [ih, List.filter_cons_of_neg (by simp [blank])]
    · rfl

theorem unblanked_trimEnd (cs : List Char) :
    unblanked (.ofList (trimEnd cs)) = unblanked (.ofList cs) := by
  simp only [unblanked, String.toList_ofList, trimEnd, List.filter_reverse,
    filter_dropWhile_isBlank, List.reverse_reverse]

theorem unblanked_intercalate (separator : String) (parts : List String) :
    unblanked (separator.intercalate parts) =
      (unblanked separator).intercalate (parts.map unblanked) := by
  induction parts with
  | nil => rfl
  | cons part parts ih =>
    cases parts with
    | nil => simp
    | cons next parts =>
      rw [String.intercalate_cons_cons, unblanked_append, unblanked_append, ih]
      simp only [List.map_cons, String.intercalate_cons_cons]

end Pinout.Text
