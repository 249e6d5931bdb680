import Pinout.Proofs.Text.Lines
import Std.Data.String.ToNat

/-! # Plain texts

A plain text stays on a line and has no quotation mark. Texts that are glued together from plain
ones are plain, and there are weaker properties, such as that of staying on a line, that are handed
on in the same way.
-/

namespace Pinout

def Plain (text : String) : Prop :=
  '"' ∉ text.toList ∧ Text.OneLine text.toList

instance (text : String) : Decidable (Plain text) :=
  inferInstanceAs (Decidable (_ ∧ _))

theorem plain_append {a b : String} : Plain (a ++ b) ↔ Plain a ∧ Plain b := by
  simp only [Plain, String.toList_append, List.mem_append, not_or, Text.oneLine_append]
  exact and_and_and_comm

theorem plain_toString (n : Nat) : Plain (toString n) := by
  have digits (c : Char) (member : c ∈ (toString n).toList) : c.isDigit = true :=
    Nat.isDigit_of_mem_toDigits (by decide) (Nat.le_refl 10) (by simpa using member)
  constructor
  · intro quote
    cases digits _ quote
  · intro c member
    rw [Bool.eq_false_iff]
    intro isBreak
    rw [Text.isBreak_iff] at isBreak
    rcases isBreak with rfl | rfl <;> cases digits _ member

/-- Holds of plain texts, and of texts that are glued together from others of which it holds. -/
structure Glued (p : String → Prop) : Prop where
  plain {text : String} : Plain text → p text
  append {a b : String} : p a → p b → p (a ++ b)

theorem glued_plain : Glued Plain where
  plain := id
  append first second := plain_append.2 ⟨first, second⟩

theorem glued_oneLine : Glued fun text => Text.OneLine text.toList where
  plain := And.right
  append first second := by
    rw [String.toList_append]
    exact Text.oneLine_append.2 ⟨first, second⟩

theorem Glued.intercalate {p : String → Prop} (glued : Glued p) {separator : String}
    (between : p separator) {parts : List String} (all : ∀ part ∈ parts, p part) :
    p (separator.intercalate parts) := by
  induction parts with
  | nil => exact glued.plain (by decide : Plain "")
  | cons part parts ih =>
    obtain ⟨first, others⟩ := List.forall_mem_cons.1 all
    cases parts with
    | nil => simpa using first
    | cons next parts =>
      rw [String.intercalate_cons_cons]
      exact glued.append (glued.append first between) (ih others)

end Pinout
