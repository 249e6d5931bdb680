import Pinout.Caseless
import Std.Data.String.ToNat

/-! # Lower case before a number

Digits and the minus sign are neither cased nor ignored for case, so a number behind a name neither
changes the lower-case form of the name nor has one of its own. No other character becomes a digit.
-/

namespace Pinout.Text

open Unicode

def decimalDigits : List Char :=
  ['0', '1', '2', '3', '4', '5', '6', '7', '8', '9']

def decimalChars : List Char :=
  '-' :: decimalDigits

theorem mem_decimalDigits_of_isDigit {c : Char} (digit : c.isDigit = true) :
    c ∈ decimalDigits := by
  simp only [Char.isDigit, Bool.and_eq_true, decide_eq_true_eq] at digit
  change 48 ≤ c.toNat ∧ c.toNat ≤ 57 at digit
  simp only [decimalDigits, List.mem_cons, List.not_mem_nil, or_false, ← Char.toNat_inj,
    Char.reduceToNat]
  omega

theorem toList_toString (n : Nat) : (toString n).toList = Nat.toDigits 10 n := by
  rw [Nat.toString_eq_repr, Nat.toList_repr]

theorem mem_decimalChars_of_mem_toString {c : Char} (i : Int) (member : c ∈ (toString i).toList) :
    c ∈ decimalChars := by
  have digits (n : Nat) (member : c ∈ n.repr.toList) : c ∈ decimalChars := by
    rw [Nat.toList_repr] at member
    exact List.mem_cons_of_mem _ (mem_decimalDigits_of_isDigit
      (Nat.isDigit_of_mem_toDigits (by decide) (Nat.le_refl 10) member))
  rw [Int.toString_eq_repr, Int.repr.eq_def] at member
  split at member
  · exact digits _ member
  · rw [String.toList_append, List.mem_append] at member
    rcases member with sign | member
    · rw [List.mem_singleton.1 sign]
      exact List.mem_cons_self
    · exact digits _ member

theorem toString_int_ne_empty (i : Int) : toString i ≠ "" := by
  intro empty
  cases i with
  | ofNat n => exact Nat.repr_ne_empty empty
  | negSucc n =>
    have sign : "-" ++ (n + 1).repr = "" := empty
    simp at sign

/-- Such a character is no letter, separates the letters beside it and is its own lower-case
form. -/
theorem caseless_of_mem_decimalChars {c : Char} (decimal : c ∈ decimalChars) :
    isCaseIgnorable c = false ∧ isCased c = false ∧ c ≠ 'Σ' ∧ c ≠ 'İ' ∧ lowerChar c = c := by
  let caseless (c : Char) : Bool :=
    !isCaseIgnorable c && !isCased c && c != 'Σ' && c != 'İ' && lowerChar c == c
  have all : decimalChars.all caseless = true := by decide
  have here := List.all_eq_true.1 all c decimal
  simpa [caseless, and_assoc] using here

theorem startsCased_cons (c : Char) (cs : List Char) :
    startsCased (c :: cs) = if isCaseIgnorable c then startsCased cs else isCased c := by
  rw [startsCased, List.dropWhile_cons]
  cases isCaseIgnorable c <;> rfl

section

variable {number : List Char} (all : ∀ c ∈ number, c ∈ decimalChars)
include all

theorem startsCased_append_number (cs : List Char) :
    startsCased (cs ++ number) = startsCased cs := by
  induction cs with
  | nil =>
    cases number with
    | nil => rfl
    | cons c number =>
      obtain ⟨separates, noLetter, -⟩ := caseless_of_mem_decimalChars (all c List.mem_cons_self)
      rw [List.nil_append, startsCased_cons, separates, if_neg Bool.false_ne_true, noLetter]
      rfl
  | cons c cs ih => rw [List.cons_append, startsCased_cons, startsCased_cons, ih]

theorem lowerAfter_number (before : List Char) : lowerAfter before number = number := by
  induction number generalizing before with
  | nil => rfl
  | cons c number ih =>
    obtain ⟨first, others⟩ := List.forall_mem_cons.1 all
    obtain ⟨-, -, noSigma, noDotted, own⟩ := caseless_of_mem_decimalChars first
    rw [lowerAfter, if_neg noSigma, if_neg noDotted, own, ih others, List.singleton_append]

theorem lowerAfter_append_number (before cs : List Char) :
    lowerAfter before (cs ++ number) = lowerAfter before cs ++ number := by
  induction cs generalizing before with
  | nil => exact lowerAfter_number all before
  | cons c cs ih =>
    rw [List.cons_append, lowerAfter, lowerAfter, startsCased_append_number all, ih,
      List.append_assoc]

end

theorem toList_lower (s : String) : (lower s).toList = lowerAfter [] s.toList :=
  String.toList_ofList

theorem lower_append_toString_int (name : String) (i : Int) :
    lower (name ++ toString i) = lower name ++ toString i := by
  rw [← String.toList_inj, String.toList_append, toList_lower, toList_lower, String.toList_append,
    lowerAfter_append_number fun _ => mem_decimalChars_of_mem_toString i]

theorem lower_append_toString (name : String) (n : Nat) :
    lower (name ++ toString n) = lower name ++ toString n :=
  lower_append_toString_int name n

theorem isDigit_eq_false_of_le {c : Char} (beyond : 0x3A ≤ c.toNat) : c.isDigit = false := by
  rw [Bool.eq_false_iff]
  intro digit
  have : c.toNat ≤ 0x39 := (Char.isDigit_iff_toNat.1 digit).2
  omega

theorem le_target_of_mem_lowerRuns {run : CaseRun} (member : run ∈ lowerRuns) :
    0x3A ≤ run.target := by
  have all : lowerRuns.all (fun run => decide (0x3A ≤ run.target)) = true := by decide
  exact of_decide_eq_true (List.all_eq_true.1 all run member)

/-- Lower case makes no digits and takes none away. -/
theorem isDigit_lowerChar (c : Char) : (lowerChar c).isDigit = c.isDigit := by
  rw [lowerChar]
  split
  · next ascii =>
    have all : ∀ n < 0x80, (Char.ofNat n).toLower.isDigit = (Char.ofNat n).isDigit := by decide
    have here := all c.toNat ascii
    rwa [Char.ofNat_toNat] at here
  · next beyond =>
    have noDigit : c.isDigit = false := isDigit_eq_false_of_le (by omega)
    rw [noDigit]
    split
    · next code found =>
      obtain ⟨run, member, sent⟩ := List.exists_of_findSome?_eq_some found
      have high := le_target_of_mem_lowerRuns member
      have above : 0x3A ≤ code := by
        rw [CaseRun.image?] at sent
        split at sent
        · cases sent
          omega
        · cases sent
      by_cases valid : code.isValidChar
      · rw [Char.ofNat, dif_pos valid]
        exact isDigit_eq_false_of_le above
      · -- a code point that is no character gives the null character
        rw [Char.ofNat, dif_neg valid]
        rfl
    · exact noDigit

theorem any_isDigit_lowerAfter (before cs : List Char) :
    (lowerAfter before cs).any Char.isDigit = cs.any Char.isDigit := by
  induction cs generalizing before with
  | nil => rfl
  | cons c cs ih =>
    rw [lowerAfter, List.any_append, ih, List.any_cons]
    congr 1
    split
    · next sigma =>
      rw [sigma]
      split <;> rfl
    · split
      · next dotted =>
        rw [dotted]
        rfl
      · rw [List.any_cons, List.any_nil, Bool.or_false, isDigit_lowerChar]

end Pinout.Text

namespace Pinout

theorem sameName_symm {a b : String} (same : sameName a b = true) : sameName b a = true :=
  sameName_iff.2 (sameName_iff.1 same).symm

theorem sameName_trans {a b c : String} (same : sameName a b = true) (same' : sameName b c = true) :
    sameName a c = true :=
  sameName_iff.2 ((sameName_iff.1 same).trans (sameName_iff.1 same'))

theorem sameName_append_toString_iff (name : String) {n n' : Nat} :
    sameName (name ++ toString n) (name ++ toString n') = true ↔ n = n' := by
  rw [sameName_iff, Text.lower_append_toString, Text.lower_append_toString,
    String.append_right_inj]
  exact ⟨fun same => Nat.repr_injective same, fun same => by rw [same]⟩

/-- A number behind a name makes another name. -/
theorem not_sameName_append_toString (name : String) (n : Nat) :
    ¬ sameName (name ++ toString n) name := by
  rw [sameName_iff, Text.lower_append_toString, ← String.toList_inj, String.toList_append,
    Text.toList_toString, List.append_right_eq_self]
  exact Nat.toDigits_ne_nil

end Pinout
