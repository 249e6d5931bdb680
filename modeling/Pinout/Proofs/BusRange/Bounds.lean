import Mathlib.Data.List.Induction
import Pinout.BusRange
import Pinout.Proofs.Text.Lower
import Std.Data.String.ToInt

/-! # Numbers that are written and read

A bound is read back as it is printed. Different digits give different numbers, except that zeros in
front do not count.
-/

namespace Pinout.BusRange

open Nat (ofDigitChars)

/-- Decimal digits, at least one, and the number they stand for. -/
@[mk_iff]
structure IsDecimal (cs : List Char) (n : Nat) : Prop where
  nonempty : cs ≠ []
  digits : ∀ c ∈ cs, c.isDigit = true
  value : ofDigitChars 10 cs 0 = n

theorem decimal?_eq_some_iff {cs : List Char} {n : Nat} :
    decimal? cs = some n ↔ IsDecimal cs n := by
  have value : cs.foldl (fun value c => value * 10 + (c.toNat - 0x30)) 0 =
      ofDigitChars 10 cs 0 := by
    simp only [Nat.mul_comm _ 10]
    rfl
  simp [decimal?, value, and_assoc, isDecimal_iff]

theorem decimal?_toDigits (n : Nat) : decimal? (Nat.toDigits 10 n) = some n :=
  decimal?_eq_some_iff.2 ⟨Nat.toDigits_ne_nil,
    fun _ => Nat.isDigit_of_mem_toDigits (by decide) (Nat.le_refl 10), Nat.ofDigitChars_ten_toDigits⟩

theorem ofDigitChars_concat (ds : List Char) (d : Char) :
    ofDigitChars 10 (ds ++ [d]) 0 = 10 * ofDigitChars 10 ds 0 + (d.toNat - 48) :=
  Nat.ofDigitChars_append 0

/-- Digits for one number differ by zeros in front only: the last digits are the same, and so are
the numbers in front of them. -/
theorem eq_zeros_append {ds ds' : List Char} (digits : ∀ d ∈ ds, d.isDigit = true)
    (digits' : ∀ d ∈ ds', d.isDigit = true) (shorter : ds.length ≤ ds'.length)
    (same : ofDigitChars 10 ds 0 = ofDigitChars 10 ds' 0) :
    ds' = List.replicate (ds'.length - ds.length) '0' ++ ds := by
  have unit {d : Char} (digit : d.isDigit = true) : 48 ≤ d.toNat ∧ d.toNat ≤ 57 :=
    Char.isDigit_iff_toNat.1 digit
  induction ds' using List.reverseRecOn generalizing ds with
  | nil =>
    cases List.length_eq_zero_iff.1 (Nat.le_zero.1 shorter)
    rfl
  | append_singleton ds' d' ih =>
    have unit' := unit (digits' d' (by simp))
    have front' : ∀ d ∈ ds', d.isDigit = true := fun d member => digits' d (by simp [member])
    cases ds using List.reverseRecOn with
    | nil =>
      -- the number is zero, so there are zeros only
      rw [ofDigitChars_concat, Nat.ofDigitChars_nil] at same
      have zero : d' = '0' := Char.toNat_inj.1 (show d'.toNat = 48 by omega)
      have zeros := ih digits front' (Nat.zero_le _) (show 0 = _ by omega)
      rw [zero, List.append_nil, List.length_append, List.length_nil, Nat.sub_zero,
        List.length_singleton, List.replicate_succ', ← List.append_nil (List.replicate _ _)]
      exact congrArg (· ++ ['0']) zeros
    | append_singleton ds d =>
      have unit := unit (digits d (by simp))
      have front : ∀ d ∈ ds, d.isDigit = true := fun d member => digits d (by simp [member])
      rw [ofDigitChars_concat, ofDigitChars_concat] at same
      rw [List.length_append, List.length_append, List.length_singleton, List.length_singleton]
        at shorter ⊢
      have last : d' = d := Char.toNat_inj.1 (by omega)
      rw [last, ← List.append_assoc, Nat.add_sub_add_right]
      exact congrArg (· ++ [d]) (ih front front' (by omega) (by omega))

theorem bound?_of_decimal? {cs : List Char} {n : Nat} (digits : decimal? cs = some n) :
    bound? cs =
      if Int64.minValue.toInt ≤ n ∧ n ≤ Int64.maxValue.toInt then some (.ofInt n) else none := by
  have noSign (c : Char) (sign : c.isDigit = false) : ∀ cs', cs ≠ c :: cs' := by
    rintro cs' rfl
    have digit := (decimal?_eq_some_iff.1 digits).digits c List.mem_cons_self
    cases sign.symm.trans digit
  rw [bound?, digits]
  · rfl
  · exact noSign '-' rfl
  · exact noSign '+' rfl

theorem bound?_minus {cs : List Char} {n : Nat} (digits : decimal? cs = some n) :
    bound? ('-' :: cs) =
      if Int64.minValue.toInt ≤ -(n : Int) ∧ -(n : Int) ≤ Int64.maxValue.toInt then
        some (.ofInt (-n))
      else
        none := by
  rw [bound?, digits]
  rfl

/-- A bound is read back as it is printed. -/
theorem bound?_toString (bound : Int64) : bound? (toString bound.toInt).toList = some bound := by
  have fits : Int64.minValue.toInt ≤ bound.toInt ∧ bound.toInt ≤ Int64.maxValue.toInt := by
    rw [Int64.toInt_minValue, Int64.toInt_maxValue]
    have := bound.le_toInt
    have := bound.toInt_lt
    omega
  have whole := Int64.ofInt_toInt bound
  generalize bound.toInt = i at fits whole
  cases i with
  | ofNat n =>
    have printed : (toString (Int.ofNat n)).toList = Nat.toDigits 10 n := Text.toList_toString n
    rw [printed, bound?_of_decimal? (decimal?_toDigits n)]
    exact (if_pos fits).trans (congrArg some whole)
  | negSucc n =>
    have printed : (toString (Int.negSucc n)).toList = '-' :: Nat.toDigits 10 (n + 1) := by
      change ("-" ++ (n + 1).repr).toList = _
      rw [String.toList_append, Nat.toList_repr]
      rfl
    rw [printed, bound?_minus (decimal?_toDigits (n + 1))]
    exact (if_pos fits).trans (congrArg some whole)

end Pinout.BusRange
