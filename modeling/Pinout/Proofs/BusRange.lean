import Mathlib.Data.List.Nodup
import Pinout.BusRange
import Pinout.Proofs.Text.Fields
import Std.Data.String.ToInt

/-! # What a walk over a range yields

The walk passes over the pins from the first bound to the last one, one by one and in either
direction, and it never steps out of the words. `behind k` is the cursor behind the first `k` pins,
and behind all of them when there are fewer, however often it is asked. A name in which nothing
means something else stands for all sixteen pins of its bus.
-/

namespace Pinout.BusRange

variable (range : BusRange)

def indexAt (k : Nat) : Int :=
  if range.first ≤ range.last then range.first.toInt + k else range.first.toInt - k

def nameAt (k : Nat) : String :=
  range.name ++ toString (range.indexAt k)

/-- The cursor behind the first pins of the range. It stands at the last one when all are passed. -/
def behind (k : Nat) : Cursor :=
  if k < range.count then ⟨range, .ofInt (range.indexAt k), false⟩ else ⟨range, range.last, true⟩

theorem count_pos : 0 < range.count :=
  Nat.succ_pos _

/-- The indices lie between the bounds, and only the last place has the last bound. -/
theorem toInt_indexAt {k : Nat} (inside : k < range.count) :
    (Int64.ofInt (range.indexAt k)).toInt = range.indexAt k ∧
      (range.indexAt k = range.last.toInt ↔ k + 1 = range.count) := by
  have first := And.intro range.first.le_toInt range.first.toInt_lt
  have last := And.intro range.last.le_toInt range.last.toInt_lt
  rw [count] at inside ⊢
  rw [indexAt]
  split
  · next up =>
    rw [Int64.le_iff_toInt_le] at up
    exact ⟨Int64.toInt_ofInt_of_le (by omega) (by omega), by omega⟩
  · next down =>
    rw [Int64.le_iff_toInt_le] at down
    exact ⟨Int64.toInt_ofInt_of_le (by omega) (by omega), by omega⟩

theorem ofInt_indexAt_succ (k : Nat) :
    Int64.ofInt (range.indexAt (k + 1)) = Int64.ofInt (range.indexAt k) + range.step := by
  rw [indexAt, indexAt, step]
  split
  · rw [Int.natCast_add, ← Int.add_assoc, Int64.ofInt_add]
    rfl
  · rw [Int.natCast_add, Int.sub_eq_add_neg, Int.neg_add, ← Int.add_assoc, Int64.ofInt_add,
      ← Int.sub_eq_add_neg]
    rfl

theorem indexAt_zero : range.indexAt 0 = range.first.toInt := by
  rw [indexAt]
  split <;> omega

theorem start_eq : range.start = range.behind 0 := by
  rw [start, behind, if_pos range.count_pos, indexAt_zero, Int64.ofInt_toInt]

/-- The step of a walk: the next pin, as long as there is one. -/
theorem next?_behind (k : Nat) :
    (range.behind k).next? =
      if k < range.count then some (range.nameAt k, range.behind (k + 1)) else none := by
  by_cases inside : k < range.count
  · obtain ⟨index, isLast⟩ := range.toInt_indexAt inside
    rw [if_pos inside, behind, if_pos inside, Cursor.next?, if_neg Bool.false_ne_true]
    simp only [← Int64.toInt_inj, index, isLast]
    split
    · next last =>
      have bound := Int64.toInt_inj.1 (index.trans (isLast.2 last))
      rw [behind, if_neg (by omega), bound]
      rfl
    · next goesOn =>
      rw [behind, if_pos (by omega), ofInt_indexAt_succ]
      rfl
  · rw [if_neg inside, behind, if_neg inside]
    rfl

theorem walk_behind (seen : List String) (limit k : Nat) :
    (range.behind k).walk seen limit =
      (((List.range' k (min limit (range.count - k))).map range.nameAt).reverse ++ seen,
        range.behind (k + min limit (range.count - k))) := by
  induction limit generalizing seen k with
  | zero => simp [Cursor.walk]
  | succ limit ih =>
    rw [Cursor.walk, next?_behind]
    by_cases inside : k < range.count
    · have left : min (limit + 1) (range.count - k) = min limit (range.count - (k + 1)) + 1 := by
        omega
      rw [if_pos inside, left, List.range'_succ]
      simp only [ih, List.map_cons, List.reverse_cons, List.append_assoc, List.singleton_append]
      rw [Nat.add_right_comm, Nat.add_assoc]
    · have left : min (limit + 1) (range.count - k) = 0 := by omega
      rw [if_neg inside, left]
      rfl

theorem firstNames_eq (limit : Nat) :
    range.firstNames limit = (List.range (min limit range.count)).map range.nameAt := by
  simp [firstNames, Cursor.take, start_eq, walk_behind, List.range_eq_range']

theorem names_eq : range.names = (List.range range.count).map range.nameAt := by
  rw [names, firstNames_eq, Nat.min_self]

/-- In whichever direction a range is walked, it passes all indices between its bounds. -/
theorem exists_indexAt_eq_iff {i : Int} :
    (∃ k < range.count, range.indexAt k = i) ↔
      min range.first.toInt range.last.toInt ≤ i ∧ i ≤ max range.first.toInt range.last.toInt := by
  simp only [count, indexAt, Int64.le_iff_toInt_le]
  constructor
  · rintro ⟨k, inside, rfl⟩
    split <;> omega
  · intro between
    refine ⟨(i - range.first.toInt).natAbs, by omega, ?_⟩
    split <;> omega

theorem pairs_eq (a b : BusRange) :
    a.pairs b = (List.range (min a.count b.count)).map fun k => (a.nameAt k, b.nameAt k) := by
  rw [pairs, firstNames_eq, firstNames_eq, ← List.zip_map', Nat.min_right_comm, Nat.min_self,
    Nat.min_assoc, Nat.min_self]

/-! ## Calls -/

namespace Cursor

def call (cursor : Cursor) : Option String × Cursor :=
  match cursor.next? with
  | some (item, cursor') => (some item, cursor')
  | none => (none, cursor)

def after : Nat → Cursor → Cursor
  | 0, cursor => cursor
  | calls + 1, cursor => (after calls cursor).call.2

/-- Whether the next call adds its step to a position that is too close to the end of the words. -/
def overflows (cursor : Cursor) : Bool :=
  !cursor.finished && cursor.position != cursor.range.last &&
    BitVec.saddOverflow cursor.position.toBitVec cursor.range.step.toBitVec

/-- Whether the way to the last bound is no word, or its length with both ends no unsigned one. -/
def lengthOverflows (cursor : Cursor) : Bool :=
  !cursor.finished &&
    (BitVec.ssubOverflow cursor.range.last.toBitVec cursor.position.toBitVec ||
      1 <<< 64 ≤ cursor.remaining)

end Cursor

/-- A cursor whose walk is over does not move any more. -/
theorem call_behind (k : Nat) :
    (range.behind k).call =
      (if k < range.count then some (range.nameAt k) else none, range.behind (k + 1)) := by
  by_cases inside : k < range.count
  · simp only [Cursor.call, next?_behind, if_pos inside]
  · have same : range.behind (k + 1) = range.behind k := by
      rw [behind, behind, if_neg inside, if_neg (by omega)]
    simp only [Cursor.call, next?_behind, if_neg inside, same]

theorem after_start (k : Nat) : range.start.after k = range.behind k := by
  induction k with
  | zero => exact range.start_eq
  | succ k ih => rw [Cursor.after, ih, call_behind]

theorem toInt_step : range.step.toInt = if range.first ≤ range.last then 1 else -1 := by
  rw [step]
  split <;> rfl

theorem indexAt_succ (k : Nat) : range.indexAt (k + 1) = range.indexAt k + range.step.toInt := by
  rw [indexAt, indexAt, toInt_step]
  split <;> omega

/-- The step leads to the index of the next pin, which is a word. -/
theorem overflows_behind (k : Nat) : (range.behind k).overflows = false := by
  by_cases inside : k < range.count
  · obtain ⟨index, isLast⟩ := range.toInt_indexAt inside
    rw [behind, if_pos inside, Cursor.overflows]
    by_cases last : k + 1 = range.count
    · have bound : Int64.ofInt (range.indexAt k) = range.last :=
        Int64.toInt_inj.1 (index.trans (isLast.2 last))
      simp [bound]
    · have next := (range.toInt_indexAt (k := k + 1) (by omega)).1
      have word := And.intro (Int64.ofInt (range.indexAt (k + 1))).le_toInt
        (Int64.ofInt (range.indexAt (k + 1))).toInt_lt
      rw [next, indexAt_succ] at word
      have stays : BitVec.saddOverflow (Int64.ofInt (range.indexAt k)).toBitVec
          range.step.toBitVec = false := by
        simp only [BitVec.saddOverflow, Int64.toInt_toBitVec, index, Bool.or_eq_false_iff,
          decide_eq_false_iff_not]
        omega
      rw [stays, Bool.and_false]
  · rw [behind, if_neg inside]
    rfl

theorem remaining_behind (k : Nat) : (range.behind k).remaining = range.count - k := by
  by_cases inside : k < range.count
  · rw [behind, if_pos inside, Cursor.remaining, if_neg Bool.false_ne_true,
      (range.toInt_indexAt inside).1]
    simp only [count, indexAt, Int64.le_iff_toInt_le] at inside ⊢
    split <;> omega
  · rw [behind, if_neg inside, Cursor.remaining, if_pos rfl]
    omega

/-- What is left of a range lies within its span. -/
theorem lengthOverflows_behind
    (span : Int64.minValue.toInt ≤ range.last.toInt - range.first.toInt ∧
      range.last.toInt - range.first.toInt ≤ Int64.maxValue.toInt) (k : Nat) :
    (range.behind k).lengthOverflows = false := by
  by_cases inside : k < range.count
  · have bounds := range.exists_indexAt_eq_iff.1 ⟨k, inside, rfl⟩
    rw [Int64.toInt_minValue, Int64.toInt_maxValue] at span
    have way : BitVec.ssubOverflow range.last.toBitVec (Int64.ofInt (range.indexAt k)).toBitVec =
        false := by
      simp only [BitVec.ssubOverflow, Int64.toInt_toBitVec, (range.toInt_indexAt inside).1,
        Bool.or_eq_false_iff, decide_eq_false_iff_not]
      omega
    have short : ¬ 1 <<< 64 ≤ range.count - k := by
      rw [count]
      omega
    rw [Cursor.lengthOverflows, remaining_behind, behind, if_pos inside, way, Bool.false_or,
      decide_eq_false short, Bool.and_false]
  · rw [behind, if_neg inside]
    rfl

theorem nameAt_injective : Function.Injective range.nameAt := by
  intro k k' same
  have indices : (range.indexAt k).repr = (range.indexAt k').repr :=
    (String.append_right_inj _).1 same
  have same := Int.repr_injective indices
  rw [indexAt, indexAt] at same
  split at same <;> omega

theorem getElem?_names (k : Nat) :
    range.names[k]? = if k < range.count then some (range.nameAt k) else none := by
  rw [names_eq, List.getElem?_map]
  by_cases inside : k < range.count <;> simp [inside]

/-- Every call yields the next pin, and after the last one none. The pins are all different, as many
as lie between the bounds and with both of them, and no call overflows. Where the span of the range
is a word itself, the length announced is always the number of pins to come, and announcing it does
not overflow either. -/
theorem calls_exact (range : BusRange) :
    let span := range.last.toInt - range.first.toInt
    let cursor (k : Nat) := range.start.after k
    range.names.length = span.natAbs + 1 ∧ range.names.Nodup ∧
      (∀ k, range.names[k]? =
        if k < span.natAbs + 1 then
          some (range.name ++
            toString (if range.first ≤ range.last then range.first.toInt + k
              else range.first.toInt - k))
        else
          none) ∧
      (∀ k, (cursor k).call.1 = range.names[k]? ∧ (cursor k).overflows = false) ∧
      (Int64.minValue.toInt ≤ span ∧ span ≤ Int64.maxValue.toInt → ∀ k,
        (cursor k).announced? = some (range.names.drop k).length ∧
          (cursor k).lengthOverflows = false) := by
  intro span cursor
  have place : cursor = range.behind := funext range.after_start
  have length : range.names.length = range.count := by
    rw [names_eq, List.length_map, List.length_range]
  refine ⟨length, ?_, range.getElem?_names, fun k => ⟨?_, ?_⟩, fun word k => ⟨?_, ?_⟩⟩
  · rw [names_eq]
    exact List.nodup_range.map range.nameAt_injective
  · rw [place, call_behind, getElem?_names]
  · rw [place]
    exact range.overflows_behind k
  · have same : (range.behind k).range = range := by
      rw [behind]
      split <;> rfl
    rw [place, Cursor.announced?, same, if_pos word, remaining_behind, List.length_drop,
      length]
  · rw [place]
    exact range.lengthOverflows_behind word k

/-- The way down from zero is as long as a word can tell. -/
theorem calls_exact_down :
    let range : BusRange := ⟨"A", 0, Int64.minValue⟩
    range.names.length = (1 <<< 63) + 1 ∧ range.start.announced? = some ((1 <<< 63) + 1) ∧
      range.start.call.1 = some "A0" := by
  intro range
  obtain ⟨length, -, names, calls, left⟩ := calls_exact range
  have length : range.names.length = (1 <<< 63) + 1 := length.trans (by decide)
  refine ⟨length, (left (by decide) 0).1.trans ?_, (calls 0).1.trans ((names 0).trans ?_)⟩
  · rw [List.drop_zero, length]
  · decide +kernel

/-! ## Names of whole buses -/

theorem nameAt_whole (name : String) (k : Nat) : (whole name).nameAt k = name ++ toString k := by
  have up : (0 : Int64) ≤ 15 := by decide
  have index : (whole name).indexAt k = k := (if_pos up).trans (Int.zero_add k)
  rw [nameAt, index]
  rfl

theorem pairs_whole (name name' : String) :
    (whole name).pairs (whole name') =
      (List.range 16).map fun k => (name ++ toString k, name' ++ toString k) := by
  have count (name : String) : (whole name).count = 16 := rfl
  simp only [pairs_eq, count, nameAt_whole, Nat.min_self]

/-- A text that is read as the name of a bus as it stands: nothing of it is trimmed, is a bracket
or chooses one half of the bus. -/
structure NamesBus (text : String) : Prop where
  nonempty : text ≠ ""
  trimmed : Text.trimmed text = text
  noBracket : '[' ∉ text.toList
  noHalf : text.toList.getLast? ∉ [some 'l', some 'L', some 'h', some 'H']

instance (text : String) : Decidable (NamesBus text) :=
  decidable_of_iff (text ≠ "" ∧ Text.trimmed text = text ∧ '[' ∉ text.toList ∧
      text.toList.getLast? ∉ [some 'l', some 'L', some 'h', some 'H'])
    ⟨fun ⟨nonempty, trimmed, noBracket, noHalf⟩ => ⟨nonempty, trimmed, noBracket, noHalf⟩,
      fun ⟨nonempty, trimmed, noBracket, noHalf⟩ => ⟨nonempty, trimmed, noBracket, noHalf⟩⟩

theorem NamesBus.trim_toList {text : String} (names : NamesBus text) :
    Text.trim text.toList = text.toList := by
  have trimmed := names.trimmed
  rwa [Text.trimmed, ← String.toList_inj, String.toList_ofList] at trimmed

theorem NamesBus.toList_ne_nil {text : String} (names : NamesBus text) : text.toList ≠ [] :=
  fun empty => names.nonempty (String.toList_eq_nil_iff.1 empty)

theorem NamesBus.parse {text : String} (names : NamesBus text) :
    BusRange.parse text = .ok (whole text) := by
  have bare : ofBare text.toList = whole text := by
    have noHalf := names.noHalf
    rw [ofBare]
    split
    case h_5 => rw [String.ofList_toList]
    -- in the other cases the last letter is that of a half
    all_goals
      next half => simp [half] at noHalf
  rw [BusRange.parse, names.trim_toList, Text.splitOnce?_of_notMem names.noBracket, bare]

end Pinout.BusRange
