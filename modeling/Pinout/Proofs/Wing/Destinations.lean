import Pinout.Proofs.BusRange
import Pinout.Proofs.BusRange.Display
import Pinout.Proofs.Wing.Landing
import Pinout.Wing.Placements

/-! # Destinations and ranges

A destination of a wing is written as a range of a bus is: a letter chooses a half, and a name alone
the whole bus. The token made of it is the first pin of that range, and it splits into the name and
the number again where the name has no character that could belong to another token.
-/

namespace Pinout.Wing

open Text (trim isBlank)

structure Numbered (token : String) (name digits : List Char) (n : Nat) : Prop where
  spelled : token.toList = name ++ digits
  nonempty : name ≠ []
  plain : ∀ c ∈ name, isTokenName c = true
  number : BusRange.decimal? digits = some n
  word : n < 1 <<< 64

namespace Numbered

variable {token : String} {name digits : List Char} {n : Nat}

theorem takeWhile_token (numbered : Numbered token name digits n) :
    token.toList.takeWhile isTokenName = name ∧ token.toList.dropWhile isTokenName = digits := by
  obtain ⟨nonempty, all, -⟩ := BusRange.decimal?_eq_some_iff.1 numbered.number
  rw [numbered.spelled]
  cases digits with
  | nil => exact absurd rfl nonempty
  | cons d digits =>
    have stops : isTokenName d = false := by
      simp [isTokenName, all d List.mem_cons_self]
    rw [List.takeWhile_append_of_pos numbered.plain, List.dropWhile_append_of_pos numbered.plain]
    simp [stops]

theorem split (numbered : Numbered token name digits n) :
    splitToken token = (.ofList name, n) := by
  obtain ⟨front, back⟩ := numbered.takeWhile_token
  obtain ⟨c, name, rfl⟩ := List.exists_cons_of_ne_nil numbered.nonempty
  rw [splitToken, front, back, numbered.number]
  exact if_pos numbered.word

end Numbered

/-- A token that is no name with a number is a name as a whole. -/
theorem splitToken_cases (token : String) :
    (∃ name digits n, Numbered token name digits n) ∨ splitToken token = (token, 0) := by
  have parts := List.takeWhile_append_dropWhile (p := isTokenName) (l := token.toList)
  have plain (c : Char) (member : c ∈ token.toList.takeWhile isTokenName) : isTokenName c = true :=
    List.mem_takeWhile_imp member
  rw [splitToken]
  split
  · next c name n nonempty number =>
    split
    · next word =>
      refine .inl ⟨_, _, n, parts.symm, ?_, plain, number, word⟩
      rw [nonempty]
      exact List.cons_ne_nil c name
    · exact .inr rfl
  · exact .inr rfl

theorem plug_of_unnamed {catalog : Catalog} {board : BoardId} {token : String} (wing : BoardId)
    (unnamed : catalog.busNamed? board (splitToken token).1 = none) :
    plug catalog board wing token = (catalog, 0) := by
  cases found : catalog.busIndex? board (splitToken token).1 with
  | none => exact plug_eq_of_none wing found
  | some index =>
    rw [Catalog.busNamed?, found, Option.bind_some, List.getElem?_eq_none_iff] at unnamed
    rw [plug_eq found, List.drop_eq_nil_of_le unnamed, List.map_nil, List.zip_nil_right]
    rfl

/-- The buses of a wing are paired with the bus that is named and those behind it. -/
theorem plug_of_named {catalog : Catalog} {board : BoardId} {token : String} (wing : BoardId)
    {target : BusView} (named : catalog.busNamed? board (splitToken token).1 = some target) :
    ∃ behind, target :: behind <:+ catalog.buses board ∧
      plug catalog board wing token =
        plugBuses catalog (splitToken token).2
          (((catalog.buses wing).map (·.ref)).zip ((target :: behind).map (·.ref))) := by
  obtain ⟨index, found, here⟩ := Option.bind_eq_some_iff.1 named
  obtain ⟨inside, here⟩ := List.getElem?_eq_some_iff.1 here
  have split : (catalog.buses board).drop index =
      target :: (catalog.buses board).drop (index + 1) := by
    rw [List.drop_eq_getElem_cons inside, here]
  refine ⟨(catalog.buses board).drop (index + 1), ?_, ?_⟩
  · rw [← split]
    exact List.drop_suffix index _
  · rw [plug_eq found, split]

/-- The token for a destination is the first pin of the range that is written so. -/
theorem normalizeDestination_eq (destination : String) :
    normalizeDestination destination = (BusRange.ofBare destination.toList).nameAt 0 := by
  have low : toString (0 : Int64).toInt = .ofList ['0'] := by decide
  have high : toString (8 : Int64).toInt = .ofList ['8'] := by decide
  rw [normalizeDestination, BusRange.nameAt, BusRange.indexAt_zero]
  fun_cases BusRange.ofBare destination.toList with
  | case1 half | case2 half => simp only [half, low, String.ofList_append]
  | case3 half | case4 half => simp only [half, high, String.ofList_append]
  | case5 => simp_all [BusRange.whole, String.ofList_append]

theorem first_ofBare (cs : List Char) :
    (BusRange.ofBare cs).first = 0 ∨ (BusRange.ofBare cs).first = 8 := by
  rw [BusRange.ofBare]
  split
  · exact .inl rfl
  · exact .inl rfl
  · exact .inr rfl
  · exact .inr rfl
  · exact .inl rfl

/-- Where a name has no digit and no blank, the token of a destination splits into the name and the
first pin of the range. -/
theorem splitToken_ofBare {cs : List Char} (nonempty : (BusRange.ofBare cs).name ≠ "")
    (plain : ∀ c ∈ (BusRange.ofBare cs).name.toList, c.isDigit = false ∧ isBlank c = false) :
    ∃ offset : Nat, (BusRange.ofBare cs).first.toInt = offset ∧
      splitToken ((BusRange.ofBare cs).nameAt 0) = ((BusRange.ofBare cs).name, offset) := by
  have token : ∀ c ∈ (BusRange.ofBare cs).name.toList, isTokenName c = true := by
    intro c member
    simp [isTokenName, plain c member]
  obtain ⟨offset, small, first⟩ :
      ∃ offset : Nat, offset < 1 <<< 64 ∧ (BusRange.ofBare cs).first.toInt = offset := by
    rcases first_ofBare cs with first | first
    · exact ⟨0, by decide, by rw [first]; rfl⟩
    · exact ⟨8, by decide, by rw [first]; rfl⟩
  have spelled : ((BusRange.ofBare cs).nameAt 0).toList =
      (BusRange.ofBare cs).name.toList ++ Nat.toDigits 10 offset := by
    rw [BusRange.nameAt, BusRange.indexAt_zero, first, String.toList_append]
    exact congrArg _ (Text.toList_toString offset)
  have numbered : Numbered ((BusRange.ofBare cs).nameAt 0) (BusRange.ofBare cs).name.toList
      (Nat.toDigits 10 offset) offset :=
    ⟨spelled, String.toList_eq_nil_iff.not.2 nonempty, token, BusRange.decimal?_toDigits offset,
      small⟩
  refine ⟨offset, first, ?_⟩
  rw [numbered.split, String.ofList_toList]

/-- A destination without a bracket is the range that is written so: its token is the first pin of
the range, and where the name of the range has no digit and no blank, a wing is plugged in from that
pin of the bus of that name on. -/
theorem destination_begins_range (destination : String)
    (trimmed : Text.trimmed destination = destination) (noBracket : '[' ∉ destination.toList) :
    let token := normalizeDestination destination
    ∃ range, BusRange.parse destination = .ok range ∧ range.start.call.1 = some token ∧
      (range.name ≠ "" → (∀ c ∈ range.name.toList, c.isDigit = false ∧ isBlank c = false) →
        ∃ offset : Nat, range.first.toInt = offset ∧ splitToken token = (range.name, offset) ∧
          ∀ (catalog : Catalog) (board wing : BoardId),
            (catalog.busNamed? board range.name = none →
              plug catalog board wing token = (catalog, 0)) ∧
            ∀ target, catalog.busNamed? board range.name = some target →
              ∃ behind, target :: behind <:+ catalog.buses board ∧
                plug catalog board wing token =
                  plugBuses catalog offset
                    (((catalog.buses wing).map (·.ref)).zip
                      ((target :: behind).map (·.ref)))) := by
  intro token
  have whole : trim destination.toList = destination.toList := by
    rwa [Text.trimmed, ← String.toList_inj, String.toList_ofList] at trimmed
  have reads := BusRange.parse_of_notMem (whole.symm ▸ noBracket)
  rw [whole] at reads
  have begins : token = (BusRange.ofBare destination.toList).nameAt 0 :=
    normalizeDestination_eq destination
  refine ⟨_, reads, ?_, fun nonempty plain => ?_⟩
  · rw [BusRange.start_eq, BusRange.call_behind, if_pos (BusRange.count_pos _), begins]
  · obtain ⟨offset, first, splits⟩ := splitToken_ofBare nonempty plain
    rw [← begins] at splits
    refine ⟨offset, first, splits, fun catalog board wing => ⟨fun unnamed => ?_, ?_⟩⟩
    · apply plug_of_unnamed
      rwa [splits]
    · intro target named
      have named' : catalog.busNamed? board (splitToken token).1 = some target := by
        rwa [splits]
      obtain ⟨behind, suffix, placed⟩ := plug_of_named wing named'
      rw [splits] at placed
      exact ⟨behind, suffix, placed⟩

/-- The lower half of a bus that is found in another spelling. -/
theorem destination_begins_range_lower :
    Text.trimmed "aL" = "aL" ∧ '[' ∉ "aL".toList ∧ BusRange.parse "aL" = .ok ⟨"a", 0, 7⟩ ∧
      splitToken "a0" = ("a", 0) ∧
      ∃ target behind, hubbed.busNamed? 1 "a" = some target ∧ target.ref = ⟨0, 0⟩ ∧
        plug hubbed 1 3 "a0" =
          plugBuses hubbed 0
            (((hubbed.buses 3).map (·.ref)).zip ((target :: behind).map (·.ref))) := by
  have trimmed : Text.trimmed "aL" = "aL" := by decide +kernel
  have noBracket : '[' ∉ "aL".toList := by decide +kernel
  have token : normalizeDestination "aL" = "a0" := by decide +kernel
  have reads : BusRange.parse "aL" = .ok ⟨"a", 0, 7⟩ := by decide +kernel
  obtain ⟨range, reads', -, from0⟩ := destination_begins_range "aL" trimmed noBracket
  cases reads.symm.trans reads'
  have plain : ∀ c ∈ "a".toList, c.isDigit = false ∧ isBlank c = false := by
    simp only [String.reduceToList, List.forall_mem_singleton]
    exact ⟨rfl, rfl⟩
  obtain ⟨offset, first, splits, places⟩ := from0 (by decide) plain
  obtain rfl : offset = 0 := Int.ofNat.inj (first.symm.trans Int64.toInt_zero)
  rw [token] at splits places
  have known : (hubbed.busNamed? 1 "a").map (·.ref) = some ⟨0, 0⟩ := by decide +kernel
  obtain ⟨target, named, ref⟩ := Option.map_eq_some_iff.1 known
  obtain ⟨behind, -, placed⟩ := (places hubbed 1 3).2 target named
  exact ⟨trimmed, noBracket, reads, splits, target, behind, named, ref, placed⟩

end Pinout.Wing
