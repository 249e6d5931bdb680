import Pinout.Export.Basic
import Pinout.Proofs.Catalog.Lookups
import Pinout.Proofs.Catalog.Naming
import Pinout.Proofs.Catalog.Order
import Pinout.Proofs.Text.Lower

/-! # Boards that are exported

Boards are asked for by name, and kept by the names they have. Looking up a name gives one board of a
kind, the last that has it, while an earlier one keeps the name and is listed as long as another of
its names leads to it. So an export holds what is found, and besides it what was overtaken.
-/

namespace Pinout

section

variable {α : Type} {p : α → Bool} {xs : List α} {i : Nat}

theorem exists_of_lastIndex? (found : lastIndex? p xs = some i) :
    ∃ x, xs[i]? = some x ∧ p x = true := by
  have last := bind_lastIndex? p xs
  rw [found, Option.bind_some] at last
  have any : xs.any p = true := by
    rw [← isSome_lastIndex?, found]
    rfl
  obtain ⟨x, here⟩ : ∃ x, xs.reverse.find? p = some x :=
    Option.isSome_iff_exists.1 (by simpa using any)
  exact ⟨x, last.trans here, List.find?_some here⟩

theorem exists_lastIndex?_ge {x : α} (here : xs[i]? = some x) (holds : p x = true) :
    ∃ j, lastIndex? p xs = some j ∧ i ≤ j := by
  induction xs using List.reverseRecOn with
  | nil => cases here
  | append_singleton xs last ih =>
    have inside := (List.getElem?_eq_some_iff.1 here).1
    rw [List.length_append, List.length_singleton] at inside
    rw [lastIndex?_concat]
    split
    · exact ⟨xs.length, rfl, Nat.le_of_lt_succ inside⟩
    · next other =>
      rw [getElem?_concat] at here
      split at here
      · cases here
        exact absurd holds other
      · exact ih here

end

namespace Export

/-- A board is still listed, and one of its names leads to a later board of its kind. -/
structure Overtaken (catalog : Catalog) (kind : BoardKind) (name : String) (id : BoardId) :
    Prop where
  listed : id ∈ catalog.boards kind
  named : (catalog.board id).isNamed name = true
  later : ∃ other, catalog.find? kind name = some other ∧ id < other

section

variable {catalog : Catalog} {registered : List Registration}
  (records : Catalog.Records catalog registered)
include records

theorem isNamed_of_records {id : BoardId} {registration : Registration}
    (there : registered[id]? = some registration) (name : String) :
    (catalog.board id).isNamed name = registration.board.isNamed name := by
  rw [Board.isNamed, Catalog.board_names, records.names, there]
  rfl

theorem listed_of_find? {kind : BoardKind} {name : String} {id : BoardId}
    (found : catalog.find? kind name = some id) :
    id ∈ catalog.boards kind ∧ (catalog.board id).isNamed name = true := by
  rw [records.find] at found
  obtain ⟨registration, there, answers⟩ := exists_of_lastIndex? found
  rw [Registration.answers, Bool.and_eq_true, decide_eq_true_eq] at answers
  obtain ⟨own, named⟩ := answers
  obtain ⟨name', member, same⟩ := List.any_eq_true.1 named
  refine ⟨records.mem_boards_iff.2 ⟨registration, there, own, name', member, ?_⟩, ?_⟩
  · rw [Catalog.find?_congr_of_sameName same, records.find, found]
  · rw [isNamed_of_records records there, named]

/-- A listed board has a name just if the name leads to it or to a later one. -/
theorem listed_and_named_iff {kind : BoardKind} {name : String} {id : BoardId} :
    id ∈ catalog.boards kind ∧ (catalog.board id).isNamed name = true ↔
      catalog.find? kind name = some id ∨ Overtaken catalog kind name id := by
  constructor
  · rintro ⟨listed, named⟩
    obtain ⟨registration, there, own, -⟩ := records.mem_boards_iff.1 listed
    have answers : registration.answers kind name = true := by
      rw [Registration.answers, own, ← isNamed_of_records records there, named]
      simp
    obtain ⟨last, found, le⟩ := exists_lastIndex?_ge there answers
    rw [← records.find] at found
    rcases Nat.eq_or_lt_of_le le with rfl | later
    · exact .inl found
    · exact .inr ⟨listed, named, last, found, later⟩
  · rintro (found | overtaken)
    · exact listed_of_find? records found
    · exact ⟨overtaken.listed, overtaken.named⟩

theorem nodup_boards : (catalog.boards .board ++ catalog.boards .wing).Nodup := by
  have nodup (kind : BoardKind) : (catalog.boards kind).Nodup :=
    ((records.order kind).filter _).imp Nat.ne_of_lt
  refine List.nodup_append.2 ⟨nodup .board, nodup .wing, fun id isBoard other isWing same => ?_⟩
  obtain ⟨registration, there, own, -⟩ := records.mem_boards_iff.1 isBoard
  obtain ⟨registration', there', own', -⟩ := records.mem_boards_iff.1 isWing
  rw [same, there'] at there
  cases there
  cases own.symm.trans own'

end

theorem wanted_iff {wantedNames : List String} (noAll : ":all" ∉ wantedNames) (board : Board) :
    wanted wantedNames board.names = true ↔ ∃ name ∈ wantedNames, board.isNamed name = true := by
  have notAll : wantedNames.contains ":all" = false := by simpa using noAll
  rw [wanted, notAll, Bool.false_or]
  simp only [Board.isNamed, List.any_eq_true]
  constructor
  · rintro ⟨own, member, name, asked, same⟩
    exact ⟨name, asked, own, member, sameName_symm same⟩
  · rintro ⟨name, asked, own, member, same⟩
    exact ⟨own, member, name, asked, sameName_symm same⟩

/-- Whatever was registered and loaded: an export by names holds each board once, boards in front of
wings and both in the order in which they were registered. Of a kind it holds the boards to which one
of the names leads, and those whose name was overtaken. -/
theorem chosen_after (changes : List Change) {wantedNames : List String}
    (noAll : ":all" ∉ wantedNames) :
    let catalog := Catalog.after changes
    ∃ kept : BoardKind → List BoardId,
      chosen catalog wantedNames = kept .board ++ kept .wing ∧
        (chosen catalog wantedNames).Nodup ∧
        ∀ kind, (kept kind).Pairwise (· < ·) ∧
          ∀ id, id ∈ kept kind ↔ ∃ name ∈ wantedNames,
            catalog.find? kind name = some id ∨ Overtaken catalog kind name id := by
  intro catalog
  have records := Catalog.records_after changes
  refine ⟨fun kind => (catalog.boards kind).filter fun id =>
    wanted wantedNames (catalog.board id).names, List.filter_append .., ?_, fun kind => ⟨?_, ?_⟩⟩
  · exact (nodup_boards records).filter _
  · exact ((records.order kind).filter _).filter _
  · intro id
    have called (name : String) :
        catalog.find? kind name = some id ∨ Overtaken catalog kind name id ↔
          id ∈ catalog.boards kind ∧ (catalog.board id).isNamed name = true :=
      (listed_and_named_iff records).symm
    simp only [called]
    rw [List.mem_filter, wanted_iff noAll]
    exact ⟨fun ⟨listed, name, asked, named⟩ => ⟨name, asked, listed, named⟩,
      fun ⟨name, asked, listed, named⟩ => ⟨listed, name, asked, named⟩⟩

/-- A board whose first name is that of a wing too, and is taken by a later board. -/
def overtaking : List Change :=
  [.load .board "One, Uno \x7b A : P1 \x7d", .load .wing "One \x7b B : L1 \x7d",
    .load .board "ONE \x7b C : P2 \x7d"]

theorem chosen_after_overtaking :
    let catalog := Catalog.after overtaking
    ":all" ∉ ["one"] ∧ chosen catalog ["one"] = [0, 2, 1] ∧ Overtaken catalog .board "one" 0 ∧
      ∃ kept : BoardKind → List BoardId,
        chosen catalog ["one"] = kept .board ++ kept .wing ∧ (chosen catalog ["one"]).Nodup ∧
          ∀ kind, (kept kind).Pairwise (· < ·) ∧
            ∀ id, id ∈ kept kind ↔ ∃ name ∈ ["one"],
              catalog.find? kind name = some id ∨ Overtaken catalog kind name id := by
  refine ⟨by decide, by decide +kernel, ⟨by decide +kernel, by decide +kernel, 2, ?_⟩,
    chosen_after overtaking (by decide)⟩
  decide +kernel

/-- An export holds a board to which the name that is asked for does not lead any more. -/
theorem chosen_beyond_found :
    let catalog := Catalog.after overtaking
    ":all" ∉ ["one"] ∧ 0 ∈ chosen catalog ["one"] ∧
      ¬ ∃ name ∈ ["one"], catalog.find? .board name = some 0 ∨ catalog.find? .wing name = some 0 := by
  refine ⟨by decide, ?_, ?_⟩ <;> decide +kernel

end Export

end Pinout
