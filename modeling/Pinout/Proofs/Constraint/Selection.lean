import Pinout.Constraint.Selection
import Pinout.Proofs.Fallible
import Pinout.Proofs.First

/-! # What a filter chooses

However its entries are written, a filter chooses among the pins of the board.
-/

namespace Pinout

theorem Catalog.mem_buses_of_busNamed? {catalog : Catalog} {id : BoardId} {name : String}
    {bus : BusView} (found : catalog.busNamed? id name = some bus) : bus ∈ catalog.buses id := by
  obtain ⟨index, -, here⟩ := Option.bind_eq_some_iff.1 found
  exact List.mem_of_getElem? here

namespace Constraint.PinFilter

variable {catalog : Catalog} {board : BoardId}

/-- Reading an entry, with buses looked up one by one. -/
theorem mention?_eq (catalog : Catalog) (board : BoardId) (entry : String) :
    mention? (catalog.busesByName board) entry =
      match catalog.busNamed? board entry with
      | some bus => .ok (some ⟨bus, none⟩)
      | none => (BusRange.parse entry).map fun range =>
        (catalog.busNamed? board range.name).map fun bus =>
          ⟨bus, some (.ofList (range.names.map Text.lower))⟩ := by
  simp only [mention?, Catalog.find?_busesByName]
  rfl

/-- An entry that can be read is the name of a bus, or a range of a bus that may not be there. -/
theorem mention?_eq_ok {entry : String} {mention : Option Mention}
    (h : mention? (catalog.busesByName board) entry = .ok mention) :
    (∃ bus, catalog.busNamed? board entry = some bus ∧ mention = some ⟨bus, none⟩) ∨
      catalog.busNamed? board entry = none ∧ ∃ range, BusRange.parse entry = .ok range ∧
        mention = (catalog.busNamed? board range.name).map fun bus =>
          ⟨bus, some (.ofList (range.names.map Text.lower))⟩ := by
  rw [mention?_eq] at h
  cases named : catalog.busNamed? board entry with
  | some bus =>
    rw [named] at h
    exact .inl ⟨bus, rfl, (Except.ok.inj h).symm⟩
  | none =>
    rw [named] at h
    cases parsed : BusRange.parse entry with
    | error error =>
      rw [parsed] at h
      cases h
    | ok range =>
      rw [parsed] at h
      exact .inr ⟨rfl, range, rfl, (Except.ok.inj h).symm⟩

theorem mem_buses_of_mention? {entry : String} {mention : Mention}
    (h : mention? (catalog.busesByName board) entry = .ok (some mention)) :
    mention.bus ∈ catalog.buses board := by
  rcases mention?_eq_ok h with ⟨bus, named, same⟩ | ⟨-, range, -, same⟩
  · cases same
    exact Catalog.mem_buses_of_busNamed? named
  · obtain ⟨bus, found, rfl⟩ := Option.map_eq_some_iff.1 same.symm
    exact Catalog.mem_buses_of_busNamed? found

theorem select_eq_ok {entries : List String} {views : List PinView}
    (chosen : (PinFilter.only entries).select catalog board = .ok views) :
    ∃ found, entries.mapM (mention? (catalog.busesByName board)) = .ok found ∧
      views = mentioned catalog (found.filterMap id) := by
  rw [select] at chosen
  cases read : entries.mapM (mention? (catalog.busesByName board)) with
  | error error =>
    rw [read] at chosen
    cases chosen
  | ok found =>
    rw [read] at chosen
    cases chosen
    exact ⟨found, rfl, rfl⟩

section

variable {entries : List String} {found : List (Option Mention)}
  (read : entries.mapM (mention? (catalog.busesByName board)) = .ok found)
include read

theorem mem_mentions_iff {mention : Mention} :
    mention ∈ found.filterMap id ↔
      ∃ entry ∈ entries, mention? (catalog.busesByName board) entry = .ok (some mention) := by
  simp only [List.mem_filterMap, id, exists_eq_right, mem_iff_of_mapM read]

theorem mem_buses_of_mentioned {bus : BusView}
    (kept : bus ∈ ((found.filterMap id).map (·.bus)).eraseDupsBy fun a b => a.ref == b.ref) :
    bus ∈ catalog.buses board := by
  obtain ⟨mention, listed, rfl⟩ := List.mem_map.1 (mem_of_mem_eraseDupsBy kept)
  obtain ⟨entry, -, means⟩ := (mem_mentions_iff read).1 listed
  exact mem_buses_of_mention? means

theorem mem_pins_of_mem_mentioned {view : PinView}
    (member : view ∈ mentioned catalog (found.filterMap id)) : view ∈ catalog.pins board := by
  obtain ⟨bus, kept, here⟩ := List.mem_flatMap.1 member
  exact List.mem_flatMap.2 ⟨bus, mem_buses_of_mentioned read kept, (List.mem_filter.1 here).1⟩

end

theorem mem_pins_of_select {filter : PinFilter} {views : List PinView}
    (h : filter.select catalog board = .ok views) {view : PinView} (member : view ∈ views) :
    view ∈ catalog.pins board := by
  cases filter with
  | all =>
    cases h
    exact member
  | only entries =>
    obtain ⟨found, read, rfl⟩ := select_eq_ok h
    exact mem_pins_of_mem_mentioned read member

end Constraint.PinFilter

end Pinout
