import Pinout.Proofs.Catalog.Wiring
import Pinout.Proofs.First
import Pinout.Proofs.Last

/-! # Looking up buses

Names of buses repeat, on one level and across levels, in any spelling. Whether a name is known is
asked of one level after the other, its position is searched from the end of all buses, and the
list of names keeps first spellings only. All of this agrees: a name leads to the last bus of that
name on the most derived level that has one.
-/

namespace Pinout

theorem isSome_lastIndex? {α : Type} (p : α → Bool) (as : List α) :
    (lastIndex? p as).isSome = as.any p := by
  simp [lastIndex?, List.findIdx?_isSome]

namespace Catalog

/-- A set of names that were seen leaves out just what it holds. -/
theorem distinctNames_eq (seen : Std.TreeSet String) (names : List String) :
    distinctNames seen names =
      (names.filter fun name => !seen.contains (Text.lower name)).eraseDupsBy sameName := by
  induction names generalizing seen with
  | nil => rfl
  | cons name names ih =>
    rw [distinctNames]
    cases known : seen.contains (Text.lower name) with
    | true => simp [ih, known]
    | false =>
      rw [List.filter_cons_of_pos (by simp [known]), List.eraseDupsBy_cons, List.filter_filter]
      simp only [Bool.false_eq_true, if_false, ih]
      -- what is seen from now on is what was seen and the name itself
      refine congrArg (fun kept => name :: kept.eraseDupsBy sameName)
        (List.filter_congr fun other _ => ?_)
      by_cases same : Text.lower name = Text.lower other
      · simp [sameName, Std.TreeSet.contains_insert, same]
      · simp [sameName, Std.TreeSet.contains_insert, same, Ne.symm same]

variable (catalog : Catalog) (id : BoardId) (name : String)

theorem busNames_eq :
    catalog.busNames id = ((catalog.buses id).map (·.bus.name)).eraseDupsBy sameName := by
  simp [busNames, distinctNames_eq]

theorem map_bus_ownBuses : (catalog.ownBuses id).map (·.bus) = (catalog.board id).buses := by
  rw [ownBuses, List.map_map]
  exact List.zipIdx_map_fst 0 _

theorem ref_of_getElem?_ownBuses {position : Nat} {view : BusView}
    (here : (catalog.ownBuses id)[position]? = some view) : view.ref = ⟨id, position⟩ := by
  rw [ownBuses, List.getElem?_map, Option.map_eq_some_iff] at here
  obtain ⟨⟨bus, index⟩, found, rfl⟩ := here
  rw [List.getElem?_zipIdx, Option.map_eq_some_iff] at found
  obtain ⟨_, -, same⟩ := found
  cases same
  simp

theorem ownBus?_eq :
    (catalog.board id).ownBus? name =
      lastIndex? (fun view => sameName view.bus.name name) (catalog.ownBuses id) := by
  rw [Board.ownBus?, ← map_bus_ownBuses, lastIndex?_map]
  simp only [agrees_ofString, Function.comp_def]

/-- The last own bus of a name stands where it is searched. -/
theorem ownBus?_of_isLast {view : BusView}
    (isLast : IsLast (sameName ·.bus.name name) (catalog.ownBuses id) view) :
    ∃ position, (catalog.board id).ownBus? name = some position ∧ view.ref = ⟨id, position⟩ := by
  rw [isLast_iff_find? fun _ => Iff.rfl, ← bind_lastIndex?, ← ownBus?_eq] at isLast
  obtain ⟨position, found, here⟩ := Option.bind_eq_some_iff.1 isLast
  exact ⟨position, found, catalog.ref_of_getElem?_ownBuses id here⟩

theorem busIndex?_eq :
    catalog.busIndex? id name =
      lastIndex? (fun view => sameName view.bus.name name) (catalog.buses id) := by
  simp only [busIndex?, agrees_ofString]

theorem busNamed?_iff_isLast {view : BusView} :
    catalog.busNamed? id name = some view ↔
      IsLast (sameName ·.bus.name name) (catalog.buses id) view := by
  rw [busNamed?, busIndex?_eq, bind_lastIndex?, isLast_iff_find? fun _ => Iff.rfl]

theorem containsBus_iff_any :
    catalog.containsBus id name = (catalog.buses id).any fun view => sameName view.bus.name name := by
  simp only [containsBus, ownBus?_eq, isSome_lastIndex?, buses, List.any_flatMap]

/-- All ways of looking up a bus agree: whether its name is known, where it stands, and whether the
name is listed. A name leads to the last bus of that name on the most derived level that has one,
and names are listed in the first spelling of each, in the order in which they first appear. -/
theorem lookups_agree :
    let names := (catalog.buses id).map (·.bus.name)
    (catalog.containsBus id name = true ↔ (catalog.busIndex? id name).isSome = true) ∧
    ((catalog.busIndex? id name).isSome = true ↔
      ∃ entry ∈ catalog.busNames id, sameName entry name) ∧
    (∀ index, catalog.busIndex? id name = some index →
      ∃ view, (catalog.buses id)[index]? = some view ∧
        catalog.busNamed? id name = some view) ∧
    (∀ view, catalog.busNamed? id name = some view ↔
      ∃ level,
        IsLast (fun level => ∃ own ∈ catalog.ownBuses level, sameName own.bus.name name)
          (catalog.lineage id) level ∧
        IsLast (sameName ·.bus.name name) (catalog.ownBuses level) view) ∧
    (∀ view, catalog.busNamed? id name = some view →
      (catalog.board view.ref.board).ownBus? name = some view.ref.position) ∧
    (∀ entry, entry ∈ catalog.busNames id ↔ IsFirst (sameName · entry) names entry) ∧
    (catalog.busNames id).Pairwise fun entry other => ¬ sameName entry other ∧
      names.findIdx (sameName · entry) < names.findIdx (sameName · other) := by
  intro names
  have known : (catalog.busIndex? id name).isSome = true ↔
      ∃ view ∈ catalog.buses id, sameName view.bus.name name := by
    rw [busIndex?_eq, isSome_lastIndex?, List.any_eq_true]
  have listed (entry : String) :
      entry ∈ catalog.busNames id ↔ IsFirst (sameName · entry) names entry := by
    rw [busNames_eq]
    simp only [sameName_iff]
    exact mem_eraseDupsBy_iff Text.lower
  have found (view : BusView) : catalog.busNamed? id name = some view ↔
      ∃ level,
        IsLast (fun level => ∃ own ∈ catalog.ownBuses level, sameName own.bus.name name)
          (catalog.lineage id) level ∧
        IsLast (sameName ·.bus.name name) (catalog.ownBuses level) view := by
    rw [busNamed?_iff_isLast, buses, isLast_flatMap_iff]
  refine ⟨?_, ?_, fun index here => ?_, found, fun view here => ?_, listed, ?_⟩
  · rw [containsBus_iff_any, busIndex?_eq, isSome_lastIndex?]
  · rw [known]
    constructor
    · rintro ⟨view, member, same⟩
      obtain ⟨entry, kept, first⟩ := exists_mem_eraseDupsBy Text.lower
        (List.mem_map_of_mem (f := (·.bus.name)) member)
      refine ⟨entry, ?_, sameName_iff.2 (first.trans (sameName_iff.1 same))⟩
      rw [busNames_eq]
      exact kept
    · rintro ⟨entry, member, same⟩
      obtain ⟨view, inside, rfl⟩ := List.mem_map.1 ((listed entry).1 member).mem
      exact ⟨view, inside, same⟩
  · have member := known.1 (by rw [here, Option.isSome_some])
    have some : (catalog.busNamed? id name).isSome = true := by
      simpa [busNamed?, busIndex?_eq, bind_lastIndex?] using member
    obtain ⟨view, there⟩ := Option.isSome_iff_exists.1 some
    refine ⟨view, ?_, there⟩
    rwa [busNamed?, here] at there
  · obtain ⟨level, -, isLast⟩ := (found view).1 here
    obtain ⟨position, own, ref⟩ := catalog.ownBus?_of_isLast level name isLast
    rw [ref]
    exact own
  · have place (entry : String) :
        (names.map Text.lower).idxOf (Text.lower entry) = names.findIdx (sameName · entry) :=
      List.findIdx_map _ _ _
    rw [busNames_eq]
    refine (pairwise_eraseDupsBy Text.lower names).imp fun {entry other} earlier => ⟨?_, ?_⟩
    · intro same
      rw [sameName_iff.1 same] at earlier
      exact Nat.lt_irrefl _ earlier
    · rwa [place, place] at earlier

end Catalog

end Pinout
