import Pinout.Proofs.BusRange
import Pinout.Proofs.Catalog.Headers
import Pinout.Proofs.Catalog.Moving
import Pinout.Proofs.Wing.Stacks
import Std.Data.String.ToInt

/-! # Choosing by intervals

Ranges are matched by name, pin by pin, but what they choose is an interval: the positions of a bus
whose indices lie between the bounds. Buses come in the order in which the entries of a filter first
lead to them, and positions in the order of the bus.
-/

namespace Pinout

namespace Catalog

variable {catalog : Catalog} {id : BoardId}

theorem eq_of_mem_buses {a b : BusView} (member : a ∈ catalog.buses id)
    (member' : b ∈ catalog.buses id) (same : a.ref = b.ref) : a = b := by
  have here := bus?_of_mem_buses member
  rw [same, bus?_of_mem_buses member'] at here
  cases a
  cases b
  cases same
  cases here
  rfl

theorem ref_of_mem_pinsOf {bus : BusView} {view : PinView} (member : view ∈ catalog.pinsOf bus) :
    view.ref.bus = bus.ref ∧ view.busName = bus.bus.name ∧ view.busSize = bus.bus.slots.length := by
  obtain ⟨⟨slot, index⟩, -, rfl⟩ := List.mem_map.1 member
  exact ⟨rfl, rfl, rfl⟩

theorem mem_pinsOf_of_mem_pins {bus : BusView} (member : bus ∈ catalog.buses id) {view : PinView}
    (here : view ∈ catalog.pins id) (same : bus.ref = view.ref.bus) :
    view ∈ catalog.pinsOf bus := by
  obtain ⟨bus', member', inside⟩ := List.mem_flatMap.1 here
  rw [(ref_of_mem_pinsOf inside).1] at same
  rwa [eq_of_mem_buses member member' same]

theorem pairwise_index_pinsOf (catalog : Catalog) (bus : BusView) :
    (catalog.pinsOf bus).Pairwise fun a b => a.ref.index < b.ref.index := by
  have indices : (bus.bus.slots.zipIdx.map Prod.snd).Pairwise (· < ·) := by
    rw [List.zipIdx_map_snd]
    exact List.pairwise_lt_range'
  rw [pinsOf, List.pairwise_map]
  exact List.pairwise_map.1 indices

end Catalog

namespace Constraint.PinFilter

variable {catalog : Catalog} {board : BoardId} {entry : String} {view : PinView}

def busOf? (catalog : Catalog) (board : BoardId) (entry : String) : Option BusView :=
  (catalog.busNamed? board entry).or <|
    (BusRange.parse entry).toOption.bind fun range => catalog.busNamed? board range.name

def firstEntry (catalog : Catalog) (board : BoardId) (entries : List String) (bus : BusRef) : Nat :=
  entries.findIdx fun entry => (busOf? catalog board entry).map (·.ref) == some bus

/-- A name chooses all positions of its bus, and a range those whose indices lie between its bounds,
if the bus has several. -/
inductive Chooses (catalog : Catalog) (board : BoardId) (entry : String) (view : PinView) : Prop
  | named {bus : BusView} :
    catalog.busNamed? board entry = some bus → bus.ref = view.ref.bus →
    Chooses catalog board entry view
  | between {range : BusRange} {bus : BusView} :
    catalog.busNamed? board entry = none → BusRange.parse entry = .ok range →
    catalog.busNamed? board range.name = some bus → bus.ref = view.ref.bus →
    1 < bus.bus.slots.length → min range.first.toInt range.last.toInt ≤ view.ref.index →
    view.ref.index ≤ max range.first.toInt range.last.toInt → Chooses catalog board entry view

theorem mention?_eq_error_iff :
    (∃ error, mention? (catalog.busesByName board) entry = .error error) ↔
      catalog.busNamed? board entry = none ∧ ∃ error, BusRange.parse entry = .error error := by
  rw [mention?_eq]
  cases catalog.busNamed? board entry with
  | some bus => simp
  | none =>
    cases BusRange.parse entry <;> simp [Except.map]

theorem map_bus_of_mention? {mention : Option Mention}
    (read : mention? (catalog.busesByName board) entry = .ok mention) :
    mention.map (·.bus) = busOf? catalog board entry := by
  rw [busOf?]
  rcases mention?_eq_ok read with ⟨bus, named, rfl⟩ | ⟨unnamed, range, parsed, rfl⟩
  · rw [named, Option.some_or]
    rfl
  · rw [unnamed, parsed, Option.none_or, Option.map_map]
    exact Option.map_id'

theorem lower_canonicalName (view : PinView) :
    Text.lower view.canonicalName = Text.lower view.busName ++ view.indexText :=
  view.lower_indexed view.busName

/-- A position has a name of a range of its bus if and only if its index lies between the bounds.
The only position of a bus has no number. -/
theorem lower_canonicalName_mem_iff {range : BusRange} (named : sameName view.busName range.name) :
    Text.lower view.canonicalName ∈ range.names.map Text.lower ↔
      1 < view.busSize ∧ min range.first.toInt range.last.toInt ≤ view.ref.index ∧
        view.ref.index ≤ max range.first.toInt range.last.toInt := by
  have here (k : Nat) : Text.lower (range.nameAt k) = Text.lower view.canonicalName ↔
      1 < view.busSize ∧ range.indexAt k = view.ref.index := by
    rw [BusRange.nameAt, Text.lower_append_toString_int, lower_canonicalName, sameName_iff.1 named,
      String.append_right_inj, PinView.indexText]
    -- the name of the bus cancels, and equal decimals are equal numbers
    split
    · next several =>
      have decimal : toString view.ref.index = (view.ref.index : Int).repr := rfl
      rw [decimal, Int.toString_eq_repr, Int.repr_inj, and_iff_right several]
    · next alone =>
      exact iff_of_false (Text.toString_int_ne_empty _) fun both => alone both.1
  simp only [BusRange.names_eq, List.map_map, List.mem_map, List.mem_range, Function.comp_apply, here,
    ← range.exists_indexAt_eq_iff]
  constructor
  · rintro ⟨k, inside, several, same⟩
    exact ⟨several, k, inside, same⟩
  · rintro ⟨several, k, inside, same⟩
    exact ⟨k, inside, several, same⟩

/-! ## Mentions and what they cover -/

theorem chooses_iff_of_named {bus : BusView} (named : catalog.busNamed? board entry = some bus) :
    Chooses catalog board entry view ↔ bus.ref = view.ref.bus := by
  constructor
  · intro chooses
    cases chooses with
    | named named' same =>
      cases named.symm.trans named'
      exact same
    | between unnamed => cases named.symm.trans unnamed
  · exact .named named

theorem chooses_iff_of_range {range : BusRange} {bus : BusView}
    (unnamed : catalog.busNamed? board entry = none) (parsed : BusRange.parse entry = .ok range)
    (found : catalog.busNamed? board range.name = some bus) :
    Chooses catalog board entry view ↔
      bus.ref = view.ref.bus ∧ 1 < bus.bus.slots.length ∧
        min range.first.toInt range.last.toInt ≤ view.ref.index ∧
        view.ref.index ≤ max range.first.toInt range.last.toInt := by
  constructor
  · intro chooses
    cases chooses with
    | named named => cases unnamed.symm.trans named
    | between _ parsed' found' same several low high =>
      cases parsed.symm.trans parsed'
      cases found.symm.trans found'
      exact ⟨same, several, low, high⟩
  · rintro ⟨same, several, low, high⟩
    exact .between unnamed parsed found same several low high

/-- An entry that chooses a position leads to its bus. -/
theorem Chooses.busOf? (chooses : Chooses catalog board entry view) :
    ∃ bus, busOf? catalog board entry = some bus ∧ bus.ref = view.ref.bus := by
  cases chooses with
  | @named bus named same => exact ⟨bus, by rw [PinFilter.busOf?, named, Option.some_or], same⟩
  | @between range bus unnamed parsed found same =>
    refine ⟨bus, ?_, same⟩
    rw [PinFilter.busOf?, unnamed, parsed, Option.none_or]
    exact found

/-- A mention covers what its entry chooses. -/
theorem covers_iff {mention : Mention}
    (read : mention? (catalog.busesByName board) entry = .ok (some mention))
    (member : view ∈ catalog.pins board) :
    mention.covers view = true ↔ Chooses catalog board entry view := by
  rcases mention?_eq_ok read with ⟨bus, named, same⟩ | ⟨unnamed, range, parsed, same⟩
  · cases same
    simp only [chooses_iff_of_named named, Mention.covers, Bool.and_true, decide_eq_true_eq]
  · obtain ⟨bus, found, rfl⟩ := Option.map_eq_some_iff.1 same.symm
    simp only [chooses_iff_of_range unnamed parsed found, Mention.covers, Bool.and_eq_true,
      decide_eq_true_eq, Std.TreeSet.contains_ofList, List.contains_iff_mem]
    refine and_congr_right fun same => ?_
    have holds := Catalog.mem_buses_of_busNamed? found
    obtain ⟨-, name, size⟩ :=
      Catalog.ref_of_mem_pinsOf (Catalog.mem_pinsOf_of_mem_pins holds member same)
    rw [lower_canonicalName_mem_iff (name ▸ Catalog.sameName_of_busNamed? found), size]

/-! ## What a filter chooses -/

theorem select_eq_error_iff {entries : List String} :
    (∃ error, (PinFilter.only entries).select catalog board = .error error) ↔
      ∃ entry ∈ entries, catalog.busNamed? board entry = none ∧
        ∃ error, BusRange.parse entry = .error error := by
  simp only [← mention?_eq_error_iff, ← mapM_eq_error_iff, select]
  cases entries.mapM (mention? (catalog.busesByName board)) with
  | error error => exact ⟨fun _ => ⟨error, rfl⟩, fun _ => ⟨error, rfl⟩⟩
  | ok found =>
    constructor
    · rintro ⟨error, h⟩
      cases h
    · rintro ⟨error, h⟩
      cases h

section

variable {entries : List String} {found : List (Option Mention)}
  (read : entries.mapM (mention? (catalog.busesByName board)) = .ok found)
include read

theorem map_ref_mentions :
    ((found.filterMap id).map (·.bus)).map (·.ref) =
      entries.filterMap fun entry => (busOf? catalog board entry).map (·.ref) := by
  induction mapM_eq_ok_iff.1 read with
  | nil => rfl
  | cons here rest ih =>
    have leads := map_bus_of_mention? here
    rw [List.filterMap_cons, List.filterMap_cons, ← leads, ← ih (mapM_eq_ok_iff.2 rest)]
    cases ‹Option Mention› <;> rfl

/-- Buses come in the order of the entries that first lead to them, and each has its positions in
order. -/
theorem pairwise_mentioned :
    (mentioned catalog (found.filterMap id)).Pairwise fun a b =>
      firstEntry catalog board entries a.ref.bus < firstEntry catalog board entries b.ref.bus ∨
        a.ref.bus = b.ref.bus ∧ a.ref.index < b.ref.index := by
  refine List.pairwise_flatMap.2 ⟨fun bus _ => ?_, ?_⟩
  · refine ((catalog.pairwise_index_pinsOf bus).filter _).imp_of_mem fun here there ascends => ?_
    have same := (Catalog.ref_of_mem_pinsOf (List.mem_of_mem_filter here)).1
    have same' := (Catalog.ref_of_mem_pinsOf (List.mem_of_mem_filter there)).1
    exact .inr ⟨same.trans same'.symm, ascends⟩
  · refine (pairwise_eraseDupsBy BusView.ref ((found.filterMap id).map (·.bus))).imp ?_
    intro bus bus' earlier a here b there
    rw [map_ref_mentions read] at earlier
    rw [(Catalog.ref_of_mem_pinsOf (List.mem_of_mem_filter here)).1,
      (Catalog.ref_of_mem_pinsOf (List.mem_of_mem_filter there)).1]
    exact .inl (findIdx_lt_of_idxOf_filterMap_lt earlier)

/-- Where a filter can be read, an entry that leads to a bus is a mention of it. -/
theorem exists_mention {bus : BusView} (member : entry ∈ entries)
    (leads : busOf? catalog board entry = some bus) :
    ∃ mention, mention? (catalog.busesByName board) entry = .ok (some mention) ∧
      mention.bus = bus := by
  cases means : mention? (catalog.busesByName board) entry with
  | error error =>
    obtain ⟨error', fails⟩ := mapM_eq_error_iff.2 ⟨entry, member, error, means⟩
    cases read.symm.trans fails
  | ok mention =>
    have same := map_bus_of_mention? means
    rw [leads, Option.map_eq_some_iff] at same
    obtain ⟨mention, rfl, same⟩ := same
    exact ⟨mention, rfl, same⟩

/-- A position is chosen if and only if some entry chooses it. -/
theorem mem_mentioned_iff :
    view ∈ mentioned catalog (found.filterMap id) ↔
      view ∈ catalog.pins board ∧ ∃ entry ∈ entries, Chooses catalog board entry view := by
  constructor
  · intro member
    have shown := mem_pins_of_mem_mentioned read member
    obtain ⟨bus, kept, here⟩ := List.mem_flatMap.1 member
    obtain ⟨mention, listed, covers⟩ := List.any_eq_true.1 (List.mem_filter.1 here).2
    obtain ⟨entry, there, means⟩ := (mem_mentions_iff read).1 listed
    exact ⟨shown, entry, there, (covers_iff means shown).1 covers⟩
  · rintro ⟨shown, entry, there, chooses⟩
    obtain ⟨bus, leads, same⟩ := chooses.busOf?
    obtain ⟨mention, means, rfl⟩ := exists_mention read there leads
    have listed := (mem_mentions_iff read).2 ⟨entry, there, means⟩
    -- an earlier mention of the bus may stand for this one
    obtain ⟨kept, inList, alike⟩ :=
      exists_mem_eraseDupsBy BusView.ref (List.mem_map_of_mem (f := (·.bus)) listed)
    refine List.mem_flatMap.2 ⟨kept, inList, List.mem_filter.2 ⟨?_, ?_⟩⟩
    · exact Catalog.mem_pinsOf_of_mem_pins (mem_buses_of_mentioned read inList) shown
        (alike.trans same)
    · exact List.any_eq_true.2 ⟨mention, listed, (covers_iff means shown).2 chooses⟩

end

/-- A filter fails where an entry is neither the name of a bus nor a range. Otherwise it chooses the
positions of the buses that are named and, of those named by a range, the ones between the bounds,
none of them twice, by bus in the order of the entries that first lead to one and then by index. -/
theorem select_only (catalog : Catalog) (board : BoardId) (entries : List String) :
    ((∃ error, (PinFilter.only entries).select catalog board = .error error) ↔
      ∃ entry ∈ entries, catalog.busNamed? board entry = none ∧
        ∃ error, BusRange.parse entry = .error error) ∧
      ∀ views, (PinFilter.only entries).select catalog board = .ok views →
        (views.map (·.ref)).Nodup ∧
          (views.Pairwise fun a b =>
            firstEntry catalog board entries a.ref.bus <
                firstEntry catalog board entries b.ref.bus ∨
              a.ref.bus = b.ref.bus ∧ a.ref.index < b.ref.index) ∧
          ∀ view, view ∈ views ↔
            view ∈ catalog.pins board ∧ ∃ entry ∈ entries, Chooses catalog board entry view := by
  refine ⟨select_eq_error_iff, fun views chosen => ?_⟩
  obtain ⟨found, read, rfl⟩ := select_eq_ok chosen
  have ordered := pairwise_mentioned read
  refine ⟨List.pairwise_map.2 (ordered.imp fun {a b} before same => ?_), ordered,
    fun view => mem_mentioned_iff read⟩
  rw [same] at before
  rcases before with before | ⟨-, before⟩
  · exact Nat.lt_irrefl _ before
  · exact Nat.lt_irrefl _ before

/-- A board whose bus `a` stands in front of the bus `A` it inherits. -/
def shadowing : Catalog :=
  let inherited : List Bus := [.wiredTo "A" [some "P1", some "P2"], .wiredTo "CLK" [some "P9"]]
  let own : List Bus := [.wiredTo "B" [some "Q6", none],
    .wiredTo "a" [some "Q1", some "Q2", some "Q3", some "Q4", some "Q5"]]
  { entries := #[{ board := { names := ["base"], buses := inherited } },
      { board := { names := ["derived"], buses := own }, parent := some 0 }] }

/-- The first entry leads to a bus of a single pin and chooses none of it. -/
theorem select_only_shadowing :
    let entries := ["CLK[0:3]", "A[1:-1]", "b", "Z", "AH", "clk", "A[4:3]"]
    ∃ views, (PinFilter.only entries).select shadowing 1 = .ok views ∧
      views.map (·.ref) =
        [⟨⟨0, 1⟩, 0⟩, ⟨⟨1, 1⟩, 0⟩, ⟨⟨1, 1⟩, 1⟩, ⟨⟨1, 1⟩, 3⟩, ⟨⟨1, 1⟩, 4⟩, ⟨⟨1, 0⟩, 0⟩, ⟨⟨1, 0⟩, 1⟩] ∧
      (views.map (·.ref)).Nodup ∧
      ∀ view, view ∈ views ↔
        view ∈ shadowing.pins 1 ∧ ∃ entry ∈ entries, Chooses shadowing 1 entry view := by
  intro entries
  have refs : ((PinFilter.only entries).select shadowing 1).toOption.map (List.map (·.ref)) =
      some [⟨⟨0, 1⟩, 0⟩, ⟨⟨1, 1⟩, 0⟩, ⟨⟨1, 1⟩, 1⟩, ⟨⟨1, 1⟩, 3⟩, ⟨⟨1, 1⟩, 4⟩, ⟨⟨1, 0⟩, 0⟩,
        ⟨⟨1, 0⟩, 1⟩] := by
    decide +kernel
  cases chosen : (PinFilter.only entries).select shadowing 1 with
  | error error =>
    rw [chosen] at refs
    cases refs
  | ok views =>
    rw [chosen] at refs
    obtain ⟨single, -, members⟩ := (select_only shadowing 1 entries).2 views chosen
    exact ⟨views, rfl, Option.some.inj refs, single, members⟩

end Constraint.PinFilter

end Pinout
