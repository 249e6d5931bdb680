import Pinout.Proofs.Catalog.Embedding
import Pinout.Proofs.Catalog.Naming

/-! # Stacks of pins

However wings are plugged in, also wings that carry wings and boards on themselves: a pin that
covers another one came from a bus that the catalog has, the pin at the bottom came from none, and
it is the one that was read. A pin that is carried on keeps the bus it first came from, so what has
to be known of a wing is only that its own stacks are sound when it is plugged in.
-/

namespace Pinout

/-! ## Stacks -/

namespace Slot

def covering (slot : Slot) : List Pin :=
  (slot.top :: slot.below).dropLast

/-- All pins but the one at the bottom came from a bus that is known. -/
structure Stacked (known : BusRef → Prop) (slot : Slot) : Prop where
  bottom : slot.bottom.origin = none
  covering : ∀ pin ∈ slot.covering, ∃ origin, pin.origin = some origin ∧ known origin

variable {known known' : BusRef → Prop} {slot : Slot} {pin : Pin}

theorem Stacked.mono (stacked : slot.Stacked known) (more : ∀ ref, known ref → known' ref) :
    slot.Stacked known' where
  bottom := stacked.bottom
  covering pin member := by
    obtain ⟨origin, here, there⟩ := stacked.covering pin member
    exact ⟨origin, here, more origin there⟩

/-- A position with a single pin, which came from no wing. -/
theorem stacked_of_bare (alone : slot.below = []) (own : slot.top.origin = none) :
    slot.Stacked known := by
  obtain ⟨top, below⟩ := slot
  cases alone
  exact ⟨own, nofun⟩

theorem Stacked.push (stacked : slot.Stacked known) {origin : BusRef}
    (here : pin.origin = some origin) (there : known origin) : (slot.push pin).Stacked known where
  bottom := by rw [bottom_push, stacked.bottom]
  covering := List.forall_mem_cons.2 ⟨⟨origin, here, there⟩, stacked.covering⟩

/-- The pin on top is at the bottom too, or it covers another one. -/
theorem Stacked.known_of_top (stacked : slot.Stacked known) {origin : BusRef}
    (here : slot.top.origin = some origin) : known origin := by
  obtain ⟨top, below⟩ := slot
  cases below with
  | nil => cases stacked.bottom.symm.trans here
  | cons pin below =>
    obtain ⟨origin', own, there⟩ := stacked.covering top List.mem_cons_self
    cases own.symm.trans here
    exact there

end Slot

namespace Wing

variable {known : BusRef → Prop} {wingBus : BusRef} {wings slots : List Slot}

theorem stacked_stackOver (there : known wingBus) (ofWing : ∀ wing ∈ wings, wing.Stacked known)
    (own : ∀ slot ∈ slots, slot.Stacked known) :
    ∀ slot ∈ stackOver wingBus wings slots, slot.Stacked known := by
  fun_induction stackOver wingBus wings slots with
  | case1 wing wings slot slots ih =>
    obtain ⟨first, others⟩ := List.forall_mem_cons.1 ofWing
    obtain ⟨here, later⟩ := List.forall_mem_cons.1 own
    refine List.forall_mem_cons.2 ⟨here.push rfl ?_, ih others later⟩
    -- the pin came from the wing itself, or the wing carried it
    cases carried : wing.top.origin with
    | none => exact there
    | some origin => exact first.known_of_top carried
  | case2 slots => exact own
  | case3 => exact nofun

theorem stacked_stackAt (there : known wingBus) (ofWing : ∀ wing ∈ wings, wing.Stacked known)
    (own : ∀ slot ∈ slots, slot.Stacked known) (offset : Nat) :
    ∀ slot ∈ stackAt wingBus offset wings slots, slot.Stacked known := by
  intro slot member
  rcases List.mem_append.1 member with before | behind
  · exact own slot (List.mem_of_mem_take before)
  · exact stacked_stackOver there ofWing (fun slot inside => own slot (List.mem_of_mem_drop inside))
      slot behind

end Wing

/-! ## Catalogs -/

namespace Catalog

def HasBus (catalog : Catalog) (ref : BusRef) : Prop :=
  ∃ bus, catalog.bus? ref = some bus

def Stacked (catalog : Catalog) : Prop :=
  ∀ ref bus, catalog.bus? ref = some bus → ∀ slot ∈ bus.slots, slot.Stacked catalog.HasBus

variable {catalog plugged : Catalog}

theorem hasBus_of_wired (same : plugged.wired = catalog.wired) :
    plugged.HasBus = catalog.HasBus := by
  have known (catalog : Catalog) (ref : BusRef) :
      catalog.HasBus ref ↔ ∃ bus, catalog.wired.bus? ref = some bus := by
    rw [bus?_wired, HasBus]
    cases catalog.bus? ref <;> simp
  funext ref
  exact propext ((known plugged ref).trans (same ▸ (known catalog ref).symm))

theorem bus?_modifyBus (catalog : Catalog) (ref ref' : BusRef) (change : Bus → Bus) :
    (catalog.modifyBus ref change).bus? ref' =
      if ref' = ref then (catalog.bus? ref).map change else catalog.bus? ref' := by
  obtain ⟨id, position⟩ := ref
  obtain ⟨id', position'⟩ := ref'
  simp only [bus?, modifyBus, modifyBoard, board?, Array.getElem?_modify, BusRef.mk.injEq]
  by_cases here : id = id'
  · subst here
    cases catalog.entries[id]? with
    | none => simp
    | some entry => by_cases same : position' = position <;> simp [same, Ne.symm]
  · simp [here, Ne.symm here]

theorem Stacked.plugBus? (stacked : catalog.Stacked) {wingBus target : BusRef} {offset : Nat}
    (placed : Wing.plugBus? catalog wingBus target offset = some plugged) : plugged.Stacked := by
  have same := Wing.wired_plugBus? placed
  simp only [Wing.plugBus?, Option.bind_eq_bind, Option.bind_eq_some_iff,
    Option.ite_none_right_eq_some, Option.some.injEq] at placed
  obtain ⟨wing, ofWing, bus, here, -, rfl⟩ := placed
  intro ref bus' found
  rw [hasBus_of_wired same]
  rw [bus?_modifyBus, here] at found
  split at found
  · cases found
    exact Wing.stacked_stackAt ⟨wing, ofWing⟩ (stacked wingBus wing ofWing)
      (stacked target bus here) offset
  · exact stacked ref bus' found

theorem Stacked.plugBuses (stacked : catalog.Stacked) (offset : Nat)
    (pairs : List (BusRef × BusRef)) : (Wing.plugBuses catalog offset pairs).1.Stacked := by
  induction pairs generalizing catalog offset with
  | nil => exact stacked
  | cons pair pairs ih =>
    rw [Wing.plugBuses]
    split
    · next plugged placed => exact ih (stacked.plugBus? placed) 0
    · exact ih stacked 0

theorem Stacked.plug (stacked : catalog.Stacked) (board wing : BoardId) (token : String) :
    (Wing.plug catalog board wing token).1.Stacked := by
  simp only [Wing.plug]
  split
  · exact stacked
  · exact stacked.plugBuses _ _

theorem bus?_load (catalog : Catalog) (kind : BoardKind) (source : String) (ref : BusRef) :
    (catalog.load kind source).1.bus? ref =
      if ref.board < catalog.entries.size then catalog.bus? ref
      else ((Definition.read source).boards[ref.board - catalog.entries.size]?).bind
        (·.buses[ref.position]?) := by
  rw [bus?, load_fst, board?_link, board?_registerAll]
  split
  · rfl
  · rw [Option.bind_map]
    refine Option.bind_congr fun board _ => ?_
    cases kind <;> rfl

theorem Stacked.load (stacked : catalog.Stacked) (kind : BoardKind) (source : String) :
    (catalog.load kind source).1.Stacked := by
  intro ref bus here slot member
  rw [bus?_load] at here
  split at here
  · -- a bus that was known is known
    refine (stacked ref bus here slot member).mono fun ref' ⟨bus', there⟩ => ⟨bus', ?_⟩
    obtain ⟨board, known, -⟩ := Option.bind_eq_some_iff.1 there
    rw [bus?_load, if_pos (lt_of_board? known), there]
  · obtain ⟨board, read, there⟩ := Option.bind_eq_some_iff.1 here
    obtain ⟨alone, own⟩ := Definition.bare_read source board (List.mem_of_getElem? read) bus
      (List.mem_of_getElem? there) slot member
    exact Slot.stacked_of_bare alone own

theorem bus?_of_mem_buses {id : BoardId} {view : BusView} (member : view ∈ catalog.buses id) :
    catalog.bus? view.ref = some view.bus := by
  obtain ⟨ancestor, -, member⟩ := List.mem_flatMap.1 member
  obtain ⟨⟨bus, position⟩, inside, rfl⟩ := List.mem_map.1 member
  have here := List.mem_zipIdx_iff_getElem?.1 inside
  rw [board] at here
  rw [bus?]
  cases known : catalog.board? ancestor with
  | none =>
    rw [known] at here
    cases here
  | some board =>
    rw [known] at here
    exact here

/-- What is looked up about the owner of a pin is there. -/
theorem Stacked.exists_owner (stacked : catalog.Stacked) {id : BoardId} {view : PinView}
    (member : view ∈ catalog.pins id) :
    ∃ board bus, catalog.board? view.owner.board = some board ∧
      board.buses[view.owner.position]? = some bus ∧ view.isWing = board.isWing ∧
      view.additions = Additions.mergedWith bus.additions view.pin.additions := by
  obtain ⟨holder, here, inside⟩ := List.mem_flatMap.1 member
  obtain ⟨⟨slot, index⟩, standing, rfl⟩ := List.mem_map.1 inside
  have held := bus?_of_mem_buses here
  have own := stacked holder.ref holder.bus held slot (List.fst_mem_of_mem_zipIdx standing)
  obtain ⟨bus, found, additions⟩ :
      ∃ bus, catalog.bus? (slot.top.origin.getD holder.ref) = some bus ∧
        catalog.ownerAdditions holder.bus slot.top = bus.additions := by
    rw [ownerAdditions]
    cases carried : slot.top.origin with
    | none => exact ⟨holder.bus, held, rfl⟩
    | some origin =>
      obtain ⟨bus, found⟩ := own.known_of_top carried
      exact ⟨bus, found, by simp [found]⟩
  obtain ⟨board, here, there⟩ := Option.bind_eq_some_iff.1 found
  refine ⟨board, bus, here, there, ?_, ?_⟩
  · exact congrArg (·.isWing) (by rw [Catalog.board, here]; rfl : catalog.board _ = board)
  · exact congrArg (Additions.mergedWith · slot.top.additions) additions

end Catalog

/-! ## Histories -/

def Board.chipPins (board : Board) : List (List Pin) :=
  board.buses.map fun bus => bus.slots.map (·.bottom)

theorem Board.steady_chipPins : Steady (·.chipPins) where
  wired board := by
    have bottom (slot : Slot) : slot.wired.bottom = slot.bottom := rfl
    simp [chipPins, Board.wired, Bus.wired, Function.comp_def, bottom]
  reparent board parentName := rfl
  ofKind board kind := by cases kind <;> rfl

namespace Catalog

inductive Event where
  | load (text : Load)
  | plug (placement : Wing.Placement)
deriving Repr, DecidableEq

def Event.change : Event → Change
  | .load text => .load text.kind text.source
  | .plug placement => .plug placement.board placement.wing placement.token

/-- What events make of an empty catalog, whatever comes of each load. -/
def afterEvents (events : List Event) : Catalog :=
  after (events.map (·.change))

def boardsRead (events : List Event) : List Registration :=
  registrations (events.map (·.change))

theorem stacked_afterEvents (events : List Event) : (afterEvents events).Stacked := by
  induction events using List.reverseRecOn with
  | nil => exact fun ref bus here => by simp [afterEvents, after, bus?, board?] at here
  | append_singleton events event ih =>
    rw [afterEvents, List.map_append, List.map_singleton, after_concat]
    cases event with
    | load text => exact ih.load text.kind text.source
    | plug placement => exact ih.plug placement.board placement.wing placement.token

theorem bare_boardsRead (events : List Event) :
    ∀ registration ∈ boardsRead events, registration.board.Bare := by
  intro registration member
  obtain ⟨change, there, member⟩ := List.mem_flatMap.1 member
  obtain ⟨event, -, rfl⟩ := List.mem_map.1 there
  cases event with
  | load text =>
    obtain ⟨board, here, rfl⟩ := List.mem_map.1 member
    exact Definition.bare_read text.source board here
  | plug placement => cases member

/-- Whatever texts are loaded and whatever wings are plugged in, in whatever order: a pin that
covers another one came from a bus of the catalog, and the one at the bottom from none. So the owner
of a pin that is shown, whether it is a wing, and its additions are all there. At the bottom are the
pins that were read, one for each position. -/
theorem stacks_after (events : List Event) :
    let catalog := afterEvents events
    (∀ ref bus, catalog.bus? ref = some bus → ∀ slot ∈ bus.slots,
      slot.bottom.origin = none ∧
        ∀ pin ∈ slot.covering, ∃ origin other, pin.origin = some origin ∧
          catalog.bus? origin = some other) ∧
      (∀ id, ∀ view ∈ catalog.pins id, ∃ board bus,
        catalog.board? view.owner.board = some board ∧
        board.buses[view.owner.position]? = some bus ∧ view.isWing = board.isWing ∧
        view.additions = Additions.mergedWith bus.additions view.pin.additions) ∧
      (∀ registration ∈ boardsRead events, registration.board.Bare) ∧
      ∀ id, (catalog.board? id).map (·.chipPins) =
        (boardsRead events)[id]?.map (·.board.chipPins) := by
  intro catalog
  have stacked : catalog.Stacked := stacked_afterEvents events
  refine ⟨fun ref bus here slot member => ?_, fun id view => stacked.exists_owner,
    bare_boardsRead events, (records_after _).parts Board.steady_chipPins⟩
  obtain ⟨bottom, covering⟩ := stacked ref bus here slot member
  refine ⟨bottom, fun pin covers => ?_⟩
  obtain ⟨origin, own, other, there⟩ := covering pin covers
  exact ⟨origin, other, own, there⟩

/-- A wing on a wing is carried on without the pin that it covers there. -/
example :
    let events : List Event :=
      [.load ⟨.board, "One \x7b A : P1 \x7d"⟩,
        .load ⟨.wing, "LED \x7b D : L0 \x7d Hub \x7b X : H0 \x7d"⟩,
        .plug ⟨2, 1, "X"⟩, .plug ⟨0, 2, "A"⟩]
    ((afterEvents events).pins 0).map (fun view => (view.pin.name, view.owner, view.slot.depth)) =
      [(some "L0", ⟨1, 0⟩, 1)] := by
  decide +kernel

end Catalog

end Pinout
