import Mathlib.Data.List.Forall2
import Pinout.Proofs.Wing.Landing

/-! # Where wings show

A board has no copy of what it inherits: it shows the buses of its ancestors themselves. So a wing
on an inherited bus shows on every board that has this bus, the ancestor and its other descendants
included. Positions that no wing bus came to lie on are shown as before, by all boards and whatever
was stacked on what; the stacks on the others have grown.
-/

namespace Pinout

/-! ## Views of positions -/

namespace Catalog

variable {catalog plugged : Catalog} {id : BoardId}

def slot? (catalog : Catalog) (ref : PinRef) : Option Slot :=
  (catalog.bus? ref.bus).bind (·.slots[ref.index]?)

/-- The view of a position, the same for all boards that show it. -/
def view? (catalog : Catalog) (ref : PinRef) : Option PinView :=
  (catalog.bus? ref.bus).bind fun bus =>
    bus.slots[ref.index]?.map (catalog.pinView ⟨ref.bus, bus⟩ bus.slots.length ref.index)

theorem mem_pins_iff {view : PinView} :
    view ∈ catalog.pins id ↔
      view.ref.bus ∈ (catalog.buses id).map (·.ref) ∧ catalog.view? view.ref = some view := by
  constructor
  · intro member
    obtain ⟨bus, inside, own⟩ := List.mem_flatMap.1 member
    obtain ⟨⟨slot, index⟩, here, rfl⟩ := List.mem_map.1 own
    refine ⟨List.mem_map.2 ⟨bus, inside, rfl⟩, ?_⟩
    have held : catalog.bus? bus.ref = some bus.bus := bus?_of_mem_buses inside
    have stands : bus.bus.slots[index]? = some slot := List.mem_zipIdx_iff_getElem?.1 here
    simp [view?, pinView, held, stands]
  · rintro ⟨shown, here⟩
    obtain ⟨bus, inside, same⟩ := List.mem_map.1 shown
    have held : catalog.bus? view.ref.bus = some bus.bus := same ▸ bus?_of_mem_buses inside
    rw [view?, held, Option.bind_some, ← same] at here
    obtain ⟨slot, stands, own⟩ := Option.map_eq_some_iff.1 here
    exact List.mem_flatMap.2 ⟨bus, inside,
      List.mem_map.2 ⟨(slot, view.ref.index), List.mem_zipIdx_iff_getElem?.2 stands, own⟩⟩

theorem map_ref_pins (same : plugged.wired = catalog.wired) (id : BoardId) :
    (plugged.pins id).map (·.ref) = (catalog.pins id).map (·.ref) := by
  have refs (catalog : Catalog) :
      (catalog.pins id).map (·.ref) = (catalog.wirings id).map (·.ref) := by
    rw [wirings, List.map_map]
    rfl
  rw [refs, refs, ← plugged.wirings_wired, same, catalog.wirings_wired]

theorem map_ref_buses (same : plugged.wired = catalog.wired) (id : BoardId) :
    (plugged.buses id).map (·.ref) = (catalog.buses id).map (·.ref) := by
  have refs (catalog : Catalog) :
      (catalog.buses id).map (·.ref) = (catalog.wired.buses id).map (·.ref) := by
    rw [buses_wired, List.map_map]
    rfl
  rw [refs, refs catalog, same]

theorem pinView_wired (catalog : Catalog) (bus : BusView) (size index : Nat) (slot : Slot) :
    catalog.wired.pinView bus.wired size index slot = catalog.pinView bus size index slot := by
  have additions : catalog.wired.ownerAdditions bus.wired.bus slot.top =
      catalog.ownerAdditions bus.bus slot.top := by
    simp only [ownerAdditions, bus?_wired, Option.map_map]
    rfl
  simp only [pinView, board_wired, additions]
  rfl

/-- Beside the wiring, the view of a position depends on the stack there and on nothing else. -/
theorem view?_congr (same : plugged.wired = catalog.wired) {ref : PinRef}
    (stack : plugged.slot? ref = catalog.slot? ref) : plugged.view? ref = catalog.view? ref := by
  have split (catalog : Catalog) : catalog.view? ref =
      (catalog.slot? ref).bind fun slot => (catalog.wired.bus? ref.bus).map fun bus =>
        catalog.wired.pinView ⟨ref.bus, bus⟩ bus.slots.length ref.index slot := by
    rw [view?, slot?, bus?_wired]
    cases catalog.bus? ref.bus with
    | none => rfl
    | some bus =>
      have wired := catalog.pinView_wired ⟨ref.bus, bus⟩ bus.slots.length ref.index
      simp only [BusView.wired] at wired
      cases here : bus.slots[ref.index]? <;> simp [here, wired]
  rw [split, split catalog, same, stack]

theorem slot?_eq_map_view? (catalog : Catalog) (ref : PinRef) :
    catalog.slot? ref = (catalog.view? ref).map (·.slot) := by
  rw [slot?, view?]
  cases catalog.bus? ref.bus with
  | none => rfl
  | some bus => cases here : bus.slots[ref.index]? <;> simp [here, pinView]

theorem slot?_cover (catalog : Catalog) (pin? : PinRef → Option Pin) (ref : PinRef) :
    (catalog.cover pin?).slot? ref = (catalog.slot? ref).map (·.cover (pin? ref)) := by
  rw [slot?, bus?_cover, slot?]
  cases catalog.bus? ref.bus with
  | none => rfl
  | some bus => simp [Bus.cover]

end Catalog

/-! ## Growing stacks -/

theorem Slot.cover_eq_foldl (slot : Slot) (pin? : Option Pin) :
    slot.cover pin? = pin?.toList.foldl Slot.push slot := by
  cases pin? <;> rfl

theorem Slot.depth_foldl_push (slot : Slot) (pins : List Pin) :
    (pins.foldl Slot.push slot).depth = slot.depth + pins.length := by
  induction pins generalizing slot with
  | nil => rfl
  | cons pin pins ih =>
    rw [List.foldl_cons, ih, List.length_cons]
    simp only [Slot.depth, Slot.push, List.length_cons]
    omega

namespace Wing

namespace Landing

def Covers (landing : Landing) (ref : PinRef) : Prop :=
  ref.bus = landing.target.ref ∧ landing.offset ≤ ref.index ∧
    ref.index < landing.offset + landing.wing.bus.slots.length

theorem pin?_eq_none_iff {landing : Landing} {ref : PinRef} :
    landing.pin? ref = none ↔ ¬ landing.Covers ref := by
  rw [Option.eq_none_iff_forall_ne_some, ← not_exists, not_iff_not]
  simp only [pin?_eq_some_iff]
  constructor
  · rintro ⟨_, index, slot, inside, rfl, -⟩
    have reached := (List.getElem?_eq_some_iff.1 inside).1
    exact ⟨rfl, Nat.le_add_right .., Nat.add_lt_add_left reached _⟩
  · rintro ⟨here, behind, reached⟩
    obtain ⟨bus, index⟩ := ref
    have inside : index - landing.offset < landing.wing.bus.slots.length :=
      Nat.sub_lt_left_of_lt_add behind reached
    refine ⟨_, index - landing.offset, _, List.getElem?_eq_getElem inside, ?_, rfl⟩
    rw [Nat.add_sub_cancel' behind, ← here]

end Landing

variable {catalog plugged : Catalog}

/-- A bus has the length that it is known to have, whatever is stacked there by now. -/
theorem exists_bus_of_wired {view : BusView}
    (known : catalog.wired.bus? view.ref = some view.bus.wired) :
    ∃ bus, catalog.bus? view.ref = some bus ∧ bus.slots.length = view.bus.slots.length := by
  rw [Catalog.bus?_wired] at known
  obtain ⟨bus, here, same⟩ := Option.map_eq_some_iff.1 known
  refine ⟨bus, here, ?_⟩
  rw [← bus.length_slots_wired, same, view.bus.length_slots_wired]

/-- A wing bus lands as it is now, and covers what it was known to cover. -/
theorem plugBus?_spec (landing : Landing)
    (ofWing : catalog.wired.bus? landing.wing.ref = some landing.wing.bus.wired)
    (ofBoard : catalog.wired.bus? landing.target.ref = some landing.target.bus.wired) :
    (landing.fits = false ∧
        plugBus? catalog landing.wing.ref landing.target.ref landing.offset = none) ∨
      (landing.fits = true ∧ ∃ pin? : PinRef → Option Pin,
        plugBus? catalog landing.wing.ref landing.target.ref landing.offset =
          some (catalog.cover pin?) ∧
        ∀ ref, pin? ref = none ↔ ¬ landing.Covers ref) := by
  obtain ⟨wing, held, size⟩ := exists_bus_of_wired ofWing
  obtain ⟨target, held', size'⟩ := exists_bus_of_wired ofBoard
  let now : Landing := ⟨⟨landing.wing.ref, wing⟩, ⟨landing.target.ref, target⟩, landing.offset⟩
  have fits : now.fits = landing.fits := by simp only [Landing.fits, now, size, size']
  have covers (ref : PinRef) : now.Covers ref ↔ landing.Covers ref := by
    simp only [Landing.Covers, now, size]
  have placed := plugBus?_eq now held held'
  rw [fits] at placed
  cases room : landing.fits with
  | false => exact .inl ⟨rfl, by rw [placed, room, if_neg Bool.false_ne_true]⟩
  | true =>
    refine .inr ⟨rfl, now.pin?, by rw [placed, room, if_pos rfl], fun ref => ?_⟩
    rw [Landing.pin?_eq_none_iff, covers]

/-- A stack gets a pin on top for each wing bus that reaches it, whichever those are. -/
theorem slot?_plugBuses (offset : Nat) {wings targets : List BusView}
    (ofWing : ∀ wing ∈ wings, catalog.wired.bus? wing.ref = some wing.bus.wired)
    (ofBoard : ∀ target ∈ targets, catalog.wired.bus? target.ref = some target.bus.wired)
    (ref : PinRef) :
    ∃ pins : List Pin,
      (plugBuses catalog offset ((wings.map (·.ref)).zip (targets.map (·.ref)))).1.slot? ref =
          (catalog.slot? ref).map (pins.foldl Slot.push) ∧
        (pins = [] ↔ ∀ landing ∈ landings offset wings targets,
          landing.fits = true → ¬ landing.Covers ref) := by
  induction wings generalizing catalog offset targets with
  | nil => exact ⟨[], by simp [plugBuses], by simp [landings]⟩
  | cons wing wings ih =>
    cases targets with
    | nil => exact ⟨[], by simp [plugBuses], by simp [landings]⟩
    | cons target targets =>
      obtain ⟨fromWing, fromOthers⟩ := List.forall_mem_cons.1 ofWing
      obtain ⟨onBoard, onOthers⟩ := List.forall_mem_cons.1 ofBoard
      rw [List.map_cons, List.map_cons, List.zip_cons_cons, plugBuses, landings,
        List.forall_mem_cons]
      rcases plugBus?_spec ⟨wing, target, offset⟩ fromWing onBoard with
        ⟨missed, skipped⟩ | ⟨fits, pin?, placed, covers⟩
      · obtain ⟨pins, grown, none⟩ := ih 0 fromOthers onOthers
        refine ⟨pins, ?_, ?_⟩
        · rw [skipped]
          exact grown
        · simp [none, missed]
      · -- of the buses that are still to come only the lengths matter, and those are kept
        have same : (catalog.cover pin?).wired = catalog.wired := wired_plugBus? placed
        obtain ⟨pins, grown, none⟩ :=
          @ih (catalog.cover pin?) 0 targets (same ▸ fromOthers) (same ▸ onOthers)
        refine ⟨(pin? ref).toList ++ pins, ?_, ?_⟩
        · rw [placed]
          refine grown.trans ?_
          rw [Catalog.slot?_cover, Option.map_map]
          simp [Function.comp_def, Slot.cover_eq_foldl]
        · rw [List.append_eq_nil_iff, Option.toList_eq_nil_iff, covers, none]
          simp [fits]

/-- A wing bus comes to lie on the position when the wing is plugged in. -/
def Covered (catalog : Catalog) (board wing : BoardId) (token : String) (ref : PinRef) : Prop :=
  ∃ index, catalog.busIndex? board (splitToken token).1 = some index ∧
    ∃ landing ∈ landings (splitToken token).2 (catalog.buses wing)
      ((catalog.buses board).drop index), landing.fits = true ∧ landing.Covers ref

theorem Covered.mem_buses {board wing : BoardId} {token : String} {ref : PinRef}
    (covered : Covered catalog board wing token ref) :
    ref.bus ∈ (catalog.buses board).map (·.ref) := by
  obtain ⟨index, -, landing, member, -, here, -⟩ := covered
  rw [here]
  exact List.mem_map_of_mem (List.mem_of_mem_drop (mem_of_mem_landings member).2)

theorem slot?_plug (catalog : Catalog) (board wing : BoardId) (token : String) (ref : PinRef) :
    ∃ pins : List Pin,
      (plug catalog board wing token).1.slot? ref =
          (catalog.slot? ref).map (pins.foldl Slot.push) ∧
        (pins = [] ↔ ¬ Covered catalog board wing token ref) := by
  cases found : catalog.busIndex? board (splitToken token).1 with
  | none =>
    rw [plug_eq_of_none wing found]
    exact ⟨[], by simp, by simp [Covered, found]⟩
  | some index =>
    have wired {id : BoardId} {view : BusView} (member : view ∈ catalog.buses id) :
        catalog.wired.bus? view.ref = some view.bus.wired := by
      rw [Catalog.bus?_wired, Catalog.bus?_of_mem_buses member, Option.map_some]
    obtain ⟨pins, grown, none⟩ := slot?_plugBuses (splitToken token).2 (fun _ => wired)
      (fun _ member => wired (List.mem_of_mem_drop member)) ref
    rw [plug_eq found]
    exact ⟨pins, grown, none.trans (by simp [Covered, found])⟩

/-! ## What boards show -/

theorem forall₂_of_map_eq {α β γ : Type} {f : α → γ} {g : β → γ} {r : α → β → Prop} {xs : List α}
    {ys : List β} (same : xs.map f = ys.map g)
    (related : ∀ x ∈ xs, ∀ y ∈ ys, f x = g y → r x y) : List.Forall₂ r xs ys := by
  induction xs generalizing ys with
  | nil =>
    rw [List.map_eq_nil_iff.1 same.symm]
    exact .nil
  | cons x xs ih =>
    obtain ⟨y, ys, rfl, first, others⟩ := List.map_eq_cons_iff.1 same.symm
    refine .cons (related x List.mem_cons_self y List.mem_cons_self first.symm) ?_
    exact ih others.symm fun x inside y inside' =>
      related x (List.mem_cons_of_mem _ inside) y (List.mem_cons_of_mem _ inside')

theorem slot_of_mem_pins {id : BoardId} {view : PinView} (member : view ∈ catalog.pins id) :
    catalog.slot? view.ref = some view.slot := by
  rw [Catalog.slot?_eq_map_view?, (Catalog.mem_pins_iff.1 member).2, Option.map_some]

section

variable {board wing other : BoardId} {token : String} {before after : PinView}
  (here : before ∈ catalog.pins other)
  (there : after ∈ (plug catalog board wing token).1.pins other)
  (ref : before.ref = after.ref)

include here there ref

theorem eq_of_not_covered (free : ¬ Covered catalog board wing token before.ref) :
    after = before := by
  obtain ⟨pins, grown, none⟩ := slot?_plug catalog board wing token before.ref
  have stack : (plug catalog board wing token).1.slot? before.ref = catalog.slot? before.ref := by
    rw [grown, none.2 free]
    simp
  have view := Catalog.view?_congr (wired_plug catalog board wing token) stack
  rw [(Catalog.mem_pins_iff.1 here).2, ref, (Catalog.mem_pins_iff.1 there).2] at view
  exact Option.some.inj view

theorem depth_lt_of_covered (covered : Covered catalog board wing token before.ref) :
    before.slot.depth < after.slot.depth := by
  obtain ⟨pins, grown, none⟩ := slot?_plug catalog board wing token before.ref
  rw [slot_of_mem_pins here, ref, slot_of_mem_pins there] at grown
  have stack : after.slot = pins.foldl Slot.push before.slot := Option.some.inj grown
  have nonempty : pins ≠ [] := fun empty => none.1 empty covered
  rw [stack, Slot.depth_foldl_push]
  exact Nat.lt_add_of_pos_right (List.length_pos_iff.2 nonempty)

theorem shown_of_covered (covered : Covered catalog board wing token before.ref) :
    before ∈ catalog.pins board ∧ after ∈ (plug catalog board wing token).1.pins board := by
  have shown := covered.mem_buses
  refine ⟨Catalog.mem_pins_iff.2 ⟨shown, (Catalog.mem_pins_iff.1 here).2⟩,
    Catalog.mem_pins_iff.2 ⟨?_, (Catalog.mem_pins_iff.1 there).2⟩⟩
  rwa [Catalog.map_ref_buses (wired_plug catalog board wing token), ← ref]

end

/-- Whatever is plugged in, every board has the positions that it had. One that no wing bus came to
lie on is shown as before. One that is covered has pins on top, and it is shown by the board plugged
into as well, in the same way: its bus belongs to that board or to an ancestor of it. So nothing
changes for boards that have no board in their inheritance in common with it. -/
theorem plug_shows (catalog : Catalog) (board wing : BoardId) (token : String) (other : BoardId) :
    let plugged := (plug catalog board wing token).1
    List.Forall₂ (fun before after => after.ref = before.ref ∧
        (¬ Covered catalog board wing token before.ref → after = before) ∧
        (Covered catalog board wing token before.ref →
          before.slot.depth < after.slot.depth ∧
            before ∈ catalog.pins board ∧ after ∈ plugged.pins board))
      (catalog.pins other) (plugged.pins other) ∧
    ((∀ id ∈ catalog.lineage other, id ∉ catalog.lineage board) →
      plugged.pins other = catalog.pins other) := by
  intro plugged
  have refs : (catalog.pins other).map (·.ref) = (plugged.pins other).map (·.ref) :=
    (Catalog.map_ref_pins (wired_plug catalog board wing token) other).symm
  refine ⟨forall₂_of_map_eq refs fun before here after there ref => ?_, fun apart => ?_⟩
  · exact ⟨ref.symm, eq_of_not_covered here there ref, fun covered =>
      ⟨depth_lt_of_covered here there ref covered, shown_of_covered here there ref covered⟩⟩
  · rw [← List.forall₂_eq_eq_eq]
    refine forall₂_of_map_eq refs.symm fun after there before here ref => ?_
    refine eq_of_not_covered here there ref.symm fun covered => ?_
    -- the board plugged into shows the position, so the boards have its board in common
    obtain ⟨bus, inside, own⟩ := List.mem_map.1 (Catalog.mem_pins_iff.1 here).1
    obtain ⟨bus', inside', own'⟩ := List.mem_map.1 covered.mem_buses
    have common : bus'.ref = bus.ref := own'.trans own.symm
    exact apart _ (Catalog.board_mem_lineage inside)
      (common ▸ Catalog.board_mem_lineage inside')

/-- A board with one position, two boards that inherit from it, and a light. -/
def siblings : Catalog :=
  Catalog.afterEvents
    [.load ⟨.board, "Base \x7b A : P1 \x7d One : Base \x7b \x7d Two : Base \x7b \x7d"⟩,
      .load ⟨.wing, "LED \x7b D : L0 \x7b DRIVE = 8 \x7d \x7d"⟩]

/-- A light on one of the boards shows on the others, which do not inherit from it. -/
theorem plug_shows_siblings :
    let plugged := (plug siblings 1 3 "A").1
    let shown (catalog : Catalog) (id : BoardId) :=
      (catalog.pins id).map fun view => (view.netName, view.additions.entries, view.isWing)
    (∀ other ∈ [0, 2], other ≠ 1 ∧ 1 ∉ siblings.lineage other) ∧
      (∀ other ∈ [0, 2], shown siblings other = [(some "A", [], false)]) ∧
      ∀ other ∈ [0, 2], shown plugged other = [(some "L0", [("DRIVE", some "8")], true)] := by
  intro plugged shown
  exact ⟨by decide +kernel, by decide +kernel, by decide +kernel⟩

end Wing

end Pinout
