import Mathlib.Data.List.Sigma
import Pinout.Proofs.Wing.Stacks

/-! # Where wings land

Plugging in a wing writes to the buses of a catalog one after the other, and reads each wing bus
from the catalog that the earlier ones left. Where the wing and the board have no ancestor in
common, no bus that is read has been written to, and no bus is written to twice. So all wing buses
land at once: the catalog is covered with pins at the positions that they reach, and it is the same
everywhere else.
-/

namespace Pinout

namespace Catalog

variable {catalog : Catalog} {id : BoardId}

theorem lineageBefore_suffix {line : List BoardId} (h : Line catalog.parent? id line) (fuel : Nat) :
    catalog.lineageBefore [] fuel id <:+ line := by
  induction fuel generalizing id line with
  | zero =>
    obtain ⟨front, rfl⟩ := List.getLast?_eq_some_iff.1 h.getLast?_eq
    exact List.suffix_append front [id]
  | succ fuel ih =>
    cases h with
    | root none => simp [lineageBefore, none]
    | @child _ above line here behind =>
      simp only [lineageBefore, here]
      rw [lineageBefore_eq_append]
      obtain ⟨front, whole⟩ := ih behind
      exact ⟨front, by rw [← whole, List.append_assoc]⟩

theorem nodup_lineage (rooted : Rooted catalog.parent? id) : (catalog.lineage id).Nodup := by
  obtain ⟨line, h⟩ := Line.exists_of_rooted rooted
  exact h.nodup.sublist (lineageBefore_suffix h _).sublist

theorem board_mem_lineage {view : BusView} (member : view ∈ catalog.buses id) :
    view.ref.board ∈ catalog.lineage id := by
  obtain ⟨ancestor, here, own⟩ := List.mem_flatMap.1 member
  obtain ⟨_, -, rfl⟩ := List.mem_map.1 own
  exact here

/-- No bus is shown twice. -/
theorem pairwise_buses (rooted : Rooted catalog.parent? id) :
    (catalog.buses id).Pairwise fun bus other => other.ref ≠ bus.ref := by
  refine List.pairwise_flatMap.2 ⟨fun ancestor _ => ?_, ?_⟩
  · rw [ownBuses, List.pairwise_map]
    have positions := List.pairwise_map.1 (List.nodup_zipIdx_map_snd (catalog.board ancestor).buses)
    exact positions.imp fun different same => different (congrArg (·.position) same).symm
  · refine (nodup_lineage rooted).imp fun different bus own bus' own' same => ?_
    obtain ⟨_, -, rfl⟩ := List.mem_map.1 own
    obtain ⟨_, -, rfl⟩ := List.mem_map.1 own'
    exact different (congrArg (·.board) same).symm

end Catalog

/-! ## Covering positions -/

/-- The position with a pin on top of those it has, if there is one to put there. -/
def Slot.cover (slot : Slot) : Option Pin → Slot
  | none => slot
  | some pin => slot.push pin

def Bus.cover (bus : Bus) (pin? : Nat → Option Pin) : Bus :=
  { bus with slots := bus.slots.mapIdx fun index slot => slot.cover (pin? index) }

def Board.cover (board : Board) (pin? : Nat → Nat → Option Pin) : Board :=
  { board with buses := board.buses.mapIdx fun position bus => bus.cover (pin? position) }

/-- The catalog with pins on top of the positions that they are given for. -/
def Catalog.cover (catalog : Catalog) (pin? : PinRef → Option Pin) : Catalog :=
  { catalog with
    entries := catalog.entries.mapIdx fun id entry =>
      { entry with board := entry.board.cover fun position index => pin? ⟨⟨id, position⟩, index⟩ } }

theorem Slot.cover_cover (slot : Slot) {first second : Option Pin}
    (apart : first = none ∨ second = none) :
    (slot.cover first).cover second = slot.cover (first.or second) := by
  rcases apart with rfl | rfl
  · rfl
  · cases first <;> rfl

theorem Bus.cover_of_none (bus : Bus) {pin? : Nat → Option Pin}
    (nothing : ∀ index, pin? index = none) : bus.cover pin? = bus := by
  have same : bus.slots.mapIdx (fun index slot => slot.cover (pin? index)) = bus.slots :=
    List.mapIdx_eq_iff.2 fun index => by simp [nothing, Slot.cover]
  rw [cover, same]

theorem Board.cover_of_none (board : Board) {pin? : Nat → Nat → Option Pin}
    (nothing : ∀ position index, pin? position index = none) : board.cover pin? = board := by
  have same : board.buses.mapIdx (fun position bus => bus.cover (pin? position)) = board.buses :=
    List.mapIdx_eq_iff.2 fun position => by simp [Bus.cover_of_none, nothing]
  rw [cover, same]

/-- Where one bus only is covered, the board is changed at that bus. -/
theorem Board.cover_eq_modify (board : Board) (pin? : Nat → Nat → Option Pin) (position : Nat)
    (elsewhere : ∀ other ≠ position, ∀ index, pin? other index = none) :
    board.cover pin? =
      { board with buses := board.buses.modify position (·.cover (pin? position)) } := by
  refine congrArg (fun buses => { board with buses }) (List.mapIdx_eq_iff.2 fun other => ?_)
  rw [List.getElem?_modify]
  by_cases here : position = other
  · subst here
    simp
  · have untouched (bus : Bus) : bus.cover (pin? other) = bus :=
      bus.cover_of_none (elsewhere other (Ne.symm here))
    simp [here, untouched]

namespace Catalog

theorem bus?_cover (catalog : Catalog) (pin? : PinRef → Option Pin) (ref : BusRef) :
    (catalog.cover pin?).bus? ref =
      (catalog.bus? ref).map fun bus => bus.cover fun index => pin? ⟨ref, index⟩ := by
  simp only [bus?, board?, cover, Array.getElem?_mapIdx]
  cases catalog.entries[ref.board]? with
  | none => rfl
  | some entry => simp [Board.cover]

theorem cover_cover (catalog : Catalog) {first second : PinRef → Option Pin}
    (apart : ∀ ref, first ref = none ∨ second ref = none) :
    (catalog.cover first).cover second = catalog.cover fun ref => (first ref).or (second ref) := by
  simp only [cover, Board.cover, Bus.cover, Array.mapIdx_mapIdx, List.mapIdx_mapIdx,
    Function.comp_def, Slot.cover_cover _ (apart _)]

theorem cover_of_none {catalog : Catalog} {pin? : PinRef → Option Pin}
    (nothing : ∀ ref, pin? ref = none) : catalog.cover pin? = catalog := by
  have same : catalog.entries.mapIdx (fun id entry => { entry with
      board := entry.board.cover fun position index => pin? ⟨⟨id, position⟩, index⟩ }) =
        catalog.entries :=
    Array.mapIdx_eq_iff.2 fun id => by simp [Board.cover_of_none, nothing]
  rw [cover, same]

theorem modifyBus_cover (catalog : Catalog) (target : BusRef) (pin? : PinRef → Option Pin)
    (elsewhere : ∀ ref, ref.bus ≠ target → pin? ref = none) :
    catalog.modifyBus target (·.cover fun index => pin? ⟨target, index⟩) = catalog.cover pin? := by
  refine congrArg (fun entries => { catalog with entries })
    (Array.mapIdx_eq_iff.2 fun id => ?_).symm
  rw [Array.getElem?_modify]
  by_cases here : target.board = id
  · subst here
    have covered (board : Board) := board.cover_eq_modify
      (fun position index => pin? ⟨⟨target.board, position⟩, index⟩) target.position
      fun other different index =>
        elsewhere _ fun same => different (congrArg (·.position) same)
    simp [covered]
  · have untouched (board : Board) :
        board.cover (fun position index => pin? ⟨⟨id, position⟩, index⟩) = board :=
      board.cover_of_none fun position index =>
        elsewhere _ fun same => here (congrArg (·.board) same).symm
    simp [here, untouched]

end Catalog

/-! ## Stacking -/

namespace Wing

theorem getElem?_stackOver (wingBus : BusRef) (wings slots : List Slot) (index : Nat) :
    (stackOver wingBus wings slots)[index]? =
      slots[index]?.map fun slot =>
        slot.cover (wings[index]?.map fun wing => carriedPin wingBus wing.top) := by
  fun_induction stackOver wingBus wings slots generalizing index with
  | case1 wing wings slot slots ih =>
    cases index with
    | zero => rfl
    | succ index => exact ih index
  | case2 slots => simp [Slot.cover]
  | case3 => rfl

/-- A wing bus, the bus that it is to lie on, and the position there where it begins. -/
structure Landing where
  wing : BusView
  target : BusView
  offset : Nat
deriving Repr, DecidableEq

namespace Landing

def fits (landing : Landing) : Bool :=
  landing.offset + landing.wing.bus.slots.length ≤ landing.target.bus.slots.length

def pin? (landing : Landing) (ref : PinRef) : Option Pin :=
  if ref.bus = landing.target.ref ∧ landing.offset ≤ ref.index then
    landing.wing.bus.slots[ref.index - landing.offset]?.map fun slot =>
      carriedPin landing.wing.ref slot.top
  else
    none

theorem pin?_of_ne {landing : Landing} {ref : PinRef} (other : ref.bus ≠ landing.target.ref) :
    landing.pin? ref = none :=
  if_neg fun h => other h.1

theorem pin?_eq_some_iff {landing : Landing} {ref : PinRef} {pin : Pin} :
    landing.pin? ref = some pin ↔
      ∃ index slot, landing.wing.bus.slots[index]? = some slot ∧
        ref = ⟨landing.target.ref, landing.offset + index⟩ ∧
        pin = carriedPin landing.wing.ref slot.top := by
  obtain ⟨bus, index⟩ := ref
  simp only [pin?, Option.ite_none_right_eq_some, Option.map_eq_some_iff, PinRef.mk.injEq]
  constructor
  · rintro ⟨⟨rfl, behind⟩, slot, here, rfl⟩
    exact ⟨index - landing.offset, slot, here, ⟨rfl, by omega⟩, rfl⟩
  · rintro ⟨index, slot, here, ⟨rfl, rfl⟩, rfl⟩
    exact ⟨⟨rfl, by omega⟩, slot, by simpa using here, rfl⟩

end Landing

theorem getElem?_stackAt (wingBus : BusRef) (offset : Nat) (wings slots : List Slot) (index : Nat) :
    (stackAt wingBus offset wings slots)[index]? =
      slots[index]?.map fun slot =>
        slot.cover (if offset ≤ index then
          wings[index - offset]?.map fun wing => carriedPin wingBus wing.top
        else none) := by
  have length := List.length_take (i := offset) (l := slots)
  rw [stackAt, List.getElem?_append, length]
  split
  · -- in front of the offset
    next front =>
    have before : ¬ offset ≤ index := by omega
    simp [before, Slot.cover, List.getElem?_take_of_lt (Nat.lt_of_not_le before)]
  · next behind =>
    rw [getElem?_stackOver, List.getElem?_drop]
    by_cases inside : offset ≤ slots.length
    · rw [Nat.min_eq_left inside] at behind ⊢
      have here : offset + (index - offset) = index := by omega
      rw [here, if_pos (Nat.le_of_not_lt behind)]
    · have absent : slots[index]? = none := List.getElem?_eq_none (by omega)
      have absent' : slots[offset + (index - min offset slots.length)]? = none :=
        List.getElem?_eq_none (by omega)
      rw [absent, absent', Option.map_none, Option.map_none]

/-- Stacking on a bus covers the positions from the offset on. -/
theorem stackAt_eq_cover (landing : Landing) (bus : Bus) :
    { bus with
      slots := stackAt landing.wing.ref landing.offset landing.wing.bus.slots bus.slots } =
      bus.cover fun index => landing.pin? ⟨landing.target.ref, index⟩ := by
  refine congrArg (fun slots => { bus with slots }) (List.mapIdx_eq_iff.2 fun index => ?_).symm
  simp [getElem?_stackAt, Landing.pin?]

variable {catalog : Catalog}

theorem plugBus?_eq (landing : Landing)
    (ofWing : catalog.bus? landing.wing.ref = some landing.wing.bus)
    (here : catalog.bus? landing.target.ref = some landing.target.bus) :
    plugBus? catalog landing.wing.ref landing.target.ref landing.offset =
      if landing.fits then some (catalog.cover landing.pin?) else none := by
  have covered := catalog.modifyBus_cover landing.target.ref landing.pin? fun _ =>
    Landing.pin?_of_ne
  simp only [plugBus?, ofWing, here, Option.bind_eq_bind, Option.bind_some, stackAt_eq_cover,
    covered, Landing.fits, decide_eq_true_eq]

/-- Buses that nothing lands on are as they were. -/
theorem bus?_cover_of_ne {landing : Landing} {view : BusView}
    (other : view.ref ≠ landing.target.ref) (here : catalog.bus? view.ref = some view.bus) :
    (catalog.cover landing.pin?).bus? view.ref = some view.bus := by
  rw [Catalog.bus?_cover, here, Option.map_some,
    view.bus.cover_of_none fun _ => Landing.pin?_of_ne other]

/-! ## Several buses -/

/-- Wing buses on the buses they are paired with, the first at the offset and the others at the
beginning. -/
def landings (offset : Nat) : List BusView → List BusView → List Landing
  | wing :: wings, target :: targets => ⟨wing, target, offset⟩ :: landings 0 wings targets
  | _, _ => []

theorem getElem?_landings (offset : Nat) (wings targets : List BusView) (k : Nat) :
    (landings offset wings targets)[k]? =
      wings[k]?.bind fun wing => targets[k]?.map fun target =>
        ⟨wing, target, if k = 0 then offset else 0⟩ := by
  induction wings generalizing offset targets k with
  | nil => simp [landings]
  | cons wing wings ih =>
    cases targets with
    | nil => simp [landings]
    | cons target targets =>
      cases k with
      | zero => rfl
      | succ k => simp [landings, ih]

theorem map_target_landings (offset : Nat) (wings targets : List BusView) :
    (landings offset wings targets).map (·.target) = targets.take wings.length := by
  induction wings generalizing offset targets with
  | nil => rfl
  | cons wing wings ih =>
    cases targets with
    | nil => rfl
    | cons target targets => exact congrArg (target :: ·) (ih 0 targets)

theorem mem_of_mem_landings {offset : Nat} {wings targets : List BusView} {landing : Landing}
    (member : landing ∈ landings offset wings targets) :
    landing.wing ∈ wings ∧ landing.target ∈ targets := by
  obtain ⟨k, here⟩ := List.mem_iff_getElem?.1 member
  rw [getElem?_landings] at here
  obtain ⟨wing, ofWing, here⟩ := Option.bind_eq_some_iff.1 here
  obtain ⟨target, ofBoard, rfl⟩ := Option.map_eq_some_iff.1 here
  exact ⟨List.mem_of_getElem? ofWing, List.mem_of_getElem? ofBoard⟩

def laid (landings : List Landing) (ref : PinRef) : Option Pin :=
  (landings.filter Landing.fits).findSome? (·.pin? ref)

theorem laid_cons (landing : Landing) (others : List Landing) (ref : PinRef) :
    laid (landing :: others) ref =
      (if landing.fits then landing.pin? ref else none).or (laid others ref) := by
  rw [laid, List.filter_cons]
  split
  · rw [List.findSome?_cons]
    cases landing.pin? ref <;> rfl
  · rfl

theorem laid_of_ne {landings : List Landing} {ref : PinRef}
    (other : ∀ landing ∈ landings, ref.bus ≠ landing.target.ref) : laid landings ref = none :=
  List.findSome?_eq_none_iff.2 fun landing member =>
    Landing.pin?_of_ne (other landing (List.mem_of_mem_filter member))

/-- Where no two of them land on the same bus, every wing bus that fits has its pins laid. -/
theorem laid_eq_some_iff {landings : List Landing}
    (distinct : landings.Pairwise fun landing other => other.target.ref ≠ landing.target.ref)
    {ref : PinRef} {pin : Pin} :
    laid landings ref = some pin ↔
      ∃ landing ∈ landings, landing.fits = true ∧ landing.pin? ref = some pin := by
  constructor
  · intro here
    obtain ⟨landing, member, there⟩ := List.exists_of_findSome?_eq_some here
    obtain ⟨member, fits⟩ := List.mem_filter.1 member
    exact ⟨landing, member, fits, there⟩
  · rintro ⟨landing, member, fits, there⟩
    induction distinct with
    | nil => cases member
    | @cons first others apart _ ih =>
      rw [laid_cons]
      rcases List.mem_cons.1 member with rfl | member
      · rw [if_pos fits, there, Option.some_or]
      · obtain ⟨index, slot, -, rfl, -⟩ := Landing.pin?_eq_some_iff.1 there
        have elsewhere : first.pin? ⟨landing.target.ref, landing.offset + index⟩ = none :=
          Landing.pin?_of_ne (apart landing member)
        rw [elsewhere, ite_self, Option.none_or, ih member]

theorem cover_laid_cons {landing : Landing} (fits : landing.fits = true) {others : List Landing}
    (apart : ∀ other ∈ others, other.target.ref ≠ landing.target.ref) :
    (catalog.cover landing.pin?).cover (laid others) =
      catalog.cover (laid (landing :: others)) := by
  have free (ref : PinRef) : landing.pin? ref = none ∨ laid others ref = none := by
    by_cases here : ref.bus = landing.target.ref
    · exact .inr (laid_of_ne fun other member same => apart other member (same.symm.trans here))
    · exact .inl (Landing.pin?_of_ne here)
  rw [Catalog.cover_cover _ free]
  refine congrArg _ (funext fun ref => ?_)
  rw [laid_cons, if_pos fits]

/-- Where no wing bus is stacked on another wing bus, and no two on the same bus, each of them finds
the buses as they were. -/
theorem plugBuses_eq (offset : Nat) {wings targets : List BusView}
    (ofWing : ∀ wing ∈ wings, catalog.bus? wing.ref = some wing.bus)
    (ofBoard : ∀ target ∈ targets, catalog.bus? target.ref = some target.bus)
    (distinct : targets.Pairwise fun target other => other.ref ≠ target.ref)
    (apart : ∀ wing ∈ wings, ∀ target ∈ targets, wing.ref ≠ target.ref) :
    plugBuses catalog offset ((wings.map (·.ref)).zip (targets.map (·.ref))) =
      (catalog.cover (laid (landings offset wings targets)),
        (landings offset wings targets).countP Landing.fits) := by
  induction wings generalizing catalog offset targets with
  | nil => exact Prod.ext (Catalog.cover_of_none fun _ => rfl).symm rfl
  | cons wing wings ih =>
    cases targets with
    | nil => exact Prod.ext (Catalog.cover_of_none fun _ => rfl).symm rfl
    | cons target targets =>
      obtain ⟨fromWing, fromOthers⟩ := List.forall_mem_cons.1 ofWing
      obtain ⟨onBoard, onOthers⟩ := List.forall_mem_cons.1 ofBoard
      obtain ⟨others, distinct⟩ := List.pairwise_cons.1 distinct
      obtain ⟨-, apart⟩ := List.forall_mem_cons.1 apart
      have later : ∀ wing ∈ wings, ∀ target ∈ targets, wing.ref ≠ target.ref :=
        fun wing member => (List.forall_mem_cons.1 (apart wing member)).2
      let landing : Landing := ⟨wing, target, offset⟩
      have placed : plugBus? catalog wing.ref target.ref offset =
          if landing.fits then some (catalog.cover landing.pin?) else none :=
        plugBus?_eq landing fromWing onBoard
      have first : landings offset (wing :: wings) (target :: targets) =
          landing :: landings 0 wings targets := rfl
      rw [List.map_cons, List.map_cons, List.zip_cons_cons, plugBuses, placed, first]
      cases fits : landing.fits with
      | false =>
        -- the wing bus is skipped, and its pins are not laid either
        have missed : landing.fits ≠ true := by simp [fits]
        have same : laid (landing :: landings 0 wings targets) = laid (landings 0 wings targets) :=
          funext fun ref => by rw [laid_cons, if_neg missed, Option.none_or]
        rw [if_neg Bool.false_ne_true, same, List.countP_cons_of_neg missed]
        exact ih 0 fromOthers onOthers distinct later
      | true =>
        -- the buses of the later ones are not the one that is covered, so they are as they were
        have rest := @ih (catalog.cover landing.pin?) 0 targets
          (fun wing member => bus?_cover_of_ne
            ((List.forall_mem_cons.1 (apart wing member)).1) (fromOthers wing member))
          (fun target member => bus?_cover_of_ne (others target member) (onOthers target member))
          distinct later
        rw [cover_laid_cons fits fun other member =>
          others _ (mem_of_mem_landings member).2] at rest
        simp only [if_pos, rest, List.countP_cons_of_pos fits]

/-! ## Plugging in -/

theorem plug_eq_of_none {board : BoardId} {token : String} (wing : BoardId)
    (absent : catalog.busIndex? board (splitToken token).1 = none) :
    plug catalog board wing token = (catalog, 0) := by
  simp only [plug, absent]

theorem plug_eq {board wing : BoardId} {token : String} {index : Nat}
    (found : catalog.busIndex? board (splitToken token).1 = some index) :
    plug catalog board wing token =
      plugBuses catalog (splitToken token).2
        (((catalog.buses wing).map (·.ref)).zip
          (((catalog.buses board).drop index).map (·.ref))) := by
  simp only [plug, found, List.map_drop]

/-- A wing that has no board in its inheritance in common with the board it is plugged into puts
pins on top of positions there, and does nothing else. The wing buses are paired with the buses from
the named one on, and each lands as a whole or not at all. A pin that the wing carried keeps the bus
it first came from. That following parents ends is so in any catalog that changes lead to. -/
theorem plug_covers (catalog : Catalog) (board wing : BoardId) (token : String)
    (rooted : Rooted catalog.parent? board)
    (apart : ∀ id ∈ catalog.lineage board, id ∉ catalog.lineage wing) :
    let name := (splitToken token).1
    let offset := (splitToken token).2
    let plugged := plug catalog board wing token
    (catalog.busIndex? board name = none → plugged = (catalog, 0)) ∧
      ∀ index, catalog.busIndex? board name = some index →
        let pairs := landings offset (catalog.buses wing) ((catalog.buses board).drop index)
        (∀ k, pairs[k]? = (catalog.buses wing)[k]?.bind fun source =>
            (catalog.buses board)[index + k]?.map fun target =>
              ⟨source, target, if k = 0 then offset else 0⟩) ∧
          plugged.2 = pairs.countP Landing.fits ∧
          ∃ laid, plugged.1 = catalog.cover laid ∧
            ∀ ref pin, laid ref = some pin ↔
              ∃ landing ∈ pairs, landing.fits = true ∧
                ∃ i slot, landing.wing.bus.slots[i]? = some slot ∧
                  ref = ⟨landing.target.ref, landing.offset + i⟩ ∧
                  pin = { slot.top with
                    origin := some (slot.top.origin.getD landing.wing.ref) } := by
  intro name offset plugged
  refine ⟨plug_eq_of_none wing, fun index found => ?_⟩
  intro pairs
  have distinct :
      ((catalog.buses board).drop index).Pairwise fun bus other => other.ref ≠ bus.ref :=
    (Catalog.pairwise_buses rooted).drop
  have placed : plugged = (catalog.cover (laid pairs), pairs.countP Landing.fits) := by
    rw [show plugged = _ from plug_eq found]
    refine plugBuses_eq offset (fun _ => Catalog.bus?_of_mem_buses)
      (fun _ member => Catalog.bus?_of_mem_buses (List.mem_of_mem_drop member)) distinct ?_
    -- a bus of both would stand on a board of both lineages
    intro source ofWing target ofBoard same
    have onBoard := Catalog.board_mem_lineage (List.mem_of_mem_drop ofBoard)
    exact apart _ onBoard (same ▸ Catalog.board_mem_lineage ofWing)
  have distinct' : pairs.Pairwise fun landing other => other.target.ref ≠ landing.target.ref := by
    have targets := distinct.sublist (List.take_sublist (catalog.buses wing).length _)
    rwa [← map_target_landings offset, List.pairwise_map] at targets
  refine ⟨fun k => ?_, congrArg Prod.snd placed, laid pairs, congrArg Prod.fst placed,
    fun ref pin => ?_⟩
  · rw [show pairs[k]? = _ from getElem?_landings .., List.getElem?_drop]
  · rw [laid_eq_some_iff distinct']
    simp only [Landing.pin?_eq_some_iff, carriedPin]

/-- A board with buses of three positions and of one, extended by another one with one of two, and
a wing with three buses that carries a light on the first. -/
def hubbed : Catalog :=
  let bus (name : String) (pins : List String) : Bus :=
    { name, slots := pins.map fun pin => ⟨{ name := some pin }, []⟩ }
  let bare : Catalog :=
    { entries := #[
        { board := { buses := [bus "A" ["P1", "P2", "P3"], bus "B" ["P4"]] } },
        { board := { buses := [bus "C" ["P5", "P6"]] }, parent := some 0 },
        { board := { buses := [bus "D" ["L0"]], isWing := true } },
        { board := {
            buses := [bus "X" ["H0", "H1"], bus "Y" ["U0", "U1"], bus "Z" ["Z0"]]
            isWing := true } }] }
  (plug bare 3 2 "X").1

/-- The second bus is skipped, and the light is carried on. -/
theorem plug_covers_hubbed :
    Rooted hubbed.parent? 1 ∧ (∀ id ∈ hubbed.lineage 1, id ∉ hubbed.lineage 3) ∧
      plug hubbed 1 3 "Q1" = (hubbed, 0) ∧ (plug hubbed 1 3 "A1").2 = 2 ∧
      ∃ laid, (plug hubbed 1 3 "A1").1 = hubbed.cover laid ∧
        laid ⟨⟨0, 0⟩, 1⟩ = some { name := some "L0", origin := some ⟨2, 0⟩ } ∧
        laid ⟨⟨1, 0⟩, 0⟩ = some { name := some "Z0", origin := some ⟨3, 2⟩ } ∧
        ∀ index, laid ⟨⟨0, 1⟩, index⟩ = none := by
  have rooted : Rooted hubbed.parent? 1 :=
    .child (by decide +kernel : _ = some 0) (.root (by decide +kernel))
  have apart : ∀ id ∈ hubbed.lineage 1, id ∉ hubbed.lineage 3 := by decide +kernel
  have absent := (plug_covers hubbed 1 3 "Q1" rooted apart).1 (by decide +kernel)
  obtain ⟨-, count, laid, covered, only⟩ :=
    (plug_covers hubbed 1 3 "A1" rooted apart).2 0 (by decide +kernel)
  have lands (ref : PinRef) (pin : Pin) : laid ref = some pin ↔
      ∃ landing ∈ landings 1 (hubbed.buses 3) ((hubbed.buses 1).drop 0),
        landing.fits = true ∧ landing.pin? ref = some pin := by
    simp only [Landing.pin?_eq_some_iff]
    exact only ref pin
  refine ⟨rooted, apart, absent, count.trans (by decide +kernel), laid, covered,
    (lands _ _).2 (by decide +kernel), (lands _ _).2 (by decide +kernel), fun index => ?_⟩
  have skipped : ∀ landing ∈ landings 1 (hubbed.buses 3) ((hubbed.buses 1).drop 0),
      landing.fits = true → landing.target.ref ≠ ⟨0, 1⟩ := by
    decide +kernel
  refine Option.eq_none_iff_forall_ne_some.2 fun pin here => ?_
  obtain ⟨landing, member, fits, _, _, -, same, -⟩ := (only _ _).1 here
  exact skipped landing member fits (congrArg (·.bus) same).symm

end Wing

end Pinout
