import Mathlib.Data.List.Basic
import Pinout.Catalog.PinView
import Pinout.Proofs.Text.Plain

/-! # Texts of a catalog

Everything that is shown of a position is glued together from texts of the catalog and plain ones,
whatever is stacked there. So a property that glueing keeps holds of all that is shown if it holds
of all texts of the catalog.
-/

namespace Pinout

def assignmentTexts (assignment : Assignment) : List String :=
  assignment.1 :: assignment.2.toList

def additionTexts (additions : Additions) : List String :=
  additions.entries.flatMap assignmentTexts

def Pin.texts (pin : Pin) : List String :=
  pin.name.toList ++ pin.aliasName.toList ++ additionTexts pin.additions

def Slot.texts (slot : Slot) : List String :=
  (slot.top :: slot.below).flatMap Pin.texts

def Bus.texts (bus : Bus) : List String :=
  bus.name :: bus.aliasName.toList ++ bus.slots.flatMap Slot.texts ++ additionTexts bus.additions

def Board.texts (board : Board) : List String :=
  board.buses.flatMap Bus.texts ++ board.configs.flatMap assignmentTexts

def Catalog.texts (catalog : Catalog) : List String :=
  catalog.entries.toList.flatMap fun entry => entry.board.texts

def PinView.texts (view : PinView) : List String :=
  view.canonicalName :: view.netName.toList ++ view.physicalName.toList ++
    additionTexts view.additions

theorem additionTexts_insert (additions : Additions) (assignment : Assignment) :
    additionTexts (additions.insert assignment.1 assignment.2) ⊆
      additionTexts additions ++ assignmentTexts assignment := by
  obtain ⟨entries⟩ := additions
  change (OrderedMap.put assignment.1 assignment.2 entries).flatMap assignmentTexts ⊆
    entries.flatMap assignmentTexts ++ assignmentTexts assignment
  induction entries with
  | nil => simp [OrderedMap.put]
  | cons entry entries ih =>
    rw [OrderedMap.put]
    split
    · -- the key is kept, the value is new
      simp only [List.flatMap_cons, assignmentTexts]
      grind
    · simp only [List.flatMap_cons]
      grind

theorem additionTexts_mergedWith (base overriding : Additions) :
    additionTexts (base.mergedWith overriding) ⊆ additionTexts base ++ additionTexts overriding := by
  obtain ⟨entries⟩ := overriding
  change additionTexts (entries.foldl (fun map pair => map.insert pair.1 pair.2) base) ⊆
    additionTexts base ++ entries.flatMap assignmentTexts
  induction entries generalizing base with
  | nil => simp
  | cons entry entries ih =>
    have first := additionTexts_insert base entry
    have others := ih (base.insert entry.1 entry.2)
    rw [List.foldl_cons, List.flatMap_cons]
    grind

theorem Slot.texts_bottom (slot : Slot) : slot.bottom.texts ⊆ slot.texts := by
  have member : slot.bottom ∈ slot.top :: slot.below := by
    rw [Slot.bottom]
    cases last : slot.below.getLast? with
    | none => exact List.mem_cons_self
    | some pin => exact List.mem_cons_of_mem _ (List.mem_of_getLast? last)
  exact fun text inside => List.mem_flatMap.2 ⟨slot.bottom, member, inside⟩

namespace Catalog

variable {catalog : Catalog} {id : BoardId}

theorem texts_board (catalog : Catalog) (id : BoardId) :
    (catalog.board id).texts ⊆ catalog.texts := by
  rw [board, board?]
  cases here : catalog.entries[id]? with
  | none => exact List.nil_subset _
  | some entry =>
    have member : entry ∈ catalog.entries.toList := (Array.mem_of_getElem? here).val
    exact fun text inside => List.mem_flatMap.2 ⟨entry, member, inside⟩

theorem texts_of_mem_buses {bus : BusView} (member : bus ∈ catalog.buses id) :
    bus.bus.texts ⊆ catalog.texts := by
  obtain ⟨ancestor, -, member⟩ := List.mem_flatMap.1 member
  obtain ⟨⟨own, position⟩, inside, rfl⟩ := List.mem_map.1 member
  have own := List.fst_mem_of_mem_zipIdx inside
  exact fun text here => catalog.texts_board ancestor
    (List.mem_append_left _ (List.mem_flatMap.2 ⟨_, own, here⟩))

theorem texts_of_mem_configs {config : Assignment} (member : config ∈ catalog.configs id) :
    assignmentTexts config ⊆ catalog.texts := by
  obtain ⟨ancestor, -, member⟩ := List.mem_flatMap.1 member
  exact fun text here => catalog.texts_board ancestor
    (List.mem_append_right _ (List.mem_flatMap.2 ⟨config, member, here⟩))

/-- The bus of a wing is looked up in the catalog. -/
theorem texts_bus? {ref : BusRef} {bus : Bus} (found : catalog.bus? ref = some bus) :
    bus.texts ⊆ catalog.texts := by
  obtain ⟨board, there, member⟩ := Option.bind_eq_some_iff.1 found
  have same : catalog.board ref.board = board := by rw [Catalog.board, there]; rfl
  have own := List.mem_of_getElem? member
  exact fun text here => catalog.texts_board ref.board
    (List.mem_append_left _ (List.mem_flatMap.2 ⟨bus, same ▸ own, here⟩))

theorem texts_ownerAdditions {bus : Bus} (own : bus.texts ⊆ catalog.texts) (pin : Pin) :
    additionTexts (catalog.ownerAdditions bus pin) ⊆ catalog.texts := by
  have additions (bus : Bus) : additionTexts bus.additions ⊆ bus.texts :=
    List.subset_append_right _ _
  rw [ownerAdditions]
  split
  · exact List.Subset.trans (additions bus) own
  · next origin _ =>
    cases here : catalog.bus? origin with
    | none => exact List.nil_subset _
    | some other => exact List.Subset.trans (additions other) (texts_bus? here)

end Catalog

section

variable {p : String → Prop} (glued : Glued p)
include glued

theorem Glued.indexed (view : PinView) {base : String} (own : p base) : p (view.indexed base) := by
  rw [PinView.indexed]
  split
  · exact glued.append own (glued.plain (plain_toString _))
  · exact own

theorem Glued.netName {view : PinView} (pin : ∀ text ∈ view.pin.texts, p text)
    (bus : p view.outputName) : ∀ name ∈ view.netName, p name := by
  have numbered {base : String} (own : p base) :
      ∀ name ∈ if 1 < view.busSize then some (base ++ "(" ++ toString view.ref.index ++ ")")
        else some base, p name := by
    intro name here
    split at here <;> cases here
    · refine glued.append (glued.append (glued.append own ?_) ?_) ?_
      · exact glued.plain (by decide)
      · exact glued.plain (plain_toString _)
      · exact glued.plain (by decide)
    · exact own
  intro name here
  rw [PinView.netName] at here
  -- a wing names its nets itself
  split at here
  · exact pin name (by simp [Pin.texts, (Option.filter_eq_some_iff.1 here).1])
  · refine numbered ?_ name here
    split
    · next other there =>
      split
      · exact bus
      · exact pin other (by simp [Pin.texts, there])
    · exact bus

end

theorem Bus.outputName_mem_texts (bus : Bus) : bus.outputName ∈ bus.texts := by
  rw [outputName]
  split
  · next name here =>
    split
    · exact List.mem_cons_self
    · simp [texts, here]
  · exact List.mem_cons_self

/-- What holds of all texts of a catalog holds of all that is shown of its positions. -/
theorem Glued.texts_of_mem_pins {p : String → Prop} (glued : Glued p) {catalog : Catalog}
    (all : ∀ text ∈ catalog.texts, p text) {id : BoardId} {view : PinView}
    (member : view ∈ catalog.pins id) : ∀ text ∈ view.texts, p text := by
  obtain ⟨bus, here, member⟩ := List.mem_flatMap.1 member
  obtain ⟨⟨slot, index⟩, inside, rfl⟩ := List.mem_map.1 member
  have own := Catalog.texts_of_mem_buses here
  have slots : slot.texts ⊆ catalog.texts := fun text there =>
    own (List.mem_append_left _ (List.mem_append_right _
      (List.mem_flatMap.2 ⟨slot, List.fst_mem_of_mem_zipIdx inside, there⟩)))
  have top : slot.top.texts ⊆ catalog.texts :=
    List.Subset.trans (List.subset_append_left ..) slots
  let view := catalog.pinView bus bus.bus.slots.length index slot
  have nets : ∀ name ∈ view.netName, p name :=
    glued.netName (fun text there => all text (top there)) (all _ (own bus.bus.outputName_mem_texts))
  have additions : additionTexts view.additions ⊆ catalog.texts :=
    List.Subset.trans (additionTexts_mergedWith _ _) (List.append_subset.2
      ⟨Catalog.texts_ownerAdditions own slot.top,
        List.Subset.trans (List.subset_append_right ..) top⟩)
  intro text shown
  simp only [PinView.texts, List.cons_append, List.mem_cons, List.mem_append, Option.mem_toList,
    or_assoc] at shown
  rcases shown with rfl | net | pin | addition
  · exact glued.indexed _ (all _ (own List.mem_cons_self))
  · exact nets text net
  · refine all text (slots (slot.texts_bottom ?_))
    simp [Pin.texts, show slot.bottom.name = some text from pin]
  · exact all text (additions addition)

end Pinout
