import Pinout.Proofs.Catalog.Texts

/-! # Plain catalogs

A catalog is plain if the names, additions and configurations of all its boards are plain. Then so
is all that is shown of their pins.
-/

namespace Pinout

def PlainAssignment (assignment : Assignment) : Prop :=
  Plain assignment.1 ∧ ∀ value ∈ assignment.2, Plain value

instance (assignment : Assignment) : Decidable (PlainAssignment assignment) :=
  inferInstanceAs (Decidable (_ ∧ ∀ value ∈ assignment.2, Plain value))

def PlainAdditions (additions : Additions) : Prop :=
  ∀ assignment ∈ additions.entries, PlainAssignment assignment

instance (additions : Additions) : Decidable (PlainAdditions additions) :=
  inferInstanceAs (Decidable (∀ assignment ∈ additions.entries, PlainAssignment assignment))

structure PlainPin (pin : Pin) : Prop where
  name : ∀ name ∈ pin.name, Plain name
  aliasName : ∀ name ∈ pin.aliasName, Plain name
  additions : PlainAdditions pin.additions

instance (pin : Pin) : Decidable (PlainPin pin) :=
  decidable_of_iff ((∀ name ∈ pin.name, Plain name) ∧ (∀ name ∈ pin.aliasName, Plain name) ∧
      PlainAdditions pin.additions)
    ⟨fun ⟨name, aliasName, additions⟩ => ⟨name, aliasName, additions⟩,
      fun ⟨name, aliasName, additions⟩ => ⟨name, aliasName, additions⟩⟩

/-- Covered pins count, as the one at the bottom is the chip pin. -/
def PlainSlot (slot : Slot) : Prop :=
  ∀ pin ∈ slot.top :: slot.below, PlainPin pin

instance (slot : Slot) : Decidable (PlainSlot slot) :=
  inferInstanceAs (Decidable (∀ pin ∈ slot.top :: slot.below, PlainPin pin))

structure PlainBus (bus : Bus) : Prop where
  name : Plain bus.name
  aliasName : ∀ name ∈ bus.aliasName, Plain name
  slots : ∀ slot ∈ bus.slots, PlainSlot slot
  additions : PlainAdditions bus.additions

instance (bus : Bus) : Decidable (PlainBus bus) :=
  decidable_of_iff (Plain bus.name ∧ (∀ name ∈ bus.aliasName, Plain name) ∧
      (∀ slot ∈ bus.slots, PlainSlot slot) ∧ PlainAdditions bus.additions)
    ⟨fun ⟨name, aliasName, slots, additions⟩ => ⟨name, aliasName, slots, additions⟩,
      fun ⟨name, aliasName, slots, additions⟩ => ⟨name, aliasName, slots, additions⟩⟩

structure PlainBoard (board : Board) : Prop where
  buses : ∀ bus ∈ board.buses, PlainBus bus
  configs : ∀ config ∈ board.configs, PlainAssignment config

instance (board : Board) : Decidable (PlainBoard board) :=
  decidable_of_iff ((∀ bus ∈ board.buses, PlainBus bus) ∧
      ∀ config ∈ board.configs, PlainAssignment config)
    ⟨fun ⟨buses, configs⟩ => ⟨buses, configs⟩, fun ⟨buses, configs⟩ => ⟨buses, configs⟩⟩

def PlainCatalog (catalog : Catalog) : Prop :=
  ∀ entry ∈ catalog.entries, PlainBoard entry.board

instance (catalog : Catalog) : Decidable (PlainCatalog catalog) :=
  inferInstanceAs (Decidable (∀ entry ∈ catalog.entries, PlainBoard entry.board))

theorem PlainAssignment.texts {assignment : Assignment} (plain : PlainAssignment assignment) :
    ∀ text ∈ assignmentTexts assignment, Plain text :=
  List.forall_mem_cons.2 ⟨plain.1, fun value here => plain.2 value (Option.mem_toList.1 here)⟩

theorem PlainAdditions.texts {additions : Additions} (plain : PlainAdditions additions) :
    ∀ text ∈ additionTexts additions, Plain text :=
  List.forall_mem_flatMap.2 fun assignment here => (plain assignment here).texts

theorem PlainPin.texts {pin : Pin} (plain : PlainPin pin) : ∀ text ∈ pin.texts, Plain text := by
  simp only [Pin.texts, List.forall_mem_append, Option.mem_toList]
  exact ⟨⟨plain.name, plain.aliasName⟩, plain.additions.texts⟩

theorem PlainBus.texts {bus : Bus} (plain : PlainBus bus) : ∀ text ∈ bus.texts, Plain text := by
  have slots : ∀ text ∈ bus.slots.flatMap Slot.texts, Plain text :=
    List.forall_mem_flatMap.2 fun slot here => List.forall_mem_flatMap.2 fun pin inside =>
      (plain.slots slot here pin inside).texts
  simp only [Bus.texts, List.cons_append, List.forall_mem_cons, List.forall_mem_append,
    Option.mem_toList]
  exact ⟨plain.name, ⟨plain.aliasName, slots⟩, plain.additions.texts⟩

theorem PlainCatalog.texts {catalog : Catalog} (plain : PlainCatalog catalog) :
    ∀ text ∈ catalog.texts, Plain text := by
  refine List.forall_mem_flatMap.2 fun entry here => ?_
  have board := plain entry (Array.mem_def.2 here)
  rw [Board.texts, List.forall_mem_append]
  exact ⟨List.forall_mem_flatMap.2 fun bus inside => (board.buses bus inside).texts,
    List.forall_mem_flatMap.2 fun config inside => (board.configs config inside).texts⟩

end Pinout
