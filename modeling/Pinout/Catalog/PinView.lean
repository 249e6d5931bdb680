import Pinout.Catalog.Inheritance

/-! # Pins as they are seen

What a pin is called depends on where it sits. A header position is named after its bus, with the
index of the pin where the bus has several; that name, or the alias of the bus, is what pins of two
boards are paired by. The chip pin is that of the bottom of the stack, and the additions are those
of the bus the top pin came from.
-/

namespace Pinout

/-- A header position, addressed by its bus and its index there. -/
structure PinRef where
  bus : BusRef
  index : Nat
deriving Repr, DecidableEq

structure PinView where
  ref : PinRef
  busName : String
  /-- The name of the bus in nets and when pins of two boards are paired. -/
  outputName : String
  /-- How many positions the bus has. -/
  busSize : Nat
  slot : Slot
  /-- The bus the top pin came from: that of the wing for a pin of a wing. -/
  owner : BusRef
  /-- Whether the owner belongs to a wing. -/
  isWing : Bool
  ownerAdditions : Additions
deriving Repr, DecidableEq

namespace PinView

def pin (view : PinView) : Pin :=
  view.slot.top

def physicalName (view : PinView) : Option String :=
  view.slot.bottom.name

/-- A name, with the index behind it where the bus has several pins. -/
def indexed (view : PinView) (base : String) : String :=
  if 1 < view.busSize then base ++ toString view.ref.index else base

def canonicalName (view : PinView) : String :=
  view.indexed view.busName

/-- The name by which pins of two boards are paired. -/
def constraintName (view : PinView) : String :=
  view.indexed view.outputName

/-- The name of the net, if the position is connected. A wing names its nets itself. -/
def netName (view : PinView) : Option String :=
  if view.isWing then
    view.pin.name.filter (!·.isEmpty)
  else
    let base := match view.pin.aliasName with
      | some name => if name.isEmpty then view.outputName else name
      | none => view.outputName
    if 1 < view.busSize then
      some (base ++ "(" ++ toString view.ref.index ++ ")")
    else
      some base

def additions (view : PinView) : Additions :=
  Additions.mergedWith view.ownerAdditions view.pin.additions

def describe (view : PinView) : String :=
  view.canonicalName ++ " -> " ++ view.physicalName.getD "<unconnected>"

end PinView

namespace Catalog

def ownerAdditions (catalog : Catalog) (bus : Bus) (pin : Pin) : Additions :=
  match pin.origin with
  | none => bus.additions
  | some origin => ((catalog.bus? origin).map (·.additions)).getD {}

def pinView (catalog : Catalog) (bus : BusView) (size index : Nat) (slot : Slot) : PinView :=
  let owner := slot.top.origin.getD bus.ref
  { ref := ⟨bus.ref, index⟩
    busName := bus.bus.name
    outputName := bus.bus.outputName
    busSize := size
    slot
    owner
    isWing := (catalog.board owner.board).isWing
    ownerAdditions := catalog.ownerAdditions bus.bus slot.top }

def pinsOf (catalog : Catalog) (bus : BusView) : List PinView :=
  let size := bus.bus.slots.length
  bus.bus.slots.zipIdx.map fun (slot, index) => catalog.pinView bus size index slot

def pins (catalog : Catalog) (id : BoardId) : List PinView :=
  (catalog.buses id).flatMap catalog.pinsOf

end Catalog

end Pinout
