import Pinout.BusRange
import Pinout.Catalog.PinView
import Std.Data.TreeSet

/-! # Choosing header pins

A filter lists buses and ranges of buses. The name of a bus means all of it; any other entry is read
as a range, and means the pins of the bus of that name that the range spells. Pins are grouped by
bus, the buses in the order in which the filter first mentions them, and no pin is chosen twice. An
entry for a bus the board does not have chooses nothing.
-/

namespace Pinout.Constraint

inductive PinFilter where
  | all
  | only (entries : List String)
deriving Repr, DecidableEq

namespace PinFilter

/-- Reads `all` in any ASCII case, or a comma-separated list. -/
def parse (text : String) : PinFilter :=
  if (Text.trim text.toList).map Char.toLower = ['a', 'l', 'l'] then
    .all
  else
    .only (Text.commaItems text)

/-- A bus chosen by an entry, as a whole or at some canonical names in lower case. -/
structure Mention where
  bus : BusView
  names : Option (Std.TreeSet String)
deriving Repr

def Mention.covers (mention : Mention) (view : PinView) : Bool :=
  mention.bus.ref = view.ref.bus &&
    match mention.names with
    | none => true
    | some names => names.contains (Text.lower view.canonicalName)

def mention? (buses : NameIndex BusView) (entry : String) :
    Except BusRangeError (Option Mention) :=
  match buses.find? entry with
  | some bus => .ok (some ⟨bus, none⟩)
  | none => do
    let range ← BusRange.parse entry
    return (buses.find? range.name).map fun bus =>
      ⟨bus, some (.ofList (range.names.map Text.lower))⟩

def mentioned (catalog : Catalog) (mentions : List Mention) : List PinView :=
  let buses := (mentions.map (·.bus)).eraseDupsBy fun a b => a.ref == b.ref
  buses.flatMap fun bus =>
    (catalog.pinsOf bus).filter fun view => mentions.any (·.covers view)

def select (catalog : Catalog) (board : BoardId) :
    PinFilter → Except BusRangeError (List PinView)
  | .all => .ok (catalog.pins board)
  | .only entries => do
    let mentions ← entries.mapM (mention? (catalog.busesByName board))
    return mentioned catalog (mentions.filterMap id)

end PinFilter

end Pinout.Constraint
