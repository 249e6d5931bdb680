import Pinout.Catalog.PinView
import Pinout.Constraint.Line
import Pinout.Moves

/-! # Pairing the pins of two boards

Two boards meet at their headers: a chip pin of one corresponds to the chip pin of the other that is
wired to the same header position, after the moves asked for. Where a board has two positions of one
name the later one counts, connected or not. A pin without a counterpart is left out.
-/

namespace Pinout.Catalog

def byConstraintName (catalog : Catalog) (id : BoardId) : NameIndex PinView :=
  .ofList <| (catalog.pins id).map fun view => (view.constraintName, view)

def pairPin? (targets : NameIndex PinView) (moves : Moves) (view : PinView) :
    Option (String × String) := do
  let source ← view.physicalName
  let counterpart ← targets.find? (moves.destination view.constraintName)
  let target ← counterpart.physicalName
  return (source, target)

def pinMap (catalog : Catalog) (source target : BoardId) (moves : Moves) :
    Constraint.PinMap :=
  let targets := catalog.byConstraintName target
  .ofList ((catalog.pins source).filterMap (pairPin? targets moves))

end Pinout.Catalog
