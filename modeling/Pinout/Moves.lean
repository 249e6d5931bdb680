import Pinout.BusRange
import Pinout.NameIndex

/-! # Moves

A move renames header pins before two boards are paired: `A->B` sends all of `A` to `B`, and
`A[15:0]->A[0:15]` turns a bus around. The pins of both ranges are paired position by position, as
far as the shorter range goes, and a later move overrides an earlier one for the same pin. A name is
moved once: what it is moved to is not looked up again.
-/

namespace Pinout

/-- What header pins are moved to. -/
abbrev Moves :=
  NameIndex String

namespace Moves

def pinsOf (command : String) : Except BusRangeError (List (String × String)) := do
  let (source, target) := Text.arrowOf command
  let source ← BusRange.parse source
  let target ← BusRange.parse target
  return source.pairs target

def addPins (moves : Moves) (pins : List (String × String)) : Moves :=
  moves.insertAll pins

def addCommands (moves : Moves) : List String → Moves × Except BusRangeError Unit
  | [] => (moves, .ok ())
  | command :: commands =>
    match pinsOf command with
    | .ok pins => addCommands (moves.addPins pins) commands
    | .error error => (moves, .error error)

def addDirective (moves : Moves) (directive : String) : Moves × Except BusRangeError Unit :=
  moves.addCommands (Text.commaItems directive)

/-- Where a name is moved; a name that is not moved stays. -/
def destination (moves : Moves) (name : String) : String :=
  (moves.find? name).getD name

end Moves

end Pinout
