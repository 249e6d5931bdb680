import Pinout.Caseless
import Pinout.Text.Fields

/-! # Requested placements

A directive `wing->slot,slot;wing->slot` asks for wings to be plugged in at header positions.
Requests wait until constraints are written. A position is written as a bus and the number of its
first pin: `AL` becomes `A0`, `AH` becomes `A8`, and any other text gets a zero behind it. Each
position waits for one wing, the one requested last, in the order in which positions were first
requested.
-/

namespace Pinout.Wing

structure Request where
  position : String
  wing : String
deriving Repr, DecidableEq

structure Replacement where
  wing : String
  replaced : String
  position : String
deriving Repr, DecidableEq

namespace Replacement

def message (replacement : Replacement) : String :=
  "Wing " ++ replacement.wing ++ " will override wing " ++ replacement.replaced ++
    " at header pin " ++ replacement.position

end Replacement

/-- The first pin that a destination of a directive means. -/
def normalizeDestination (destination : String) : String :=
  let cs := destination.toList
  match cs.getLast? with
  | some 'l' | some 'L' => .ofList (cs.dropLast ++ ['0'])
  | some 'h' | some 'H' => .ofList (cs.dropLast ++ ['8'])
  | _ => .ofList (cs ++ ['0'])

/-- The requests of one part of a directive. A part without an arrow requests nothing. -/
def partRequests (part : String) : List Request :=
  match Text.splitArrow? part.toList with
  | some (wing, destinations) =>
    (Text.items ',' (Text.trim destinations)).map fun destination =>
      ⟨normalizeDestination (.ofList destination), .ofList (Text.trim wing)⟩
  | none => []

def requests (directive : String) : List Request :=
  (Text.semicolonItems directive).flatMap partRequests

abbrev Placements :=
  CaselessMap String

namespace Placements

def add (placements : Placements) (request : Request) : Placements :=
  placements.insert (.ofString request.position) request.wing

def addDirective (placements : Placements) (directive : String) : Placements :=
  (requests directive).foldl add placements

def replacements (placements : Placements) : List Request → List Replacement
  | [] => []
  | request :: rest =>
    match placements.find? request.position with
    | some replaced =>
      ⟨request.wing, replaced, request.position⟩ :: replacements (placements.add request) rest
    | none => replacements (placements.add request) rest

def toRequests (placements : Placements) : List Request :=
  placements.entries.map fun (position, wing) => ⟨position.spelling, wing⟩

end Placements

end Pinout.Wing
