import Pinout.Catalog.PinView
import Pinout.Export.Document
import Pinout.Text.Blank

/-! # Summaries

A board with all that it inherits and with the wings that were plugged in, as plain values.
-/

namespace Pinout.Export

structure PinSummary where
  canonical : String
  net : Option String
  physical : Option String
  additions : List Assignment
deriving Repr, DecidableEq

structure BusSummary where
  name : String
  /-- The primary name of the board that has the bus itself. -/
  board : String
  pins : List PinSummary
deriving Repr, DecidableEq

structure BoardSummary where
  names : List String
  parent : Option String
  wing : Bool
  header : Option String
  configs : List Assignment
  buses : List BusSummary
deriving Repr, DecidableEq

def PinSummary.of (view : PinView) : PinSummary where
  canonical := view.canonicalName
  net := view.netName
  physical := view.physicalName
  additions := view.additions.entries

def BusSummary.of (catalog : Catalog) (view : BusView) : BusSummary where
  name := view.bus.name
  board := (catalog.board view.ref.board).primaryName
  pins := (catalog.pinsOf view).map .of

def summaryHeader (header : String) : Option String :=
  if header.isEmpty then none else some (.ofList (Text.trimEnd header.toList))

def BoardSummary.of (catalog : Catalog) (id : BoardId) : BoardSummary where
  names := (catalog.board id).names
  parent := (catalog.parent? id).map fun parent => (catalog.board parent).primaryName
  wing := (catalog.board id).isWing
  header := summaryHeader (catalog.header id)
  configs := catalog.configs id
  buses := (catalog.buses id).map (.of catalog)

def assignmentDocument (assignment : Assignment) : Document :=
  .list [.text assignment.1, .ofOption assignment.2]

def assignmentsDocument (assignments : List Assignment) : Document :=
  .list (assignments.map assignmentDocument)

def PinSummary.toDocument (pin : PinSummary) : Document :=
  .record <|
    [("canonical", .text pin.canonical), ("net", .ofOption pin.net),
      ("physical", .ofOption pin.physical)] ++
    if pin.additions.isEmpty then [] else [("additions", assignmentsDocument pin.additions)]

def BusSummary.toDocument (bus : BusSummary) : Document :=
  .record [("name", .text bus.name), ("board", .text bus.board),
    ("pins", .list (bus.pins.map (·.toDocument)))]

def BoardSummary.toDocument (board : BoardSummary) : Document :=
  .record [("names", .ofStrings board.names), ("parent", .ofOption board.parent),
    ("wing", .truth board.wing), ("header", .ofOption board.header),
    ("configs", assignmentsDocument board.configs),
    ("buses", .list (board.buses.map (·.toDocument)))]

end Pinout.Export
