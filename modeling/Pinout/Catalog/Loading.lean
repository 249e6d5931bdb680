import Pinout.Catalog.Basic
import Pinout.Definition.Reading

/-! # Loading definitions

A definition text adds its boards to the catalog and all parents are resolved anew. A fault in the
text is no failure: it is handed back beside the boards that were complete before it. A cycle of
parents is one, but the boards are in the catalog all the same, with the cycle cut.
-/

namespace Pinout

inductive CatalogError where
  | inheritanceCycle (names : List String)
  /-- A cycle in a text that also has a fault. -/
  | partialWithCycle (names : List String) (fault : Definition.Diagnostic)
deriving Repr, DecidableEq

namespace CatalogError

def cycleMessage (names : List String) : String :=
  "cyclic board inheritance involving: " ++ ", ".intercalate names

def message : CatalogError → String
  | inheritanceCycle names => cycleMessage names
  | partialWithCycle names fault => cycleMessage names ++ "\n" ++ fault.rendered

/-- The primary names of the boards whose parents were cut. -/
def names : CatalogError → List String
  | inheritanceCycle names => names
  | partialWithCycle names _ => names

end CatalogError

structure LoadSummary where
  registered : List BoardId
  fault : Option Definition.Diagnostic
deriving Repr, DecidableEq

namespace Catalog

def cycleError? (catalog : Catalog) (cut : List BoardId)
    (fault : Option Definition.Diagnostic) : Option CatalogError :=
  let names := cut.map fun id => (catalog.board id).primaryName
  match cut, fault with
  | [], _ => none
  | _ :: _, none => some (.inheritanceCycle names)
  | _ :: _, some fault => some (.partialWithCycle names fault)

def relink (catalog : Catalog) : Catalog × Except CatalogError Unit :=
  let (catalog, cut) := catalog.link
  match catalog.cycleError? cut none with
  | some error => (catalog, .error error)
  | none => (catalog, .ok ())

def load (catalog : Catalog) (kind : BoardKind) (source : String) :
    Catalog × Except CatalogError LoadSummary :=
  let reading := Definition.read source
  let (catalog, registered) := catalog.registerAll kind reading.boards
  let (catalog, cut) := catalog.link
  match catalog.cycleError? cut reading.fault with
  | some error => (catalog, .error error)
  | none => (catalog, .ok ⟨registered, reading.fault⟩)

end Catalog

end Pinout
