import Pinout.Export.Json
import Pinout.Export.Summary
import Pinout.Export.Yaml

/-! # Exports

Boards are chosen by any of their names, and written together as one document. The name `:all`
chooses every board.
-/

namespace Pinout.Export

inductive Format where
  | json
  | yaml
deriving Repr, DecidableEq

structure UnknownFormat where
  text : String
deriving Repr, DecidableEq

def UnknownFormat.message (error : UnknownFormat) : String :=
  "Unknown export format `" ++ error.text ++ "`"

def Format.parse (text : String) : Except UnknownFormat Format :=
  match Text.lower text with
  | "json" => .ok .json
  | "yaml" => .ok .yaml
  | "yml" => .ok .yaml
  | _ => .error ⟨text⟩

def wanted (wantedNames names : List String) : Bool :=
  wantedNames.contains ":all" ||
    names.any fun name => wantedNames.any fun wantedName => sameName wantedName name

/-- The wanted boards of the catalog: boards, then wings. -/
def chosen (catalog : Catalog) (wantedNames : List String) : List BoardId :=
  (catalog.boards .board ++ catalog.boards .wing).filter fun id =>
    wanted wantedNames (catalog.board id).names

def render (format : Format) (summaries : List BoardSummary) : String :=
  let document := Document.list (summaries.map (·.toDocument))
  match format with
  | .json => Json.render document
  | .yaml => Yaml.render document

end Pinout.Export
