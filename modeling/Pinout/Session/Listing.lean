import Pinout.Catalog.Basic
import Pinout.Grid
import Pinout.Text.Blank

/-! # Listing boards

A table of the boards and wings of a catalog, ordered by primary name.
-/

namespace Pinout.Session

inductive ListScope where
  | boards
  | wings
  | all
deriving Repr, DecidableEq

structure UnknownScope where
  text : String
deriving Repr, DecidableEq

def UnknownScope.message (error : UnknownScope) : String :=
  "Unknown list scope `" ++ error.text ++ "`"

namespace ListScope

def parse (text : String) : Except UnknownScope ListScope :=
  match Text.lower (Text.trimmed text) with
  | "" => .ok .all
  | "all" => .ok .all
  | "*" => .ok .all
  | "board" => .ok .boards
  | "boards" => .ok .boards
  | "wing" => .ok .wings
  | "wings" => .ok .wings
  | _ => .error ⟨text⟩

def kinds : ListScope → List (BoardKind × String)
  | boards => [(.board, "Board")]
  | wings => [(.wing, "Wing")]
  | all => [(.board, "Board"), (.wing, "Wing")]

end ListScope

def listRow (label : String) (board : Board) : List String :=
  [board.primaryName, label, ", ".intercalate board.aliases]

def listing (catalog : Catalog) (scope : ListScope) : Grid :=
  let grid : Grid :=
    { headings := ["Name", "Type", "Aliases"]
      rows := scope.kinds.flatMap fun (kind, label) =>
        (catalog.boards kind).map fun id => listRow label (catalog.board id) }
  grid.sortBy 0

end Pinout.Session
