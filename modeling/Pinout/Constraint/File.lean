import Pinout.Catalog.PinView
import Pinout.Constraint.Line
import Pinout.Text.Lines
import Std.Data.TreeSet

/-! # Constraint files

A constraint file is rewritten line by line, every line ended by a line feed. Checking one lists the
lines whose pin the board does not have.
-/

namespace Pinout.Constraint

def transform (map : PinMap) (text : String) : String :=
  String.join ((Text.linesOf text).map fun line => transformLine map line ++ "\n")

/-- A line that ties a net to a pin the board does not have. Lines count from one. -/
structure InvalidPin where
  lineNumber : Nat
  pin : String
  line : String
deriving Repr, DecidableEq

namespace InvalidPin

def message (invalid : InvalidPin) : String :=
  "Invalid FPGA pin '" ++ invalid.pin ++ "': " ++ invalid.line

end InvalidPin

def invalidPins (known : Std.TreeSet String) (text : String) : List InvalidPin :=
  (Text.linesOf text).zipIdx.filterMap fun (line, index) =>
    match locPin? line with
    | some pin => if known.contains pin then none else some ⟨index + 1, pin, line⟩
    | none => none

def validate (catalog : Catalog) (board : BoardId) (text : String) : List InvalidPin :=
  invalidPins (.ofList ((catalog.pins board).filterMap (·.physicalName))) text

end Pinout.Constraint
