import Pinout.Constraint.Generation
import Pinout.Yaml.Mapping

/-! # Profiles

Layout options can be kept in a file, as a YAML mapping from their names to truth values. Options
that are not mentioned are off, and other keys are ignored.
-/

namespace Pinout.Constraint.Options

def option? (name : String) (entries : List (String × Option Yaml.Scalar)) : Option Bool :=
  match entries.filter (·.1 = name) with
  | [] => some false
  | [(_, value)] => value.bind Yaml.Scalar.truth?
  | _ => none

def ofProfile? (text : String) : Option Options := do
  let entries ← Yaml.mapping? text
  return { sorted := ← option? "sorted" entries
           collapseColumns := ← option? "collapse_columns" entries
           excludeUnusedPins := ← option? "exclude_unused_pins" entries
           spacesAroundEquals := ← option? "spaces_around_equals" entries }

end Pinout.Constraint.Options
