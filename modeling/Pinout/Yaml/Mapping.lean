import Pinout.Yaml.Layout
import Pinout.Yaml.Node

/-! # Mappings with names

Settings are written as one document with a mapping from names to scalars. A document without
content is an empty mapping. What a collection inside holds does not matter, as long as it is well
formed.
-/

namespace Pinout.Yaml

/-- The truth value that a scalar is. It is written plainly, or as a literal block with a tag that
says so. -/
def Scalar.truth? (scalar : Scalar) : Option Bool :=
  match scalar.form with
  | .plain => Yaml.truth? scalar.text
  | .literal => if scalar.tag = some truthTag then Yaml.truth? scalar.text else none
  | _ => none

/-- The names and values of a document, when it is a mapping. Collections have no value. -/
def Document.entries? (document : Document) : Option (List (String × Option Scalar)) :=
  match document.root with
  | .mapping entries =>
    entries.mapM fun (key, value) =>
      (document.scalar? key).map fun name => (.ofList name.text, document.scalar? value)
  | .scalar value => if value.form = .plain ∧ value.text = [] then some [] else none
  | _ => none

def mapping? (text : String) : Option (List (String × Option Scalar)) := do
  (← Document.ofTokens? (← tokens? text)).entries?

end Pinout.Yaml
