/-! # Documents

The shape of what is exported, before a format is chosen: texts, truth values and absent values,
lists, and records whose fields have an order.
-/

namespace Pinout.Export

inductive Document where
  | absent
  | truth (value : Bool)
  | text (value : String)
  | list (items : List Document)
  | record (fields : List (String × Document))
deriving Repr

namespace Document

def ofOption : Option String → Document
  | some value => text value
  | none => absent

def ofStrings (values : List String) : Document :=
  list (values.map text)

end Document

end Pinout.Export
