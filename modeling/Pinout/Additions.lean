import Pinout.OrderedMap

/-! # Assignments and additions

A definition attaches keys to buses and pins, each with or without a value. Additions hold a key
once: a later assignment replaces the value where the key first stood. A pin's additions override
those of its bus key by key.
-/

namespace Pinout

abbrev Assignment :=
  String × Option String

/-- Assignments with every key once, in the order of first mention. -/
abbrev Additions :=
  OrderedMap String (Option String)

namespace Additions

/-- The assignments of a list, the last value of a key being its value. -/
def collect (assignments : List Assignment) : Additions :=
  OrderedMap.ofList assignments

def mergedWith (base overriding : Additions) : Additions :=
  base.insertAll overriding.entries

end Additions

end Pinout
