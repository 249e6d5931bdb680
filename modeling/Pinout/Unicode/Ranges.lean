/-! # Tables of code points

A property of characters is a list of closed ranges of code points, ascending and disjoint. Every
table of this folder starts at U+0080: what holds of ASCII is said in code, where a proof can see
it, and the list is only searched beyond it.
-/

namespace Pinout.Unicode

def inRanges (table : List (Nat × Nat)) (code : Nat) : Bool :=
  table.any fun range => range.1 ≤ code && code ≤ range.2

end Pinout.Unicode
