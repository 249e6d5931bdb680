/-! # Blank characters

What separates words in every text this library reads: the twenty-five characters with the property
White_Space. A line terminator is blank; a zero-width space or a byte order mark is not.
-/

namespace Pinout.Text

def isBlank (c : Char) : Bool :=
  let code := c.toNat
  if code < 0x80 then
    (0x09 ≤ code && code ≤ 0x0D) || code == 0x20
  else
    [0x85, 0xA0, 0x1680, 0x2028, 0x2029, 0x202F, 0x205F, 0x3000].contains code ||
      (0x2000 ≤ code && code ≤ 0x200A)

def trimStart (cs : List Char) : List Char :=
  cs.dropWhile isBlank

def trimEnd (cs : List Char) : List Char :=
  (cs.reverse.dropWhile isBlank).reverse

def trim (cs : List Char) : List Char :=
  trimEnd (trimStart cs)

/-- `trim` on strings. -/
def trimmed (s : String) : String :=
  .ofList (trim s.toList)

end Pinout.Text
