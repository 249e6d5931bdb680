/-! # Characters

The classes of characters that the rules of YAML speak of.
-/

namespace Pinout.Yaml

def isBreak (c : Char) : Bool :=
  [0x0A, 0x0D, 0x85, 0x2028, 0x2029].contains c.toNat

def isBlank (c : Char) : Bool :=
  c == ' ' || c == '\t'

def isSeparator (c : Char) : Bool :=
  isBlank c || isBreak c

/-- The characters that may stand outside of double quotation marks. -/
def isPrintable (c : Char) : Bool :=
  let code := c.toNat
  code == 0x0A || (0x20 ≤ code && code ≤ 0x7E) || (0xA0 ≤ code && code ≤ 0xD7FF) ||
    (0xE000 ≤ code && code ≤ 0xFFFD && code != 0xFEFF) || 0x10000 ≤ code

def isOrderMark (c : Char) : Bool :=
  c.toNat == 0xFEFF

def isReadable (c : Char) : Bool :=
  c == '\t' || c == '\r' || c.toNat == 0x85 || isOrderMark c || isPrintable c

/-- The characters that a plain scalar must not start with: `#,[]{}&*!|>'"%@` and the grave accent.
-/
def isIndicator (c : Char) : Bool :=
  [0x23, 0x2C, 0x5B, 0x5D, 0x7B, 0x7D, 0x26, 0x2A, 0x21, 0x7C, 0x3E, 0x27, 0x22, 0x25, 0x40,
    0x60].contains c.toNat

def isFlowIndicator (c : Char) : Bool :=
  [',', '[', ']', '{', '}'].contains c

def isNameChar (c : Char) : Bool :=
  c.isAlphanum || c == '_' || c == '-'

end Pinout.Yaml
