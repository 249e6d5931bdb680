import Pinout.BusRange

/-! # Texts that look like other values

A plain scalar that spells an absent value, a truth value or a number is read as one. Numbers are
signed decimals, or hexadecimal, octal and binary ones behind `0x`, `0o` and `0b`, as far as they
fit 128 bits; and floating point numbers, as far as they are finite. Decimal digits behind a
superfluous zero are no number.
-/

namespace Pinout.Yaml

def isAbsent (cs : List Char) : Bool :=
  cs.isEmpty || ["null", "Null", "NULL", "~"].contains (String.ofList cs)

def truth? (cs : List Char) : Option Bool :=
  let s := String.ofList cs
  if ["true", "True", "TRUE"].contains s then some true
  else if ["false", "False", "FALSE"].contains s then some false
  else none

def digit? (base : Nat) (c : Char) : Option Nat :=
  let value? :=
    if c.isDigit then some (c.toNat - 0x30)
    else if 'a' ≤ c ∧ c ≤ 'f' then some (c.toNat - 0x61 + 10)
    else if 'A' ≤ c ∧ c ≤ 'F' then some (c.toNat - 0x41 + 10)
    else none
  value?.filter (· < base)

def natural? (base : Nat) (cs : List Char) : Option Nat :=
  if cs.isEmpty then none
  else cs.foldlM (fun value c => (digit? base c).map (value * base + ·)) 0

def unsigned (cs : List Char) : List Char :=
  match cs with
  | '+' :: rest => rest
  | '-' :: rest => rest
  | _ => cs

def isPaddedDigits (cs : List Char) : Bool :=
  match unsigned cs with
  | '0' :: c :: rest => (c :: rest).all Char.isDigit
  | _ => false

def magnitude? : List Char → Option Nat
  | '0' :: 'x' :: rest => natural? 16 rest
  | '0' :: 'o' :: rest => natural? 8 rest
  | '0' :: 'b' :: rest => natural? 2 rest
  | cs => natural? 10 cs

def isInteger (cs : List Char) : Bool :=
  !isPaddedDigits cs &&
    match cs with
    | '-' :: rest => (magnitude? rest).any (· ≤ 1 <<< 127)
    | '+' :: rest => (magnitude? rest).any (· < 1 <<< 128)
    | _ => (magnitude? cs).any (· < 1 <<< 128)

/-- The exponent at the end of a number, zero where there is none. -/
def exponent? : List Char → Option Int
  | [] => some 0
  | c :: cs =>
    if c = 'e' ∨ c = 'E' then
      match cs with
      | '-' :: digits => (natural? 10 digits).map fun value => -(value : Int)
      | '+' :: digits => (natural? 10 digits).map fun value => (value : Int)
      | digits => (natural? 10 digits).map fun value => (value : Int)
    else
      none

/-- Digits and a power of ten: `12.5e3` is `125` with `2`. -/
def decimal? (cs : List Char) : Option (Nat × Int) := do
  let whole := cs.takeWhile Char.isDigit
  let rest := cs.dropWhile Char.isDigit
  let (fraction, rest) := match rest with
    | '.' :: rest => (rest.takeWhile Char.isDigit, rest.dropWhile Char.isDigit)
    | _ => ([], rest)
  let digits ← natural? 10 (whole ++ fraction)
  let exponent ← exponent? rest
  return (digits, exponent - fraction.length)

/-- Whether `digits · 10 ^ power` rounds to a finite double: below the middle of the greatest one
and the power of two behind it. -/
def isFiniteDecimal (digits : Nat) (power : Int) : Bool :=
  let bound := (1 <<< 1024) - (1 <<< 970)
  let size := (Nat.toDigits 10 digits).length + power
  if digits = 0 ∨ size ≤ 308 then true
  else if 309 < size then false
  else if 0 ≤ power then digits * Nat.pow 10 power.toNat < bound
  else digits < bound * Nat.pow 10 (-power).toNat

def isFloat (cs : List Char) : Bool :=
  let s := String.ofList cs
  let positive := match cs with
    | '+' :: rest => rest
    | _ => cs
  [".inf", ".Inf", ".INF"].contains (String.ofList positive) ||
    ["-.inf", "-.Inf", "-.INF", ".nan", ".NaN", ".NAN"].contains s ||
    (!isPaddedDigits cs && (decimal? (unsigned cs)).any fun (digits, power) =>
      isFiniteDecimal digits power)

/-- Whether a plain scalar of this text would not be read as a text. -/
def isOtherValue (cs : List Char) : Bool :=
  isAbsent cs || (truth? cs).isSome || isInteger cs || isFloat cs

end Pinout.Yaml
