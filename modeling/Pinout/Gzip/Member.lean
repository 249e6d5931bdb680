import Pinout.Gzip.Crc32
import Pinout.Gzip.Inflate

/-! # Compressed files

A compressed file begins with a header, which may have optional fields; behind the stream stand a
checksum and the length of the data. What follows is not looked at.
-/

namespace Pinout.Gzip

def takeExactly (n : Nat) (bytes : List UInt8) : Except GzipError (List UInt8 × List UInt8) :=
  if n ≤ bytes.length then .ok (bytes.take n, bytes.drop n) else .error .unexpectedEnd

def littleEndian : List UInt8 → Nat
  | [] => 0
  | byte :: bytes => byte.toNat + 256 * littleEndian bytes

/-- What follows a text that ends with a zero byte, of which at most `room` bytes may come first. -/
def afterText : (room : Nat) → List UInt8 → Except GzipError (List UInt8)
  | _, [] => .error .unexpectedEnd
  | 0, byte :: bytes => if byte = 0 then .ok bytes else .error .headerFieldTooLong
  | room + 1, byte :: bytes => if byte = 0 then .ok bytes else afterText room bytes

def longestText : Nat := 65535

def afterHeader (file : List UInt8) : Except GzipError (List UInt8) := do
  let (start, rest) ← takeExactly 10 file
  let flags ← match start with
    | 0x1F :: 0x8B :: 0x08 :: flags :: _ =>
      if flags &&& 0xE0 = 0 then pure flags.toNat else throw .invalidHeader
    | _ => throw .invalidHeader
  let rest ←
    if flags.testBit 2 then do
      let (size, rest) ← takeExactly 2 rest
      let (_, rest) ← takeExactly (littleEndian size) rest
      pure rest
    else
      pure rest
  let rest ← if flags.testBit 3 then afterText longestText rest else pure rest
  let rest ← if flags.testBit 4 then afterText longestText rest else pure rest
  if flags.testBit 1 then
    let header := file.take (file.length - rest.length)
    let (check, rest) ← takeExactly 2 rest
    if littleEndian check = (crc32 header).toNat % 65536 then
      pure rest
    else
      throw .checksumMismatch
  else
    pure rest

def decompress (file : List UInt8) : Except GzipError (Array UInt8) := do
  let body ← afterHeader file
  let (output, left) ← inflate body
  let (check, rest) ← takeExactly 4 (body.drop (body.length - left))
  let (length, _) ← takeExactly 4 rest
  if littleEndian check = (crc32 output.toList).toNat ∧
      littleEndian length = output.size % (1 <<< 32) then
    return output
  else
    throw .checksumMismatch

end Pinout.Gzip
