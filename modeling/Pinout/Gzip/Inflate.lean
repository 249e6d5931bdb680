import Pinout.Gzip.Huffman

/-! # Inflating

A deflate stream is a sequence of blocks: bytes as they are, or symbols of a prefix code that stand
for bytes or for copies of what was written before. Every symbol and every block takes at least one
bit, so the number of bits bounds all loops.
-/

namespace Pinout.Gzip

/-- The bits of bytes, the lowest of each byte first. -/
def bitsOf (bytes : List UInt8) : Bits :=
  bytes.flatMap fun byte => (List.range 8).map fun i => byte.toNat.testBit i

def takeNumber : Nat → Bits → Except GzipError (Nat × Bits)
  | 0, bits => .ok (0, bits)
  | _ + 1, [] => .error .incompleteStream
  | n + 1, bit :: bits => do
    let (value, bits) ← takeNumber n bits
    return (bit.toNat + 2 * value, bits)

/-- The least length of each length symbol, and the number of bits that add to it. -/
def lengthTable : List (Nat × Nat) :=
  [(3, 0), (4, 0), (5, 0), (6, 0), (7, 0), (8, 0), (9, 0), (10, 0), (11, 1), (13, 1), (15, 1),
   (17, 1), (19, 2), (23, 2), (27, 2), (31, 2), (35, 3), (43, 3), (51, 3), (59, 3), (67, 4),
   (83, 4), (99, 4), (115, 4), (131, 5), (163, 5), (195, 5), (227, 5), (258, 0)]

/-- The least distance of each distance symbol, and the number of bits that add to it. -/
def distanceTable : List (Nat × Nat) :=
  [(1, 0), (2, 0), (3, 0), (4, 0), (5, 1), (7, 1), (9, 2), (13, 2), (17, 3), (25, 3), (33, 4),
   (49, 4), (65, 5), (97, 5), (129, 6), (193, 6), (257, 7), (385, 7), (513, 8), (769, 8),
   (1025, 9), (1537, 9), (2049, 10), (3073, 10), (4097, 11), (6145, 11), (8193, 12), (12289, 12),
   (16385, 13), (24577, 13)]

/-- The number that a symbol of a table stands for, with the bits that add to it. -/
def takeEntry (table : List (Nat × Nat)) (symbol : Nat) (bits : Bits) :
    Except GzipError (Nat × Bits) :=
  match table[symbol]? with
  | none => .error .corruptStream
  | some (base, extra) => do
    let (added, bits) ← takeNumber extra bits
    return (base + added, bits)

/-- Writes bytes again that stand some distance back. In front of the first byte there are zeros. -/
def copyBack (output : Array UInt8) (distance : Nat) : Nat → Array UInt8
  | 0 => output
  | n + 1 =>
    let byte := if distance ≤ output.size then output[output.size - distance]?.getD 0 else 0
    copyBack (output.push byte) distance n

def inflateSymbols (literals distances : HuffmanTree) :
    Nat → Array UInt8 → Bits → Except GzipError (Array UInt8 × Bits)
  | 0, _, _ => .error .incompleteStream
  | fuel + 1, output, bits => do
    let (symbol, bits) ← literals.decode bits
    if symbol < 256 then
      inflateSymbols literals distances fuel (output.push symbol.toUInt8) bits
    else if symbol = 256 then
      return (output, bits)
    else
      let (length, bits) ← takeEntry lengthTable (symbol - 257) bits
      let (symbol, bits) ← distances.decode bits
      let (distance, bits) ← takeEntry distanceTable symbol bits
      inflateSymbols literals distances fuel (copyBack output distance length) bits

def fixedLiteralLengths : List Nat :=
  List.replicate 144 8 ++ List.replicate 112 9 ++ List.replicate 24 7 ++ List.replicate 8 8

def fixedDistanceLengths : List Nat :=
  List.replicate 32 5

/-- The order in which the lengths of the code for lengths are written. -/
def lengthOrder : List Nat :=
  [16, 17, 18, 0, 8, 7, 9, 6, 10, 5, 11, 4, 12, 3, 13, 2, 14, 1, 15]

def takeTriples : Nat → Bits → Except GzipError (List Nat × Bits)
  | 0, bits => .ok ([], bits)
  | n + 1, bits => do
    let (value, bits) ← takeNumber 3 bits
    let (values, bits) ← takeTriples n bits
    return (value :: values, bits)

/-- Code lengths, as written by a code for lengths, up to a total number. `read` holds those read,
the last one first. -/
def takeLengths (tree : HuffmanTree) (total : Nat) :
    Nat → List Nat → Bits → Except GzipError (List Nat × Bits)
  | 0, _, _ => .error .corruptStream
  | fuel + 1, read, bits =>
    if total ≤ read.length then
      if read.length = total then .ok (read.reverse, bits) else .error .corruptStream
    else do
      let (symbol, bits) ← tree.decode bits
      if symbol < 16 then
        takeLengths tree total fuel (symbol :: read) bits
      else if symbol = 16 then
        match read with
        | [] => .error .corruptStream
        | last :: _ => do
          let (n, bits) ← takeNumber 2 bits
          takeLengths tree total fuel (List.replicate (n + 3) last ++ read) bits
      else if symbol = 17 then do
        let (n, bits) ← takeNumber 3 bits
        takeLengths tree total fuel (List.replicate (n + 3) 0 ++ read) bits
      else do
        let (n, bits) ← takeNumber 7 bits
        takeLengths tree total fuel (List.replicate (n + 11) 0 ++ read) bits

def takeCodes (bits : Bits) : Except GzipError (HuffmanTree × HuffmanTree × Bits) := do
  let (literals, bits) ← takeNumber 5 bits
  let (distances, bits) ← takeNumber 5 bits
  let (lengths, bits) ← takeNumber 4 bits
  if 29 < literals ∨ 29 < distances then
    throw .corruptStream
  let (written, bits) ← takeTriples (lengths + 4) bits
  let lengthOf (symbol : Nat) : Nat :=
    ((lengthOrder.zip written).find? (·.1 = symbol)).elim 0 (·.2)
  let tree ← HuffmanTree.complete? ((List.range 19).map lengthOf)
  let total := (literals + 257) + (distances + 1)
  let (all, bits) ← takeLengths tree total (total + 1) [] bits
  let literalTree ← HuffmanTree.ofLengths? (all.take (literals + 257))
  let distanceTree ← HuffmanTree.ofLengths? (all.drop (literals + 257))
  return (literalTree, distanceTree, bits)

def takeBytes (output : Array UInt8) : Nat → Bits → Except GzipError (Array UInt8 × Bits)
  | 0, bits => .ok (output, bits)
  | n + 1, bits => do
    let (byte, bits) ← takeNumber 8 bits
    takeBytes (output.push byte.toUInt8) n bits

def alignBits (bits : Bits) : Bits :=
  bits.drop (bits.length % 8)

/-- A block of bytes as they are, with their number written twice. -/
def inflateStored (output : Array UInt8) (bits : Bits) :
    Except GzipError (Array UInt8 × Bits) := do
  let (length, bits) ← takeNumber 16 (alignBits bits)
  let (complement, bits) ← takeNumber 16 bits
  if length + complement = 0xFFFF then takeBytes output length bits else throw .corruptStream

def inflateBlocks : Nat → Array UInt8 → Bits → Except GzipError (Array UInt8 × Bits)
  | 0, _, _ => .error .incompleteStream
  | fuel + 1, output, bits => do
    let (last, bits) ← takeNumber 1 bits
    let (kind, bits) ← takeNumber 2 bits
    let (output, bits) ←
      match kind with
      | 0 => inflateStored output bits
      | 1 => do
        let literals ← HuffmanTree.complete? fixedLiteralLengths
        let distances ← HuffmanTree.complete? fixedDistanceLengths
        inflateSymbols literals distances (bits.length + 1) output bits
      | 2 => do
        let (literals, distances, bits) ← takeCodes bits
        inflateSymbols literals distances (bits.length + 1) output bits
      | _ => throw .corruptStream
    if last = 1 then return (output, bits) else inflateBlocks fuel output bits

def inflate (bytes : List UInt8) : Except GzipError (Array UInt8 × Nat) := do
  let bits := bitsOf bytes
  let (output, bits) ← inflateBlocks (bits.length + 1) #[] bits
  return (output, bits.length / 8)

end Pinout.Gzip
