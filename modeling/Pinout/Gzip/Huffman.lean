import Pinout.Gzip.Error

/-! # Prefix codes

A code is given by the lengths of its words: shorter words come first, and words of one length in
the order of their symbols. It is kept as a binary tree, which decoding walks down one bit at a
time.
-/

namespace Pinout.Gzip

abbrev Bits :=
  List Bool

inductive HuffmanTree where
  | unused
  | symbol (value : Nat)
  | branch (zero one : HuffmanTree)
deriving Repr, DecidableEq

namespace HuffmanTree

/-- The tree below a word of the given length, for words listed by increasing length, and the words
that found no place in it. -/
def subtree : (room length : Nat) → List (Nat × Nat) → HuffmanTree × List (Nat × Nat)
  | _, _, [] => (unused, [])
  | 0, _, words => (unused, words)
  | room + 1, length, (wordLength, value) :: words =>
    if wordLength = length then
      (symbol value, words)
    else
      let (zero, words) := subtree room (length + 1) ((wordLength, value) :: words)
      let (one, words) := subtree room (length + 1) words
      (branch zero one, words)

/-- The symbols that have words, with the lengths, in the order of their words. -/
def wordsOf (lengths : List Nat) : List (Nat × Nat) :=
  (lengths.zipIdx.filter (·.1 ≠ 0)).mergeSort fun a b => a.1 ≤ b.1

/-- How much of all words of fifteen bits the words of a code begin. -/
def coverage (words : List (Nat × Nat)) : Nat :=
  words.foldr (fun word total => (1 <<< (15 - word.1)) + total) 0

/-- The code with some lengths, which must begin every word once. -/
def complete? (lengths : List Nat) : Except GzipError HuffmanTree :=
  let words := wordsOf lengths
  if coverage words = 1 <<< 15 then .ok (subtree 16 0 words).1 else .error .corruptStream

/-- The code with some lengths, for symbols of which one or none may be in use: a single word has
one bit then, and the other bit begins no word. -/
def ofLengths? (lengths : List Nat) : Except GzipError HuffmanTree :=
  match wordsOf lengths with
  | [] => .ok (branch unused unused)
  | [(1, value)] => .ok (branch (symbol value) unused)
  | _ => complete? lengths

def decode : HuffmanTree → Bits → Except GzipError (Nat × Bits)
  | unused, _ => .error .corruptStream
  | symbol value, bits => .ok (value, bits)
  | branch _ _, [] => .error .incompleteStream
  | branch zero one, bit :: bits => if bit then decode one bits else decode zero bits

end HuffmanTree

end Pinout.Gzip
