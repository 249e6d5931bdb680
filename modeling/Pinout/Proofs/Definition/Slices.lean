import Mathlib.Data.List.Induction
import Pinout.Proofs.Definition.Excerpts
import Pinout.Proofs.Text.Bytes

/-! # Excerpts cut out of a text

The line of an excerpt is found by two searches over the bytes of the text, backwards for where it
begins and forwards for where it ends. Both end on a boundary of characters, whatever the offset
they start from, so cutting out the line never fails.
-/

namespace Pinout.Definition

open Text

namespace Excerpt

/-- Where the line with an offset begins: behind the nearest terminator in front of the offset. The
search fails where it leaves the text. -/
def startIn? (bytes : List UInt8) : Nat → Option Nat
  | 0 => some 0
  | offset + 1 =>
    bytes[offset]?.bind fun byte =>
      if isBreakByte byte then some (offset + 1) else startIn? bytes offset

/-- Where a line ends: at the first terminator from an offset on. -/
def stopIn (bytes : List UInt8) (start : Nat) : Nat :=
  start + ((bytes.drop start).takeWhile (!isBreakByte ·)).length

/-- The excerpt whose line is searched byte by byte and cut out of the text, unless it cannot be. -/
def ofBytes? (source : String) (offset : Nat) : Option Excerpt :=
  let bytes := Text.bytes source.toList
  let offset := min offset bytes.length
  (startIn? bytes (min offset (bytes.length - 1))).bind fun start =>
    (slice? start (stopIn bytes start) source.toList).map fun line => ⟨offset, start, line⟩

/-- Nothing is found in what does not end a line, and the search stops behind what does. -/
theorem startIn?_append {front middle : List UInt8}
    (ends : ∀ b ∈ front.getLast?, isBreakByte b = true) (line : ∀ b ∈ middle, isBreakByte b = false)
    (back : List UInt8) {n : Nat} (inside : n ≤ middle.length) :
    startIn? (front ++ (middle ++ back)) (front.length + n) = some front.length := by
  induction n with
  | zero =>
    cases front using List.reverseRecOn with
    | nil => rfl
    | append_singleton front b =>
      have isBreak := ends b (List.getLast?_concat ..)
      rw [Nat.add_zero, List.length_append, List.length_singleton, startIn?, List.append_assoc,
        List.getElem?_append_right (Nat.le_refl _), Nat.sub_self]
      simp [isBreak]
  | succ n ih =>
    have here : (front ++ (middle ++ back))[front.length + n]? = some middle[n] := by
      rw [List.getElem?_append_right (Nat.le_add_right _ _), Nat.add_sub_cancel_left,
        List.getElem?_append_left inside, List.getElem?_eq_getElem inside]
    rw [← Nat.add_assoc, startIn?, here, Option.bind_some, line _ (List.getElem_mem inside)]
    exact ih (Nat.le_of_succ_le inside)

theorem stopIn_bytes (before tail : List Char) :
    stopIn (bytes (before ++ tail)) (byteLength before) =
      byteLength before + byteLength (tail.takeWhile (!isBreak ·)) := by
  rw [stopIn, bytes_append, ← length_bytes before, List.drop_left, takeWhile_bytes, length_bytes,
    length_bytes]

/-- What a search that goes up to a limit has passed: whole lines, and then a part of one line. -/
structure Passed (limit : Nat) (before middle : List Char) : Prop where
  ends : ∀ c ∈ before.getLast?, isBreak c = true
  inside : byteLength before ≤ limit
  oneLine : OneLine middle

variable {limit : Nat} {before middle : List Char}

theorem lineFrom_spec (passed : Passed limit before middle) (rest : List Char) :
    ∃ before' middle' rest', Passed limit before' middle' ∧
      (rest' = [] ∨ limit ≤ byteLength before' + byteLength middle') ∧
      before ++ (middle ++ rest) = before' ++ (middle' ++ rest') ∧
      lineFrom limit (byteLength before, middle ++ rest) (byteLength before + byteLength middle)
        rest = (byteLength before', middle' ++ rest') := by
  induction rest generalizing before middle with
  | nil => exact ⟨before, middle, [], passed, .inl rfl, rfl, rfl⟩
  | cons c rest ih =>
    rw [lineFrom]
    split
    · next below =>
      cases h : isBreak c with
      | true =>
        -- the next line begins behind the terminator
        have size := utf8Size_of_isBreak h
        have length : byteLength (before ++ (middle ++ [c])) =
            byteLength before + byteLength middle + 1 := by
          simp [size, Nat.add_assoc]
        have passed' : Passed limit (before ++ (middle ++ [c])) [] := {
          ends := by
            rw [← List.append_assoc, List.getLast?_concat]
            rintro _ ⟨⟩
            exact h
          inside := by omega
          oneLine := List.forall_mem_nil _ }
        obtain ⟨before', middle', rest', here, reached, split, found⟩ := ih passed'
        refine ⟨before', middle', rest', here, reached, ?_, ?_⟩
        · rw [← split]
          simp
        · rw [← found, length, size]
          rfl
      | false =>
        have passed' : Passed limit before (middle ++ [c]) := {
          passed with
          oneLine := oneLine_append.2 ⟨passed.oneLine, List.forall_mem_singleton.2 h⟩ }
        obtain ⟨before', middle', rest', here, reached, split, found⟩ := ih passed'
        refine ⟨before', middle', rest', here, reached, ?_, ?_⟩
        · rw [← split]
          simp
        · rw [← found]
          simp [Nat.add_assoc]
    · next reached => exact ⟨before, middle, c :: rest, passed, .inr (by omega), rfl, rfl⟩

/-- Where the line of an excerpt begins: behind whole lines, and no later than the offset. -/
theorem of_spec (source : String) (offset : Nat) :
    let size := byteLength source.toList
    let limit := min (min offset size) (size - 1)
    ∃ before middle rest, Passed limit before middle ∧
      limit ≤ byteLength before + byteLength middle ∧
      source.toList = before ++ (middle ++ rest) ∧
      Excerpt.of source offset =
        ⟨min offset size, byteLength before, (middle ++ rest).takeWhile (!isBreak ·)⟩ := by
  intro size limit
  have start : Passed limit [] [] := ⟨nofun, Nat.zero_le _, List.forall_mem_nil _⟩
  obtain ⟨before, middle, rest, passed, reached, split, found⟩ :=
    lineFrom_spec start source.toList
  simp only [List.nil_append, byteLength_nil, Nat.add_zero] at split found
  refine ⟨before, middle, rest, passed, ?_, split, ?_⟩
  · rcases reached with rfl | reached
    · -- the whole text was passed
      have whole := congrArg byteLength split
      simp only [byteLength_append, byteLength_nil, Nat.add_zero] at whole
      omega
    · exact reached
  · exact congrArg (fun found : Nat × List Char =>
      (⟨min offset size, found.1, found.2.takeWhile (!isBreak ·)⟩ : Excerpt)) found

/-- The line of an excerpt stands in the text where the excerpt says, in front of the offset. -/
theorem exists_split (source : String) (offset : Nat) :
    let excerpt := Excerpt.of source offset
    ∃ before after, source.toList = before ++ (excerpt.line ++ after) ∧
      byteLength before = excerpt.start ∧ excerpt.start ≤ excerpt.offset ∧
      excerpt.offset = min offset (byteLength source.toList) := by
  obtain ⟨before, middle, rest, passed, -, split, same⟩ := of_spec source offset
  rw [same]
  refine ⟨before, (middle ++ rest).dropWhile (!isBreak ·), ?_, rfl, ?_, rfl⟩
  · rw [List.takeWhile_append_dropWhile, split]
  · exact Nat.le_trans passed.inside (Nat.min_le_left _ _)

/-- Cutting the line of an excerpt out of the text never fails. -/
theorem ofBytes?_eq (source : String) (offset : Nat) :
    ofBytes? source offset = some (Excerpt.of source offset) := by
  obtain ⟨before, middle, rest, passed, reached, split, same⟩ := of_spec source offset
  have start : startIn? (bytes source.toList)
      (min (min offset (byteLength source.toList)) (byteLength source.toList - 1)) =
        some (byteLength before) := by
    obtain ⟨n, limit⟩ := Nat.exists_eq_add_of_le passed.inside
    have ends : ∀ b ∈ (bytes before).getLast?, isBreakByte b = true :=
      getLast?_bytes passed.ends
    have found := startIn?_append ends (bytes_of_oneLine passed.oneLine) (bytes rest) (n := n)
      (by rw [length_bytes]; omega)
    rwa [length_bytes, ← limit, ← bytes_append, ← bytes_append, ← split] at found
  have line : slice? (byteLength before) (stopIn (bytes source.toList) (byteLength before))
      source.toList = some ((middle ++ rest).takeWhile (!isBreak ·)) := by
    have cut := slice?_append before ((middle ++ rest).takeWhile (!isBreak ·))
      ((middle ++ rest).dropWhile (!isBreak ·))
    rwa [List.takeWhile_append_dropWhile, ← stopIn_bytes, ← split] at cut
  simp only [ofBytes?, length_bytes, start, Option.bind_some, line, Option.map_some, same]

end Excerpt

end Pinout.Definition
