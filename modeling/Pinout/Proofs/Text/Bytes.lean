import Mathlib.Data.List.Induction
import Pinout.Proofs.Text.Lines
import Pinout.Text.Utf8

/-! # The bytes of a text

No byte of a longer character is that of a terminator, so terminators can be searched byte by byte.
A text can be cut at an offset between two characters and nowhere else.
-/

namespace Pinout.Text

def bytes (cs : List Char) : List UInt8 :=
  cs.flatMap String.utf8EncodeChar

def isBreakByte (b : UInt8) : Bool :=
  b == 0x0D || b == 0x0A

@[simp]
theorem bytes_nil : bytes [] = [] :=
  rfl

@[simp]
theorem bytes_cons (c : Char) (cs : List Char) :
    bytes (c :: cs) = String.utf8EncodeChar c ++ bytes cs :=
  rfl

@[simp]
theorem bytes_append (cs ds : List Char) : bytes (cs ++ ds) = bytes cs ++ bytes ds :=
  List.flatMap_append

@[simp]
theorem length_bytes (cs : List Char) : (bytes cs).length = byteLength cs := by
  induction cs with
  | nil => rfl
  | cons c cs ih => simp [ih]

/-- A terminator is one byte. -/
theorem utf8EncodeChar_of_isBreak {c : Char} (h : isBreak c = true) :
    ∃ b, String.utf8EncodeChar c = [b] ∧ isBreakByte b = true := by
  rcases isBreak_iff.1 h with rfl | rfl
  · exact ⟨0x0D, by decide, rfl⟩
  · exact ⟨0x0A, by decide, rfl⟩

/-- Longer characters have bytes beyond ASCII only. -/
theorem toNat_of_mem_utf8EncodeChar {c : Char} {b : UInt8} (member : b ∈ String.utf8EncodeChar c) :
    b.toNat = c.toNat ∨ 0x80 ≤ b.toNat := by
  rw [String.utf8EncodeChar] at member
  change _ = c.val.toNat ∨ _
  generalize c.val.toNat = code at member
  split at member
  · rw [List.mem_singleton.1 member, UInt8.toNat_ofNat']
    omega
  · right
    split at member
    · simp only [List.mem_cons, List.not_mem_nil, or_false] at member
      rcases member with rfl | rfl <;> rw [UInt8.toNat_ofNat'] <;> omega
    · split at member
      · simp only [List.mem_cons, List.not_mem_nil, or_false] at member
        rcases member with rfl | rfl | rfl <;> rw [UInt8.toNat_ofNat'] <;> omega
      · simp only [List.mem_cons, List.not_mem_nil, or_false] at member
        rcases member with rfl | rfl | rfl | rfl <;> rw [UInt8.toNat_ofNat'] <;> omega

theorem not_isBreakByte_of_mem {c : Char} (h : isBreak c = false) {b : UInt8}
    (member : b ∈ String.utf8EncodeChar c) : isBreakByte b = false := by
  rw [Bool.eq_false_iff]
  intro isByte
  have code : b.toNat = 0x0D ∨ b.toNat = 0x0A := by
    simp only [isBreakByte, Bool.or_eq_true, beq_iff_eq] at isByte
    exact isByte.imp (congrArg UInt8.toNat) (congrArg UInt8.toNat)
  have same : c.toNat = b.toNat := by
    have := toNat_of_mem_utf8EncodeChar member
    omega
  have isBreak : c = '\r' ∨ c = '\n' :=
    code.imp (fun code => Char.toNat_inj.1 (same.trans code))
      (fun code => Char.toNat_inj.1 (same.trans code))
  rw [isBreak_iff.2 isBreak] at h
  cases h

theorem bytes_of_oneLine {line : List Char} (h : OneLine line) :
    ∀ b ∈ bytes line, isBreakByte b = false := by
  intro b member
  obtain ⟨c, inside, member⟩ := List.mem_flatMap.1 member
  exact not_isBreakByte_of_mem (h c inside) member

theorem getLast?_bytes {cs : List Char} (ends : ∀ c ∈ cs.getLast?, isBreak c = true) :
    ∀ b ∈ (bytes cs).getLast?, isBreakByte b = true := by
  cases cs using List.reverseRecOn with
  | nil => nofun
  | append_singleton cs c =>
    obtain ⟨b, encoded, isByte⟩ := utf8EncodeChar_of_isBreak (ends c (List.getLast?_concat ..))
    rw [bytes_append, bytes_cons, encoded, bytes_nil, List.append_nil, List.getLast?_concat]
    rintro _ ⟨⟩
    exact isByte

theorem takeWhile_bytes (cs : List Char) :
    (bytes cs).takeWhile (!isBreakByte ·) = bytes (cs.takeWhile (!isBreak ·)) := by
  induction cs with
  | nil => rfl
  | cons c cs ih =>
    rw [bytes_cons, List.takeWhile_cons]
    cases h : isBreak c with
    | true =>
      obtain ⟨b, encoded, isBreak⟩ := utf8EncodeChar_of_isBreak h
      simp [encoded, isBreak]
    | false =>
      have inside : ∀ b ∈ String.utf8EncodeChar c, (!isBreakByte b) = true := fun b member => by
        rw [not_isBreakByte_of_mem h member, Bool.not_false]
      rw [List.takeWhile_append_of_pos inside, ih]
      rfl

/-- Whether an offset lies between two characters of a text, or at one of its ends. -/
def IsBoundary (offset : Nat) (cs : List Char) : Prop :=
  ∃ front back, cs = front ++ back ∧ byteLength front = offset

/-- Of two places where a text is cut, the one behind cuts what the other leaves. -/
theorem exists_of_append_eq_append {cs cs' ds ds' : List Char} (same : cs ++ ds = cs' ++ ds')
    (h : byteLength cs ≤ byteLength cs') : ∃ more, cs' = cs ++ more ∧ ds = more ++ ds' := by
  rcases List.append_eq_append_iff.1 same with split | ⟨more, rfl, rfl⟩
  · exact split
  · rw [byteLength_append] at h
    cases byteLength_eq_zero_iff.1 (show byteLength more = 0 by omega)
    exact ⟨[], by rw [List.append_nil, List.append_nil], rfl⟩

/-- The text before and behind an offset, unless the offset lies inside a character or beyond the
text. -/
def cut? : Nat → List Char → Option (List Char × List Char)
  | 0, cs => some ([], cs)
  | _ + 1, [] => none
  | offset + 1, c :: cs =>
    if c.utf8Size ≤ offset + 1 then
      (cut? (offset + 1 - c.utf8Size) cs).map fun (front, back) => (c :: front, back)
    else
      none

theorem cut?_append (front back : List Char) :
    cut? (byteLength front) (front ++ back) = some (front, back) := by
  induction front with
  | nil => rw [byteLength_nil, cut?, List.nil_append]
  | cons c front ih =>
    obtain ⟨size, more⟩ := Nat.exists_eq_add_one.2 c.utf8Size_pos
    have length : byteLength (c :: front) = byteLength front + size + 1 := by
      rw [byteLength_cons]
      omega
    have behind : byteLength front + size + 1 - c.utf8Size = byteLength front := by omega
    rw [length, List.cons_append, cut?, if_pos (by omega), behind, ih, Option.map_some]

theorem cut?_eq_some_iff {offset : Nat} {cs front back : List Char} :
    cut? offset cs = some (front, back) ↔ cs = front ++ back ∧ byteLength front = offset := by
  constructor
  · intro cut
    fun_induction cut? offset cs generalizing front with
    | case1 cs =>
      cases cut
      exact ⟨rfl, rfl⟩
    | case2 => cases cut
    | case3 offset c cs small ih =>
      obtain ⟨⟨front, back⟩, cut, same⟩ := Option.map_eq_some_iff.1 cut
      cases same
      obtain ⟨rfl, length⟩ := ih cut
      refine ⟨rfl, ?_⟩
      rw [byteLength_cons, length]
      omega
    | case4 => cases cut
  · rintro ⟨rfl, rfl⟩
    exact cut?_append front back

theorem isBoundary_iff {offset : Nat} {cs : List Char} :
    IsBoundary offset cs ↔ (cut? offset cs).isSome = true := by
  simp only [IsBoundary, Option.isSome_iff_exists, Prod.exists, cut?_eq_some_iff]

instance (offset : Nat) (cs : List Char) : Decidable (IsBoundary offset cs) :=
  decidable_of_iff _ isBoundary_iff.symm

def slice? (start stop : Nat) (cs : List Char) : Option (List Char) :=
  if start ≤ stop then
    (cut? start cs).bind fun (_, tail) => (cut? (stop - start) tail).map (·.1)
  else
    none

theorem slice?_append (before line after : List Char) :
    slice? (byteLength before) (byteLength before + byteLength line) (before ++ (line ++ after)) =
      some line := by
  rw [slice?, if_pos (Nat.le_add_right _ _), cut?_append, Option.bind_some,
    Nat.add_sub_cancel_left]
  exact congrArg (Option.map (·.1)) (cut?_append line after)

end Pinout.Text
