import Pinout.Proofs.BusRange.Display

/-! # What a text says of a range

`Reads` tells by its parts what a trimmed text stands for, or what is wrong with it first. A bracket
is looked for before anything else; bounds are decimal numbers with or without a sign that fit a
word.
-/

namespace Pinout.BusRange

open Text (CutAt trim splitOnce?_eq_none_iff splitOnce?_eq_some_iff)

/-- A word written as a decimal number. -/
inductive Writes : List Char → Int64 → Prop
  | unsigned {cs : List Char} {n : Nat} {bound : Int64} (number : IsDecimal cs n)
      (same : bound.toInt = n) : Writes cs bound
  | plus {cs : List Char} {n : Nat} {bound : Int64} (number : IsDecimal cs n)
      (same : bound.toInt = n) : Writes ('+' :: cs) bound
  | minus {cs : List Char} {n : Nat} {bound : Int64} (number : IsDecimal cs n)
      (same : bound.toInt = -n) : Writes ('-' :: cs) bound

theorem fits_iff {value : Int} {bound : Int64} :
    (if Int64.minValue.toInt ≤ value ∧ value ≤ Int64.maxValue.toInt then
      some (Int64.ofInt value) else none) = some bound ↔ bound.toInt = value := by
  rw [Int64.toInt_minValue, Int64.toInt_maxValue]
  constructor
  · intro read
    split at read
    · next fits =>
      cases read
      exact Int64.toInt_ofInt_of_le fits.1 (by omega)
    · cases read
  · rintro rfl
    have low := bound.le_toInt
    have high := bound.toInt_lt
    rw [if_pos (by omega), Int64.ofInt_toInt]

theorem bound?_eq_some_iff {cs : List Char} {bound : Int64} :
    bound? cs = some bound ↔ Writes cs bound := by
  constructor
  · intro read
    obtain ⟨value, written, fits⟩ := Option.bind_eq_some_iff.1 read
    have same := fits_iff.1 fits
    split at written <;>
      obtain ⟨_, lifted, rfl⟩ := Option.map_eq_some_iff.1 written <;>
      obtain ⟨n, number, ⟨⟩⟩ := Option.bind_eq_some_iff.1 lifted
    · exact .minus (decimal?_eq_some_iff.1 number) same
    · exact .plus (decimal?_eq_some_iff.1 number) same
    · exact .unsigned (decimal?_eq_some_iff.1 number) same
  · intro writes
    cases writes with
    | unsigned number same =>
      rw [bound?_of_decimal? (decimal?_eq_some_iff.2 number)]
      exact fits_iff.2 same
    | plus number same =>
      rw [bound?, decimal?_eq_some_iff.2 number]
      exact fits_iff.2 same
    | minus number same =>
      rw [bound?_minus (decimal?_eq_some_iff.2 number)]
      exact fits_iff.2 same

theorem bound?_eq_none_iff {cs : List Char} : bound? cs = none ↔ ∀ bound, ¬ Writes cs bound := by
  simp only [← bound?_eq_some_iff, Option.eq_none_iff_forall_not_mem, Option.mem_def]

def Bracketed (name inner cs : List Char) : Prop :=
  ∃ behind rest, CutAt '[' name behind cs ∧ CutAt ']' inner rest behind

/-- What a trimmed text says: a range, or why it is none. -/
inductive Reads (cs : List Char) : Except BusRangeError BusRange → Prop
  | lower {name : List Char} {half : Char} (bare : '[' ∉ cs) (ends : cs = name ++ [half])
      (letter : half = 'l' ∨ half = 'L') : Reads cs (.ok ⟨.ofList name, 0, 7⟩)
  | upper {name : List Char} {half : Char} (bare : '[' ∉ cs) (ends : cs = name ++ [half])
      (letter : half = 'h' ∨ half = 'H') : Reads cs (.ok ⟨.ofList name, 8, 15⟩)
  | whole (bare : '[' ∉ cs) (noHalf : ∀ half ∈ cs.getLast?, half ∉ ['l', 'L', 'h', 'H']) :
      Reads cs (.ok ⟨.ofList cs, 0, 15⟩)
  | bracketed {name inner first last : List Char} {a b : Int64} (brackets : Bracketed name inner cs)
      (colon : CutAt ':' first last inner) (low : Writes (trim first) a)
      (high : Writes (trim last) b) : Reads cs (.ok ⟨.ofList (trim name), a, b⟩)
  | unclosed {name behind : List Char} (bracket : CutAt '[' name behind cs)
      (noClosing : ']' ∉ behind) : Reads cs (.error (.unclosedBracket (.ofList cs)))
  | missingColon {name inner : List Char} (brackets : Bracketed name inner cs)
      (noColon : ':' ∉ inner) : Reads cs (.error (.missingColon (.ofList cs)))
  | invalidFirst {name inner first last : List Char} (brackets : Bracketed name inner cs)
      (colon : CutAt ':' first last inner) (noLow : ∀ a, ¬ Writes (trim first) a) :
      Reads cs (.error (.invalidBound (.ofList cs) (.ofList (trim first))))
  | invalidLast {name inner first last : List Char} {a : Int64} (brackets : Bracketed name inner cs)
      (colon : CutAt ':' first last inner) (low : Writes (trim first) a)
      (noHigh : ∀ b, ¬ Writes (trim last) b) :
      Reads cs (.error (.invalidBound (.ofList cs) (.ofList (trim last))))

theorem parseBound_of_writes {text : String} {cs : List Char} {bound : Int64}
    (writes : Writes (trim cs) bound) : parseBound text cs = .ok bound := by
  rw [parseBound, bound?_eq_some_iff.2 writes]

theorem parseBound_of_not_writes {text : String} {cs : List Char}
    (none : ∀ bound, ¬ Writes (trim cs) bound) :
    parseBound text cs = .error (.invalidBound text (.ofList (trim cs))) := by
  rw [parseBound, bound?_eq_none_iff.2 none]

theorem reads_ofBare {cs : List Char} (bare : '[' ∉ cs) : Reads cs (.ok (ofBare cs)) := by
  cases cs using List.reverseRecOn with
  | nil => exact .whole bare nofun
  | append_singleton name half =>
    rw [ofBare, List.getLast?_concat, List.dropLast_concat]
    split
    · next letter =>
      exact .lower bare rfl (.inl (Option.some.inj letter))
    · next letter =>
      exact .lower bare rfl (.inr (Option.some.inj letter))
    · next letter =>
      exact .upper bare rfl (.inl (Option.some.inj letter))
    · next letter =>
      exact .upper bare rfl (.inr (Option.some.inj letter))
    · next l L h H =>
      refine .whole bare fun half' last => ?_
      rw [List.getLast?_concat, Option.mem_some_iff] at last
      subst last
      simp_all

theorem parse_of_bracketed {source : String} {name inner : List Char}
    (brackets : Bracketed name inner (trim source.toList)) :
    parse source =
      match Text.splitOnce? ':' inner with
      | none => .error (.missingColon (.ofList (trim source.toList)))
      | some (first, last) => do
        let first ← parseBound (.ofList (trim source.toList)) first
        let last ← parseBound (.ofList (trim source.toList)) last
        return ⟨.ofList (trim name), first, last⟩ := by
  obtain ⟨behind, rest, bracket, closing⟩ := brackets
  rw [parse, splitOnce?_eq_some_iff.2 bracket]
  simp only [splitOnce?_eq_some_iff.2 closing]
  rfl

theorem reads_parse_of_bracketed {source : String} {name inner : List Char}
    (brackets : Bracketed name inner (trim source.toList)) :
    Reads (trim source.toList) (parse source) := by
  rw [parse_of_bracketed brackets]
  split
  · next noColon => exact .missingColon brackets (splitOnce?_eq_none_iff.1 noColon)
  · next first last colon =>
    have colon := splitOnce?_eq_some_iff.1 colon
    by_cases low : ∃ a, Writes (trim first) a
    · obtain ⟨a, low⟩ := low
      by_cases high : ∃ b, Writes (trim last) b
      · obtain ⟨b, high⟩ := high
        rw [parseBound_of_writes low, parseBound_of_writes high]
        exact .bracketed brackets colon low high
      · rw [parseBound_of_writes low, parseBound_of_not_writes (not_exists.1 high)]
        exact .invalidLast brackets colon low (not_exists.1 high)
    · rw [parseBound_of_not_writes (not_exists.1 low)]
      exact .invalidFirst brackets colon (not_exists.1 low)

theorem reads_parse (source : String) : Reads (trim source.toList) (parse source) := by
  cases bracket : Text.splitOnce? '[' (trim source.toList) with
  | none =>
    have bare := splitOnce?_eq_none_iff.1 bracket
    rw [parse_of_notMem bare]
    exact reads_ofBare bare
  | some parts =>
    obtain ⟨name, behind⟩ := parts
    cases closing : Text.splitOnce? ']' behind with
    | none =>
      rw [parse, bracket]
      simp only [closing]
      exact .unclosed (splitOnce?_eq_some_iff.1 bracket) (splitOnce?_eq_none_iff.1 closing)
    | some parts =>
      exact reads_parse_of_bracketed
        ⟨behind, parts.2, splitOnce?_eq_some_iff.1 bracket, splitOnce?_eq_some_iff.1 closing⟩

theorem parse_of_reads {source : String} {result : Except BusRangeError BusRange}
    (reads : Reads (trim source.toList) result) : parse source = result := by
  cases reads with
  | lower bare ends letter =>
    rw [parse_of_notMem bare, ends]
    rcases letter with rfl | rfl <;> simp [ofBare]
  | upper bare ends letter =>
    rw [parse_of_notMem bare, ends]
    rcases letter with rfl | rfl <;> simp [ofBare]
  | whole bare noHalf =>
    rw [parse_of_notMem bare, ofBare]
    split <;> simp_all [BusRange.whole]
  | unclosed bracket noClosing =>
    rw [parse, splitOnce?_eq_some_iff.2 bracket]
    simp only [splitOnce?_eq_none_iff.2 noClosing]
  | missingColon brackets noColon =>
    rw [parse_of_bracketed brackets, splitOnce?_eq_none_iff.2 noColon]
  | invalidFirst brackets colon noLow =>
    rw [parse_of_bracketed brackets, splitOnce?_eq_some_iff.2 colon]
    simp only [parseBound_of_not_writes noLow]
    rfl
  | invalidLast brackets colon low noHigh =>
    rw [parse_of_bracketed brackets, splitOnce?_eq_some_iff.2 colon]
    simp only [parseBound_of_writes low, parseBound_of_not_writes noHigh]
    rfl
  | bracketed brackets colon low high =>
    rw [parse_of_bracketed brackets, splitOnce?_eq_some_iff.2 colon]
    simp only [parseBound_of_writes low, parseBound_of_writes high]
    rfl

/-- A text is read as what it says, and it says one thing. -/
theorem reads_iff {source : String} {result : Except BusRangeError BusRange} :
    Reads (trim source.toList) result ↔ parse source = result :=
  ⟨parse_of_reads, fun same => same ▸ reads_parse source⟩

end Pinout.BusRange
