import Pinout.Proofs.Constraint.Composing

/-! # What a constraint line is

`Reads cs name pin` says that a text is a constraint line with this net and this pin. Blanks are
optional and the name of a net is any run of characters without blanks, so `LOC`, equals signs and
quotation marks may all belong to it, and a text may be read in several ways. The one with the
longest name counts.
-/

namespace Pinout.Constraint

open Text

/-- A way to read a text as `NET name LOC = "pin" …`, with blanks before its words. -/
def Reads (cs name pin : List Char) : Prop :=
  ∃ beforeNet beforeName opening rest : List Char,
    Blanks beforeNet ∧ Blanks beforeName ∧ (name ≠ [] ∧ ∀ c ∈ name, isBlank c = false) ∧
      Opening opening ∧ (pin ≠ [] ∧ '"' ∉ pin) ∧ '\n' ∉ rest ∧
      cs = beforeNet ++ ['N', 'E', 'T'] ++ beforeName ++ name ++ opening ++ pin ++ '"' :: rest

/-- A text that goes on with the rest of a name and then opens a pin. -/
inductive GoesOn : List Char → List Char → List Char → Prop
  | opens {cs tail : List Char} : locTail? cs = some tail → GoesOn cs [] tail
  | letter {c : Char} {cs name tail : List Char} :
    isBlank c = false → GoesOn cs name tail → GoesOn (c :: cs) (c :: name) tail

theorem goesOn_iff {cs name tail : List Char} :
    GoesOn cs name tail ↔
      (∀ c ∈ name, isBlank c = false) ∧ ∃ after, cs = name ++ after ∧ locTail? after = some tail := by
  constructor
  · intro h
    induction h with
    | opens found => exact ⟨List.forall_mem_nil _, _, rfl, found⟩
    | letter begins _ ih =>
      obtain ⟨noBlank, after, rfl, found⟩ := ih
      exact ⟨List.forall_mem_cons.2 ⟨begins, noBlank⟩, after, rfl, found⟩
  · rintro ⟨noBlank, after, rfl, found⟩
    induction name with
    | nil => exact .opens found
    | cons c name ih =>
      obtain ⟨begins, noBlank⟩ := List.forall_mem_cons.1 noBlank
      exact .letter begins (ih noBlank)

/-- The name settles where the pin stands. -/
theorem GoesOn.unique {cs name name' tail tail' : List Char} (h : GoesOn cs name tail)
    (h' : GoesOn cs name' tail') (same : name.length = name'.length) : tail = tail' := by
  induction h generalizing name' with
  | opens found =>
    cases h' with
    | opens found' => exact Option.some.inj (found.symm.trans found')
    | letter => cases same
  | letter _ _ ih =>
    cases h' with
    | opens => cases same
    | letter _ h' => exact ih h' (Nat.succ.inj same)

/-- What follows a name that goes on as far as possible, if it can go on at all. -/
inductive Longest (cs : List Char) : Option (List Char) → Prop
  | nowhere : (∀ name tail, ¬ GoesOn cs name tail) → Longest cs none
  | behind (name : List Char) {tail : List Char} :
    GoesOn cs name tail → (∀ name' tail', GoesOn cs name' tail' → name'.length ≤ name.length) →
    Longest cs (some tail)

/-- Where no further letter can be taken, the pin opens here or nowhere. -/
theorem longest_locTail? {cs : List Char} (only : ∀ name tail, GoesOn cs name tail → name = []) :
    Longest cs (locTail? cs) := by
  cases found : locTail? cs with
  | none =>
    refine .nowhere fun name tail h => ?_
    cases only name tail h
    cases h with
    | opens found' => cases found.symm.trans found'
  | some tail =>
    refine .behind [] (.opens found) fun name' tail' h => ?_
    exact Nat.le_of_eq (congrArg List.length (only name' tail' h))

theorem longest_nameTail? (cs : List Char) : Longest cs (nameTail? cs) := by
  induction cs with
  | nil =>
    refine longest_locTail? fun name tail h => ?_
    cases h
    rfl
  | cons c cs ih =>
    rw [nameTail?]
    split
    · next blank =>
      refine longest_locTail? fun name tail h => ?_
      cases h with
      | opens => rfl
      | letter begins => cases blank.symm.trans begins
    · next begins =>
      rw [Bool.not_eq_true] at begins
      generalize nameTail? cs = found at ih
      -- a longer name is tried first
      cases ih with
      | nowhere missed =>
        refine longest_locTail? fun name tail h => ?_
        cases h with
        | opens => rfl
        | letter _ h => exact absurd h (missed _ _)
      | behind name goesOn longest =>
        refine .behind (c :: name) (.letter begins goesOn) fun name' tail' h => ?_
        cases h with
        | opens => exact Nat.zero_le _
        | letter _ h => exact Nat.succ_le_succ (longest _ _ h)

def nameStart? (cs : List Char) : Option (List Char) :=
  (afterWord? ['N', 'E', 'T'] cs).map (List.dropWhile isBlank)

theorem pinTail?_eq (cs : List Char) :
    pinTail? cs = (nameStart? cs).bind fun start =>
      match start with
      | [] => none
      | _ :: rest => nameTail? rest := by
  rw [pinTail?, nameStart?]
  cases afterWord? ['N', 'E', 'T'] cs <;> rfl

theorem nameStart?_eq_some_iff {cs rest : List Char} {first : Char} :
    nameStart? cs = some (first :: rest) ↔
      ∃ beforeNet beforeName, Blanks beforeNet ∧ Blanks beforeName ∧ isBlank first = false ∧
        cs = beforeNet ++ ['N', 'E', 'T'] ++ beforeName ++ first :: rest := by
  simp only [nameStart?, Option.map_eq_some_iff, dropWhile_eq_cons_iff,
    afterWord?_eq_some_iff (show isBlank 'N' = false by decide)]
  constructor
  · rintro ⟨_, ⟨beforeNet, blanks, rfl⟩, beforeName, blanks', begins, rfl⟩
    exact ⟨beforeNet, beforeName, blanks, blanks', begins, by simp⟩
  · rintro ⟨beforeNet, beforeName, blanks, blanks', begins, rfl⟩
    exact ⟨_, ⟨beforeNet, blanks, by simp⟩, beforeName, blanks', begins, rfl⟩

theorem reads_iff {cs name pin : List Char} :
    Reads cs name pin ↔
      ∃ first more start rest, name = first :: more ∧ nameStart? cs = some (first :: start) ∧
        '"' ∉ pin ∧ GoesOn start more (pin ++ '"' :: rest) := by
  simp only [nameStart?_eq_some_iff, goesOn_iff, locTail?_eq_some_iff]
  constructor
  · rintro ⟨beforeNet, beforeName, opening, rest, blanks, blanks', ⟨nonempty, noBlank⟩, opens,
      ⟨pinned, noQuote⟩, oneLine, rfl⟩
    obtain ⟨first, more, rfl⟩ := List.exists_cons_of_ne_nil nonempty
    obtain ⟨begins, noBlank⟩ := List.forall_mem_cons.1 noBlank
    exact ⟨first, more, more ++ (opening ++ (pin ++ '"' :: rest)), rest, rfl,
      ⟨beforeNet, beforeName, blanks, blanks', begins, by simp⟩, noQuote, noBlank, _, rfl, opening,
      opens, rfl, closesPin_eq_true_iff.2 ⟨pin, rest, rfl, pinned, noQuote, oneLine⟩⟩
  · rintro ⟨first, more, start, rest, rfl, ⟨beforeNet, beforeName, blanks, blanks', begins, rfl⟩,
      noQuote, noBlank, _, rfl, opening, opens, rfl, closes⟩
    obtain ⟨pin', rest', same, pinned, noQuote', oneLine⟩ := closesPin_eq_true_iff.1 closes
    obtain ⟨rfl, rfl⟩ := append_quote_inj noQuote noQuote' same
    exact ⟨beforeNet, beforeName, opening, rest, blanks, blanks',
      ⟨List.cons_ne_nil _ _, List.forall_mem_cons.2 ⟨begins, noBlank⟩⟩, opens, ⟨pinned, noQuote⟩,
      oneLine, by simp⟩

/-- The name settles the pin. -/
theorem Reads.unique {cs name name' pin pin' : List Char} (reads : Reads cs name pin)
    (reads' : Reads cs name' pin') (same : name.length = name'.length) : pin = pin' := by
  obtain ⟨first, more, start, rest, rfl, here, noQuote, goesOn⟩ := reads_iff.1 reads
  obtain ⟨first', more', start', rest', rfl, here', noQuote', goesOn'⟩ := reads_iff.1 reads'
  cases here.symm.trans here'
  exact (append_quote_inj noQuote noQuote' (goesOn.unique goesOn' (Nat.succ.inj same))).1

theorem locPin?_eq_some_iff_pinTail? {line pin : String} :
    locPin? line = some pin ↔
      '"' ∉ pin.toList ∧ ∃ rest, pinTail? line.toList = some (pin.toList ++ '"' :: rest) := by
  rw [locPin?, Option.map_eq_some_iff]
  constructor
  · rintro ⟨⟨before, pin, after⟩, found, rfl⟩
    obtain ⟨rest, rfl, noQuote, -, tail⟩ := locate?_eq_some_iff.1 found
    rw [String.toList_ofList]
    exact ⟨noQuote, rest, tail⟩
  · rintro ⟨noQuote, rest, tail⟩
    obtain ⟨front, whole⟩ := (pinTail?_spec tail).1
    exact ⟨⟨front, pin.toList, '"' :: rest⟩,
      locate?_eq_some_iff.2 ⟨rest, rfl, noQuote, whole.symm, tail⟩, String.ofList_toList⟩

/-- Where a text can be read at all, the pin that is found is that of a longest name. -/
theorem exists_longest_of_reads {line : String} {name pin : List Char}
    (reads : Reads line.toList name pin) :
    ∃ longest pin', locPin? line = some pin' ∧ Reads line.toList longest pin'.toList ∧
      ∀ name' pin', Reads line.toList name' pin' → name'.length ≤ longest.length := by
  obtain ⟨first, more, start, rest, rfl, here, noQuote, goesOn⟩ := reads_iff.1 reads
  have whole : pinTail? line.toList = nameTail? start := by rw [pinTail?_eq, here]; rfl
  have spec := longest_nameTail? start
  rw [← whole] at spec
  cases found : pinTail? line.toList with
  | none =>
    rw [found] at spec
    cases spec with
    | nowhere missed => exact absurd goesOn (missed _ _)
  | some tail =>
    rw [found] at spec
    obtain ⟨pin', rest', rfl, -, noQuote', -⟩ := closesPin_eq_true_iff.1 (pinTail?_spec found).2
    cases spec with
    | behind longest goesOn' isLongest =>
      refine ⟨first :: longest, .ofList pin', locPin?_eq_some_iff_pinTail?.2 ?_, ?_, ?_⟩
      · rw [String.toList_ofList]
        exact ⟨noQuote', rest', found⟩
      · rw [String.toList_ofList]
        exact reads_iff.2 ⟨first, longest, start, rest', rfl, here, noQuote', goesOn'⟩
      · intro name' pin'' reads'
        obtain ⟨first', more', start', _, rfl, here', -, goesOn''⟩ := reads_iff.1 reads'
        cases here.symm.trans here'
        exact Nat.succ_le_succ (isLongest _ _ goesOn'')

theorem exists_reads_of_locPin? {line pin : String} (found : locPin? line = some pin) :
    ∃ name, Reads line.toList name pin.toList := by
  obtain ⟨noQuote, rest, tail⟩ := locPin?_eq_some_iff_pinTail?.1 found
  rw [pinTail?_eq, Option.bind_eq_some_iff] at tail
  obtain ⟨_ | ⟨first, start⟩, here, tail⟩ := tail
  · cases tail
  · have spec := longest_nameTail? start
    rw [show nameTail? start = _ from tail] at spec
    cases spec with
    | behind name goesOn =>
      exact ⟨first :: name, reads_iff.2 ⟨first, name, start, rest, rfl, here, noQuote, goesOn⟩⟩

theorem transformLine_eq_self_iff {map : PinMap} {line : String} :
    transformLine map line = line ↔ ∀ pin, locPin? line = some pin → map.image pin = pin := by
  refine ⟨fun same pin found => ?_, transformLine_eq_self⟩
  obtain ⟨located, here, rfl⟩ := Option.map_eq_some_iff.1 found
  obtain ⟨_, _, -, -, whole⟩ := enclosed_of_locate? here
  rw [transformLine_of_locate? here, ← String.toList_inj, String.toList_ofList, whole] at same
  rw [← String.toList_inj, String.toList_ofList]
  exact List.append_cancel_left (List.append_cancel_right same)

/-- A line has a pin exactly where it can be read as a constraint, and the pin is that of the
longest name. The line is changed exactly where the map has another pin in place of this one. -/
theorem locPin?_longest (map : PinMap) (line : String) :
    (∀ pin, locPin? line = some pin ↔
      ∃ name, Reads line.toList name pin.toList ∧
        ∀ name' pin', Reads line.toList name' pin' → name'.length ≤ name.length) ∧
      ((locPin? line).isSome ↔ ∃ name pin, Reads line.toList name pin) ∧
      (transformLine map line ≠ line ↔
        ∃ pin pin' : String, locPin? line = some pin ∧ map[pin]? = some pin' ∧ pin' ≠ pin) := by
  refine ⟨fun pin => ⟨fun found => ?_, ?_⟩, ⟨fun found => ?_, ?_⟩, ?_⟩
  · obtain ⟨name, reads⟩ := exists_reads_of_locPin? found
    obtain ⟨longest, pin', found', reads', isLongest⟩ := exists_longest_of_reads reads
    cases found.symm.trans found'
    exact ⟨longest, reads', isLongest⟩
  · rintro ⟨name, reads, isLongest⟩
    obtain ⟨longest, pin', found, reads', isLongest'⟩ := exists_longest_of_reads reads
    have same : longest.length = name.length :=
      Nat.le_antisymm (isLongest _ _ reads') (isLongest' _ _ reads)
    rw [found, String.toList_inj.1 (reads'.unique reads same)]
  · obtain ⟨pin, found⟩ := Option.isSome_iff_exists.1 found
    obtain ⟨name, reads⟩ := exists_reads_of_locPin? found
    exact ⟨name, _, reads⟩
  · rintro ⟨name, pin, reads⟩
    obtain ⟨_, _, found, -⟩ := exists_longest_of_reads reads
    exact Option.isSome_iff_exists.2 ⟨_, found⟩
  · rw [Ne, transformLine_eq_self_iff]
    simp only [PinMap.image, not_forall]
    constructor
    · rintro ⟨pin, found, changed⟩
      cases there : map[pin]? with
      | none => simp [there] at changed
      | some pin' => exact ⟨pin, pin', found, there, by simpa [there] using changed⟩
    · rintro ⟨pin, pin', found, there, changed⟩
      exact ⟨pin, found, by simpa [there] using changed⟩

/-- The shorter name `x` has the pin `A`, the longer one `xLOC="A"` has the pin `B`. -/
example : locPin? "NETxLOC=\"A\"LOC=\"B\"" = some "B" ∧
    locPin? "NET x LOC=\"A\nB\" LOC=\"C\"" = some "A\nB" := by
  decide +kernel

end Pinout.Constraint
