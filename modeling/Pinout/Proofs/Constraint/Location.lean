import Pinout.Constraint.Line
import Pinout.Proofs.Text.Lines

/-! # Where the pin of a line stands

The name of a net may run into `LOC = "`, and it is the longest name that counts. So another pin
written in place of the one found might be read as a part of the name, and the line as one with its
pin elsewhere. `locate?_relocate` says that this does not happen for pins without blanks, quotation
marks and equals signs: of two such pins in one place, either both are found or neither is.
-/

namespace Pinout.Constraint

open Text

def Blanks (cs : List Char) : Prop :=
  ∀ c ∈ cs, isBlank c = true

theorem blanks_takeWhile (cs : List Char) : Blanks (cs.takeWhile isBlank) := by
  intro c member
  exact List.all_eq_true.1 List.all_takeWhile c member

theorem dropWhile_blanks {blanks : List Char} (h : Blanks blanks) {c : Char}
    (begins : isBlank c = false) (cs : List Char) :
    (blanks ++ c :: cs).dropWhile isBlank = c :: cs := by
  rw [List.dropWhile_append_of_pos h, List.dropWhile_cons_of_neg (by simp [begins])]

/-- A word that does not begin with a blank is found behind blanks only. -/
theorem afterWord?_eq_some_iff {first : Char} (begins : isBlank first = false)
    {word cs rest : List Char} :
    afterWord? (first :: word) cs = some rest ↔
      ∃ blanks, Blanks blanks ∧ cs = blanks ++ (first :: word ++ rest) := by
  constructor
  · intro h
    simp only [afterWord?, Option.ite_none_right_eq_some, Option.some.injEq,
      List.isPrefixOf_iff_prefix] at h
    obtain ⟨⟨behind, split⟩, rfl⟩ := h
    refine ⟨cs.takeWhile isBlank, blanks_takeWhile cs, ?_⟩
    rw [← split, List.drop_left, split, List.takeWhile_append_dropWhile]
  · rintro ⟨blanks, h, rfl⟩
    simp [afterWord?, dropWhile_blanks h begins]

/-! ## The part up to the pin -/

/-- A text `LOC = "` with blanks before its words. -/
def Opening (head : List Char) : Prop :=
  ∃ beforeLoc beforeEquals beforeQuote : List Char,
    Blanks beforeLoc ∧ Blanks beforeEquals ∧ Blanks beforeQuote ∧
      head = beforeLoc ++ ['L', 'O', 'C'] ++ beforeEquals ++ ['='] ++ beforeQuote ++ ['"']

theorem locTail?_eq_some_iff {cs tail : List Char} :
    locTail? cs = some tail ↔
      ∃ head, Opening head ∧ cs = head ++ tail ∧ closesPin tail = true := by
  simp only [locTail?, Option.bind_eq_bind, Option.bind_eq_some_iff,
    afterWord?_eq_some_iff (show isBlank 'L' = false by decide),
    afterWord?_eq_some_iff (show isBlank '=' = false by decide),
    afterWord?_eq_some_iff (show isBlank '"' = false by decide), Option.ite_none_right_eq_some,
    Option.some.injEq]
  constructor
  · rintro ⟨_, ⟨a, blanksA, rfl⟩, _, ⟨b, blanksB, rfl⟩, _, ⟨c, blanksC, rfl⟩, closes, rfl⟩
    exact ⟨_, ⟨a, b, c, blanksA, blanksB, blanksC, rfl⟩, by simp, closes⟩
  · rintro ⟨_, ⟨a, b, c, blanksA, blanksB, blanksC, rfl⟩, rfl, closes⟩
    exact ⟨_, ⟨a, blanksA, by simp⟩, _, ⟨b, blanksB, rfl⟩, _, ⟨c, blanksC, rfl⟩, closes, rfl⟩

theorem ne_quote_of_mem {pin : List Char} (h : '"' ∉ pin) : ∀ c ∈ pin, (c != '"') = true := by
  intro c member
  exact bne_iff_ne.2 fun same => h (same ▸ member)

theorem takeWhile_quote {pin : List Char} (h : '"' ∉ pin) (rest : List Char) :
    (pin ++ '"' :: rest).takeWhile (· != '"') = pin := by
  rw [List.takeWhile_append_of_pos (ne_quote_of_mem h)]
  simp

theorem dropWhile_quote {pin : List Char} (h : '"' ∉ pin) (rest : List Char) :
    (pin ++ '"' :: rest).dropWhile (· != '"') = '"' :: rest := by
  rw [List.dropWhile_append_of_pos (ne_quote_of_mem h)]
  simp

/-- A text is divided at its first quotation mark in one way. -/
theorem append_quote_inj {pin pin' rest rest' : List Char} (h : '"' ∉ pin) (h' : '"' ∉ pin')
    (same : pin ++ '"' :: rest = pin' ++ '"' :: rest') : pin = pin' ∧ rest = rest' := by
  have pins : pin = pin' := by
    rw [← takeWhile_quote h rest, same, takeWhile_quote h' rest']
  subst pins
  exact ⟨rfl, by simpa using same⟩

theorem closesPin_eq_true_iff {cs : List Char} :
    closesPin cs = true ↔
      ∃ pin rest, cs = pin ++ '"' :: rest ∧ pin ≠ [] ∧ '"' ∉ pin ∧ '\n' ∉ rest := by
  constructor
  · intro h
    unfold closesPin at h
    split at h
    · next first pin rest before after =>
      have whole : first :: pin ++ '"' :: rest = cs := by
        rw [← before, ← after, List.takeWhile_append_dropWhile]
      have absent : '"' ∉ first :: pin := by
        intro member
        rw [← before] at member
        simpa using List.all_eq_true.1 List.all_takeWhile '"' member
      exact ⟨first :: pin, rest, whole.symm, List.cons_ne_nil _ _, absent, by simpa using h⟩
    · cases h
  · rintro ⟨pin, rest, rfl, nonempty, absent, oneLine⟩
    obtain ⟨first, pin, rfl⟩ := List.exists_cons_of_ne_nil nonempty
    simp only [closesPin, takeWhile_quote absent, dropWhile_quote absent]
    simpa using oneLine

/-! ## Pins in place of each other -/

/-- A pin that cannot be taken for another part of a line. -/
structure IsToken (pin : List Char) : Prop where
  nonempty : pin ≠ []
  noBlank : ∀ c ∈ pin, isBlank c = false
  noQuote : '"' ∉ pin
  noEquals : '=' ∉ pin

theorem isToken_iff {pin : List Char} :
    IsToken pin ↔ pin ≠ [] ∧ pin.all (fun c => !isBlank c) = true ∧ '"' ∉ pin ∧ '=' ∉ pin := by
  simp only [List.all_eq_true, Bool.not_eq_true']
  constructor
  · rintro ⟨nonempty, noBlank, noQuote, noEquals⟩
    exact ⟨nonempty, noBlank, noQuote, noEquals⟩
  · rintro ⟨nonempty, noBlank, noQuote, noEquals⟩
    exact ⟨nonempty, noBlank, noQuote, noEquals⟩

instance (pin : List Char) : Decidable (IsToken pin) :=
  decidable_of_iff' _ isToken_iff

variable {p q after : List Char}

theorem IsToken.noLineFeed (token : IsToken p) : '\n' ∉ p := by
  intro member
  cases token.noBlank _ member

/-- A pin does not end where the blanks behind an equals sign do. -/
theorem IsToken.append_ne (token : IsToken p) {before lead blanks : List Char}
    (h : Blanks blanks) : before ++ p ≠ lead ++ '=' :: blanks := by
  intro same
  -- either the equals sign lies in the pin, or the pin is among the blanks
  rcases List.append_eq_append_iff.1 same with ⟨part, -, split⟩ | ⟨part, -, split⟩
  · exact token.noEquals (by simp [split])
  · cases part with
    | nil =>
      rw [List.nil_append] at split
      exact token.noEquals (split ▸ List.mem_cons_self)
    | cons _ part =>
      obtain ⟨-, rfl⟩ := List.cons.inj split
      obtain ⟨c, member⟩ := List.exists_mem_of_ne_nil p token.nonempty
      have blank : isBlank c = true := h c (List.mem_append_right _ member)
      exact absurd blank (by simp [token.noBlank c member])

theorem Opening.eq_concat {head : List Char} (opening : Opening head) :
    ∃ lead blanks, Blanks blanks ∧ '"' ∉ lead ++ '=' :: blanks ∧
      head = lead ++ '=' :: blanks ++ ['"'] := by
  obtain ⟨a, b, c, blanksA, blanksB, blanksC, rfl⟩ := opening
  have noQuote {cs : List Char} (h : Blanks cs) : '"' ∉ cs := by
    intro member
    have blank := h _ member
    revert blank
    decide
  refine ⟨a ++ ['L', 'O', 'C'] ++ b, c, blanksC, ?_, by simp⟩
  simp [noQuote blanksA, noQuote blanksB, noQuote blanksC]

/-- What opens a pin ends in front of a token, or further in front. -/
theorem Opening.eq_append (token : IsToken p) {head tail before : List Char}
    (opening : Opening head) (same : before ++ (p ++ '"' :: after) = head ++ tail) :
    ∃ rest, before = head ++ rest ∧ tail = rest ++ (p ++ '"' :: after) := by
  rcases List.append_eq_append_iff.1 same with ⟨part, reaches, split⟩ | ⟨rest, reaches, split⟩
  · rcases part.eq_nil_or_concat with rfl | ⟨part, last, rfl⟩
    · exact ⟨[], by simpa using reaches.symm, by simpa using split.symm⟩
    · -- an opening that reaches into the token would end at the quotation mark behind it
      obtain ⟨lead, blanks, h, noQuote, rfl⟩ := opening.eq_concat
      rw [List.concat_eq_append, ← List.append_assoc] at reaches
      obtain ⟨body, ends⟩ := List.append_inj' reaches rfl
      cases ends
      have noQuote' : '"' ∉ part := by
        intro member
        rw [body] at noQuote
        exact noQuote (List.mem_append_right _ member)
      obtain ⟨rfl, -⟩ := append_quote_inj token.noQuote noQuote' (by simpa using split)
      exact absurd body.symm (token.append_ne h)
  · exact ⟨rest, reaches, split⟩

theorem closesPin_relocate (tokenP : IsToken p) (tokenQ : IsToken q) {rest : List Char}
    (h : closesPin (rest ++ (p ++ '"' :: after)) = true) :
    closesPin (rest ++ (q ++ '"' :: after)) = true := by
  obtain ⟨pin, behind, same, nonempty, absent, oneLine⟩ := closesPin_eq_true_iff.1 h
  apply closesPin_eq_true_iff.2
  -- the text in question ends at the first quotation mark, in front of the pin or behind it
  by_cases quoted : '"' ∈ rest
  · obtain ⟨before, between, rfl, first⟩ := List.eq_append_cons_of_mem quoted
    obtain ⟨rfl, rfl⟩ := append_quote_inj first absent (by simpa using same)
    refine ⟨before, between ++ (q ++ '"' :: after), by simp, nonempty, absent, ?_⟩
    simp only [List.mem_append, not_or] at oneLine ⊢
    exact ⟨oneLine.1, tokenQ.noLineFeed, oneLine.2.2⟩
  · have absent' : '"' ∉ rest ++ p := by simp [quoted, tokenP.noQuote]
    obtain ⟨rfl, rfl⟩ := append_quote_inj absent' absent (by simpa using same)
    exact ⟨rest ++ q, after, by simp, by simp [tokenQ.nonempty], by simp [quoted, tokenQ.noQuote],
      oneLine⟩

/-! ## Reading with one pin and with another -/

theorem locTail?_relocate (tokenP : IsToken p) (tokenQ : IsToken q) {before tail : List Char}
    (h : locTail? (before ++ (p ++ '"' :: after)) = some tail) :
    ∃ rest, tail = rest ++ (p ++ '"' :: after) ∧
      locTail? (before ++ (q ++ '"' :: after)) = some (rest ++ (q ++ '"' :: after)) := by
  obtain ⟨head, opening, split, closes⟩ := locTail?_eq_some_iff.1 h
  obtain ⟨rest, rfl, rfl⟩ := opening.eq_append tokenP split
  exact ⟨rest, rfl, locTail?_eq_some_iff.2
    ⟨head, opening, List.append_assoc .., closesPin_relocate tokenP tokenQ closes⟩⟩

/-- Nothing opens a pin within a token. -/
theorem locTail?_token (token : IsToken p) : locTail? (p ++ '"' :: after) = none := by
  rw [Option.eq_none_iff_forall_ne_some]
  intro tail h
  obtain ⟨head, opening, split, -⟩ := locTail?_eq_some_iff.1 h
  have split' : [] ++ (p ++ '"' :: after) = head ++ tail := split
  obtain ⟨rest, nothing, -⟩ := opening.eq_append token split'
  obtain ⟨lead, blanks, -, -, rfl⟩ := opening.eq_concat
  simp at nothing

theorem locTail?_quoted {cs tail : List Char} (h : locTail? cs = some tail) :
    '"' :: tail <:+ cs := by
  obtain ⟨head, opening, rfl, -⟩ := locTail?_eq_some_iff.1 h
  obtain ⟨lead, blanks, -, -, rfl⟩ := opening.eq_concat
  exact ⟨lead ++ '=' :: blanks, by simp⟩

/-- A pin is found behind a quotation mark. -/
theorem nameTail?_quoted {cs tail : List Char} (h : nameTail? cs = some tail) :
    '"' :: tail <:+ cs := by
  induction cs with
  | nil => cases h
  | cons c cs ih =>
    rw [nameTail?] at h
    split at h
    · exact locTail?_quoted h
    · split at h
      · next found =>
        cases h
        exact (ih found).trans (List.suffix_cons c cs)
      · exact locTail?_quoted h

theorem nameTail?_suffix {cs tail : List Char} (h : nameTail? cs = some tail) :
    tail <:+ cs.tail := by
  obtain ⟨front, rfl⟩ := nameTail?_quoted h
  cases front with
  | nil => exact List.suffix_rfl
  | cons c front => exact (List.suffix_cons '"' tail).trans (List.suffix_append front _)

/-- Readings of two texts that differ in a pin: both fail, both go on behind the pin, or both go on
in front of it. -/
inductive Alike (p q after : List Char) : Option (List Char) → Option (List Char) → Prop
  | nowhere : Alike p q after none none
  | behind {tail : List Char} : tail <:+ after → Alike p q after (some tail) (some tail)
  | before (rest : List Char) :
    Alike p q after (some (rest ++ (p ++ '"' :: after))) (some (rest ++ (q ++ '"' :: after)))

/-- Where one reading goes on from the pin, so does the other. -/
theorem Alike.eq_some {x y : Option (List Char)} (alike : Alike p q after x y)
    (h : x = some (p ++ '"' :: after)) : y = some (q ++ '"' :: after) := by
  cases alike with
  | nowhere => cases h
  | behind short =>
    cases h
    have := short.length_le
    simp at this
    omega
  | before rest =>
    have nothing : rest = [] := by simpa using h
    rw [nothing, List.nil_append]

theorem locTail?_alike (tokenP : IsToken p) (tokenQ : IsToken q) (before after : List Char) :
    Alike p q after (locTail? (before ++ (p ++ '"' :: after)))
      (locTail? (before ++ (q ++ '"' :: after))) := by
  cases h : locTail? (before ++ (p ++ '"' :: after)) with
  | some tail =>
    obtain ⟨rest, rfl, h'⟩ := locTail?_relocate tokenP tokenQ h
    rw [h']
    exact .before rest
  | none =>
    cases h' : locTail? (before ++ (q ++ '"' :: after)) with
    | none => exact .nowhere
    | some tail =>
      obtain ⟨rest, -, found⟩ := locTail?_relocate tokenQ tokenP h'
      cases h.symm.trans found

theorem IsToken.tail {c : Char} (token : IsToken (c :: p)) (nonempty : p ≠ []) : IsToken p where
  nonempty := nonempty
  noBlank d member := token.noBlank d (List.mem_cons_of_mem c member)
  noQuote member := token.noQuote (List.mem_cons_of_mem c member)
  noEquals member := token.noEquals (List.mem_cons_of_mem c member)

/-- A name that reaches into a token goes on behind it. -/
theorem nameTail?_token (token : IsToken p) :
    nameTail? (p ++ '"' :: after) = nameTail? ('"' :: after) := by
  induction p with
  | nil => rfl
  | cons c p ih =>
    have behind : nameTail? (p ++ '"' :: after) = nameTail? ('"' :: after) := by
      cases p with
      | nil => rfl
      | cons d p => exact ih (token.tail (List.cons_ne_nil d p))
    have here : locTail? (c :: (p ++ '"' :: after)) = none := locTail?_token token
    rw [List.cons_append, nameTail?, behind, here]
    simp only [token.noBlank c List.mem_cons_self, Bool.false_eq_true, ↓reduceIte]
    cases nameTail? ('"' :: after) <;> rfl

theorem nameTail?_alike (tokenP : IsToken p) (tokenQ : IsToken q) (before after : List Char) :
    Alike p q after (nameTail? (before ++ (p ++ '"' :: after)))
      (nameTail? (before ++ (q ++ '"' :: after))) := by
  -- by induction on what stands in front of the pin
  induction before with
  | nil =>
    rw [List.nil_append, List.nil_append, nameTail?_token tokenP, nameTail?_token tokenQ]
    cases h : nameTail? ('"' :: after) with
    | none => exact .nowhere
    | some tail => exact .behind (nameTail?_suffix h)
  | cons c before ih =>
    have here := locTail?_alike tokenP tokenQ (c :: before) after
    simp only [List.cons_append] at here ⊢
    rw [nameTail?, nameTail?]
    split
    · exact here
    · -- a longer name is tried first, so `here` only counts where there is none
      generalize nameTail? (before ++ (p ++ '"' :: after)) = x at ih
      generalize nameTail? (before ++ (q ++ '"' :: after)) = y at ih
      cases ih with
      | nowhere => exact here
      | behind short => exact .behind short
      | before rest => exact .before rest

/-! ## Whole lines -/

theorem dropWhile_eq_cons_iff {cs rest : List Char} {first : Char} :
    cs.dropWhile isBlank = first :: rest ↔
      ∃ blanks, Blanks blanks ∧ isBlank first = false ∧ cs = blanks ++ first :: rest := by
  constructor
  · intro h
    refine ⟨cs.takeWhile isBlank, blanks_takeWhile cs, ?_, ?_⟩
    · simpa [h] using List.head?_dropWhile_not isBlank cs
    · rw [← h, List.takeWhile_append_dropWhile]
  · rintro ⟨blanks, h, begins, rfl⟩
    exact dropWhile_blanks h begins rest

theorem pinTail?_eq_some_iff {cs tail : List Char} :
    pinTail? cs = some tail ↔
      ∃ beforeNet beforeName first rest, Blanks beforeNet ∧ Blanks beforeName ∧
        isBlank first = false ∧
        cs = beforeNet ++ (['N', 'E', 'T'] ++ (beforeName ++ first :: rest)) ∧
        nameTail? rest = some tail := by
  simp only [pinTail?, Option.bind_eq_bind, Option.bind_eq_some_iff,
    afterWord?_eq_some_iff (show isBlank 'N' = false by decide)]
  constructor
  · rintro ⟨behind, ⟨beforeNet, blanks, rfl⟩, h⟩
    split at h
    · cases h
    · next first rest found =>
      obtain ⟨beforeName, blanks', begins, rfl⟩ := dropWhile_eq_cons_iff.1 found
      exact ⟨beforeNet, beforeName, first, rest, blanks, blanks', begins, rfl, h⟩
  · rintro ⟨beforeNet, beforeName, first, rest, blanks, blanks', begins, rfl, h⟩
    refine ⟨beforeName ++ first :: rest, ⟨beforeNet, blanks, rfl⟩, ?_⟩
    rw [dropWhile_blanks blanks' begins]
    exact h

theorem pinTail?_relocate (tokenP : IsToken p) (tokenQ : IsToken q) {before : List Char}
    (h : pinTail? (before ++ (p ++ '"' :: after)) = some (p ++ '"' :: after)) :
    pinTail? (before ++ (q ++ '"' :: after)) = some (q ++ '"' :: after) := by
  obtain ⟨beforeNet, beforeName, first, rest, blanks, blanks', begins, split, found⟩ :=
    pinTail?_eq_some_iff.1 h
  -- the name begins in front of the pin, since the pin is found behind its first character
  obtain ⟨name, rfl⟩ := (nameTail?_suffix found).trans (List.tail_suffix rest)
  have same : before ++ (p ++ '"' :: after) =
      beforeNet ++ (['N', 'E', 'T'] ++ (beforeName ++ first :: name)) ++ (p ++ '"' :: after) := by
    simpa using split
  have reaches := List.append_cancel_right same
  have found' : nameTail? (name ++ (q ++ '"' :: after)) = some (q ++ '"' :: after) :=
    (nameTail?_alike tokenP tokenQ name after).eq_some found
  exact pinTail?_eq_some_iff.2 ⟨beforeNet, beforeName, first, name ++ (q ++ '"' :: after), blanks,
    blanks', begins, by simp [reaches], found'⟩

theorem closesPin_nameTail? {cs tail : List Char} (h : nameTail? cs = some tail) :
    closesPin tail = true := by
  have closes {cs : List Char} (h : locTail? cs = some tail) : closesPin tail = true := by
    obtain ⟨_, _, _, closes⟩ := locTail?_eq_some_iff.1 h
    exact closes
  induction cs with
  | nil => cases h
  | cons c cs ih =>
    rw [nameTail?] at h
    split at h
    · exact closes h
    · split at h
      · next found =>
        cases h
        exact ih found
      · exact closes h

theorem pinTail?_quoted {cs tail : List Char} (h : pinTail? cs = some tail) :
    '"' :: tail <:+ cs := by
  obtain ⟨beforeNet, beforeName, first, rest, -, -, -, rfl, found⟩ := pinTail?_eq_some_iff.1 h
  obtain ⟨name, rfl⟩ := nameTail?_quoted found
  exact ⟨beforeNet ++ (['N', 'E', 'T'] ++ (beforeName ++ first :: name)), by simp⟩

theorem pinTail?_spec {cs tail : List Char} (h : pinTail? cs = some tail) :
    tail <:+ cs ∧ closesPin tail = true := by
  refine ⟨(List.suffix_cons '"' tail).trans (pinTail?_quoted h), ?_⟩
  obtain ⟨_, _, _, _, -, -, -, -, found⟩ := pinTail?_eq_some_iff.1 h
  exact closesPin_nameTail? found

theorem locate?_eq_some_iff {cs before pin after : List Char} :
    locate? cs = some ⟨before, pin, after⟩ ↔
      ∃ rest, after = '"' :: rest ∧ '"' ∉ pin ∧ cs = before ++ (pin ++ after) ∧
        pinTail? cs = some (pin ++ after) := by
  simp only [locate?, Option.map_eq_some_iff, Located.mk.injEq]
  constructor
  · rintro ⟨tail, found, rfl, rfl, rfl⟩
    obtain ⟨⟨before, rfl⟩, closes⟩ := pinTail?_spec found
    obtain ⟨pin, rest, rfl, -, absent, -⟩ := closesPin_eq_true_iff.1 closes
    rw [takeWhile_quote absent, dropWhile_quote absent]
    exact ⟨rest, rfl, absent, by simp, found⟩
  · rintro ⟨rest, rfl, absent, rfl, found⟩
    exact ⟨pin ++ '"' :: rest, found, by simp, takeWhile_quote absent rest,
      dropWhile_quote absent rest⟩

/-- A pin stands between quotation marks. -/
theorem quoted_of_locate? {cs : List Char} {located : Located} (h : locate? cs = some located) :
    located.pin ≠ [] ∧ '"' ∉ located.pin ∧
      ∃ front rest, cs = front ++ '"' :: (located.pin ++ '"' :: rest) := by
  obtain ⟨before, pin, after⟩ := located
  obtain ⟨rest, rfl, absent, -, found⟩ := locate?_eq_some_iff.1 h
  obtain ⟨pin', rest', same, nonempty, absent', -⟩ :=
    closesPin_eq_true_iff.1 (pinTail?_spec found).2
  obtain ⟨rfl, -⟩ := append_quote_inj absent absent' same
  obtain ⟨front, whole⟩ := pinTail?_quoted found
  exact ⟨nonempty, absent, front, rest, whole.symm⟩

/-- A token that is written over another one is found where that was. -/
theorem locate?_relocate {cs : List Char} {located : Located} (h : locate? cs = some located)
    (tokenP : IsToken located.pin) (tokenQ : IsToken q) :
    locate? (located.before ++ q ++ located.after) = some { located with pin := q } := by
  obtain ⟨before, pin, after⟩ := located
  obtain ⟨rest, rfl, -, rfl, found⟩ := locate?_eq_some_iff.1 h
  rw [List.append_assoc]
  exact locate?_eq_some_iff.2
    ⟨rest, rfl, tokenQ.noQuote, rfl, pinTail?_relocate tokenP tokenQ found⟩

end Pinout.Constraint
