import Pinout.Export.Json

/-! # Reading JSON

`read?` reads any JSON text, in whatever layout and with whatever escapes it was written, and it
reads a document that was written here as that document (`read?_render`). Texts are sequences of
characters: an escaped surrogate counts only as half of a pair.
-/

namespace Pinout.Export.Json

inductive Value where
  | null
  | truth (value : Bool)
  /-- A number as it is written. -/
  | number (digits : String)
  | text (value : String)
  | list (items : List Value)
  | record (fields : List (String × Value))
deriving Repr

/-! ## Texts and numbers -/

def hexValue? (c : Char) : Option Nat :=
  if c.isDigit then some (c.toNat - 0x30)
  else if 'a' ≤ c ∧ c ≤ 'f' then some (c.toNat - 0x61 + 10)
  else if 'A' ≤ c ∧ c ≤ 'F' then some (c.toNat - 0x41 + 10)
  else none

def unit? : List Char → Option (Nat × List Char)
  | a :: b :: c :: d :: cs => do
    let high := (← hexValue? a) * 16 + (← hexValue? b)
    let low := (← hexValue? c) * 16 + (← hexValue? d)
    return (high * 0x100 + low, cs)
  | _ => none

def lowSurrogate? : List Char → Option (Nat × List Char)
  | '\\' :: 'u' :: cs => do
    let (unit, cs) ← unit? cs
    if 0xDC00 ≤ unit ∧ unit < 0xE000 then return (unit - 0xDC00, cs) else none
  | _ => none

def coded? (cs : List Char) : Option (Char × List Char) := do
  let (unit, cs) ← unit? cs
  if unit < 0xD800 ∨ 0xE000 ≤ unit then
    return (.ofNat unit, cs)
  else if unit < 0xDC00 then
    let (low, cs) ← lowSurrogate? cs
    return (.ofNat (0x10000 + (unit - 0xD800) * 0x400 + low), cs)
  else
    none

def escaped? : List Char → Option (Char × List Char)
  | [] => none
  | c :: cs =>
    match c with
    | '"' => some ('"', cs)
    | '\\' => some ('\\', cs)
    | '/' => some ('/', cs)
    | 'b' => some ('\x08', cs)
    | 'f' => some ('\x0c', cs)
    | 'n' => some ('\n', cs)
    | 'r' => some ('\r', cs)
    | 't' => some ('\t', cs)
    | 'u' => coded? cs
    | _ => none

/-- The characters up to the closing quotation mark, fewer than `fuel`. -/
def text? : Nat → List Char → Option (List Char × List Char)
  | 0, _ => none
  | _ + 1, [] => none
  | fuel + 1, c :: cs =>
    let goOn := fun (c, cs) => (text? fuel cs).map fun (text, cs) => (c :: text, cs)
    if c = '"' then some ([], cs)
    else if c = '\\' then (escaped? cs).bind goOn
    else if c.toNat < 0x20 then none
    else goOn (c, cs)

def behindDigits? (cs : List Char) : Option (List Char) :=
  if (cs.takeWhile Char.isDigit).isEmpty then none else some (cs.dropWhile Char.isDigit)

def behindWhole? : List Char → Option (List Char)
  | '0' :: cs => some cs
  | cs => behindDigits? cs

def behindFraction? : List Char → Option (List Char)
  | '.' :: cs => behindDigits? cs
  | cs => some cs

def behindExponent? : List Char → Option (List Char)
  | [] => some []
  | c :: cs =>
    if c = 'e' ∨ c = 'E' then
      match cs with
      | '+' :: cs => behindDigits? cs
      | '-' :: cs => behindDigits? cs
      | cs => behindDigits? cs
    else
      some (c :: cs)

def number? (cs : List Char) : Option (Value × List Char) := do
  let unsigned := if cs.head? = some '-' then cs.tail else cs
  let rest ← behindExponent? (← behindFraction? (← behindWhole? unsigned))
  return (.number (.ofList (cs.take (cs.length - rest.length))), rest)

/-! ## Values -/

def isSpace (c : Char) : Bool :=
  c == ' ' || c == '\t' || c == '\n' || c == '\r'

def skip (cs : List Char) : List Char :=
  cs.dropWhile isSpace

mutual

/-- The value that comes next. Every part of a value takes a character at least, so the length of
the text is enough fuel. -/
def value? : Nat → List Char → Option (Value × List Char)
  | 0, _ => none
  | fuel + 1, cs =>
    match skip cs with
    | 'n' :: 'u' :: 'l' :: 'l' :: cs => some (.null, cs)
    | 't' :: 'r' :: 'u' :: 'e' :: cs => some (.truth true, cs)
    | 'f' :: 'a' :: 'l' :: 's' :: 'e' :: cs => some (.truth false, cs)
    | '"' :: cs => (text? fuel cs).map fun (text, cs) => (.text (.ofList text), cs)
    | '[' :: cs =>
      match skip cs with
      | ']' :: cs => some (.list [], cs)
      | cs => (items? fuel cs).map fun (items, cs) => (.list items, cs)
    | '\x7b' :: cs =>
      match skip cs with
      | '\x7d' :: cs => some (.record [], cs)
      | cs => (fields? fuel cs).map fun (fields, cs) => (.record fields, cs)
    | cs => number? cs

def items? : Nat → List Char → Option (List Value × List Char)
  | 0, _ => none
  | fuel + 1, cs =>
    (value? fuel cs).bind fun (item, cs) =>
      match skip cs with
      | ',' :: cs => (items? fuel cs).map fun (items, cs) => (item :: items, cs)
      | ']' :: cs => some ([item], cs)
      | _ => none

def fields? : Nat → List Char → Option (List (String × Value) × List Char)
  | 0, _ => none
  | fuel + 1, cs =>
    match skip cs with
    | '"' :: cs =>
      (text? fuel cs).bind fun (key, cs) =>
        match skip cs with
        | ':' :: cs =>
          (value? fuel cs).bind fun (value, cs) =>
            let field := (.ofList key, value)
            match skip cs with
            | ',' :: cs => (fields? fuel cs).map fun (fields, cs) => (field :: fields, cs)
            | '\x7d' :: cs => some ([field], cs)
            | _ => none
        | _ => none
    | _ => none

end

def read? (text : String) : Option Value := do
  let (value, cs) ← value? text.toList.length text.toList
  if (skip cs).isEmpty then return value else none

/-- Layout, escapes and numbers that are never written here are read as well. -/
example :
    read? " \x7b \"a\\/\" :[ -1.50e+3,\t\"\\ud83d\\uDE00\" ,\x7b \x7d ], \"b\":true\x7d\r\n" =
      some (.record [("a/", .list [.number "-1.50e+3", .text "😀", .record []]),
        ("b", .truth true)]) := by
  cbv

/-! ## Written texts -/

theorem hexValue?_hexDigit : ∀ n < 16, hexValue? (hexDigit n) = some n := by
  decide

theorem coded?_hexDigit {c : Char} (control : c.toNat < 0x20) (cs : List Char) :
    coded? ('0' :: '0' :: hexDigit (c.toNat / 16) :: hexDigit (c.toNat % 16) :: cs) =
      some (c, cs) := by
  have high := hexValue?_hexDigit (c.toNat / 16) (by omega)
  have low := hexValue?_hexDigit (c.toNat % 16) (by omega)
  have whole : c.toNat / 16 * 16 + c.toNat % 16 = c.toNat := by omega
  have zero : hexValue? '0' = some 0 := rfl
  have noSurrogate : c.toNat < 0xD800 ∨ 0xE000 ≤ c.toNat := by omega
  simp [coded?, unit?, zero, high, low, whole, noSurrogate, Char.ofNat_toNat]

/-- A character is read back from its escape, as one of a text. -/
theorem text?_escape (fuel : Nat) (c : Char) (cs : List Char) :
    text? (fuel + 1) (escape c ++ cs) = (text? fuel cs).map fun (text, cs) => (c :: text, cs) := by
  have escaped {e : List Char} (h : escaped? (e ++ cs) = some (c, cs)) :
      text? (fuel + 1) ('\\' :: e ++ cs) =
        (text? fuel cs).map fun (text, cs) => (c :: text, cs) := by
    rw [List.cons_append, text?, if_neg (by decide), if_pos rfl, h, Option.bind_some]
  unfold escape
  -- seven characters have an escape of their own
  iterate 7
    split
    · next own =>
      subst own
      exact escaped rfl
  split
  · next control => exact escaped (coded?_hexDigit control cs)
  · rename_i quotationMark backslash _ _ _ _ _ plain
    rw [List.singleton_append, text?, if_neg quotationMark, if_neg backslash, if_neg plain]

theorem text?_escapes (text cs : List Char) {fuel : Nat} (enough : text.length < fuel) :
    text? fuel (text.flatMap escape ++ '"' :: cs) = some (text, cs) := by
  induction text generalizing fuel with
  | nil =>
    obtain ⟨fuel, rfl⟩ := Nat.exists_eq_add_of_lt enough
    rw [List.flatMap_nil, List.nil_append, text?, if_pos rfl]
  | cons c text ih =>
    cases fuel with
    | zero => cases enough
    | succ fuel =>
      rw [List.flatMap_cons, List.append_assoc, text?_escape, ih (Nat.lt_of_succ_lt_succ enough)]
      rfl

theorem length_le_length_escapes (text : List Char) :
    text.length ≤ (text.flatMap escape).length := by
  rw [List.length_flatMap]
  induction text with
  | nil => exact Nat.le_refl 0
  | cons c text ih =>
    have one : 0 < (escape c).length := by
      unfold escape
      repeat' split
      all_goals exact Nat.zero_lt_succ _
    rw [List.map_cons, List.sum_cons, List.length_cons]
    omega

theorem text?_quote (text : String) (cs : List Char) {fuel : Nat}
    (enough : (quote text).length ≤ fuel + 1) :
    text? fuel ((quote text).tail ++ cs) = some (text.toList, cs) := by
  have short := length_le_length_escapes text.toList
  simp only [quote, List.cons_append, List.length_cons, List.length_append, List.length_nil]
    at enough
  rw [quote, List.cons_append, List.tail_cons, List.append_assoc]
  exact text?_escapes _ _ (by omega)

/-! ## Written documents -/

mutual

def valueOf : Document → Value
  | .absent => .null
  | .truth value => .truth value
  | .text value => .text value
  | .list items => .list (valuesOf items)
  | .record fields => .record (fieldsOf fields)

def valuesOf : List Document → List Value
  | [] => []
  | item :: items => valueOf item :: valuesOf items

def fieldsOf : List (String × Document) → List (String × Value)
  | [] => []
  | (key, value) :: fields => (key, valueOf value) :: fieldsOf fields

end

section

variable {cs cs' : List Char}

theorem skip_newline (level : Nat) (cs : List Char) : skip (newline level ++ cs) = skip cs := by
  rw [newline, List.cons_append, skip, List.dropWhile_cons_of_pos rfl, skip]
  induction 2 * level with
  | zero => rfl
  | succ n ih => rw [List.replicate_succ, List.cons_append, List.dropWhile_cons_of_pos rfl, ih]

theorem value?_congr (same : skip cs = skip cs') (fuel : Nat) :
    value? fuel cs = value? fuel cs' := by
  cases fuel with
  | zero => rfl
  | succ fuel => rw [value?, same, value?]

theorem items?_congr (same : skip cs = skip cs') (fuel : Nat) :
    items? fuel cs = items? fuel cs' := by
  cases fuel with
  | zero => rfl
  | succ fuel => rw [items?, value?_congr same, items?]

theorem fields?_congr (same : skip cs = skip cs') (fuel : Nat) :
    fields? fuel cs = fields? fuel cs' := by
  cases fuel with
  | zero => rfl
  | succ fuel => rw [fields?, same, fields?]

end

/-- A written value begins with a character that is neither passed over nor closes a list. -/
theorem write_head (level : Nat) (document : Document) (cs : List Char) :
    ∃ c more, write level document ++ cs = c :: more ∧ isSpace c = false ∧ c ≠ ']' := by
  cases document with
  | absent => exact ⟨_, _, rfl, by decide⟩
  | truth value => cases value <;> exact ⟨_, _, rfl, by decide⟩
  | text value => exact ⟨_, _, rfl, by decide⟩
  | list items => cases items <;> exact ⟨_, _, rfl, by decide⟩
  | record fields => cases fields <;> exact ⟨_, _, rfl, by decide⟩

theorem value?_list (fuel level : Nat) (item : Document) (cs : List Char) :
    value? (fuel + 1) ('[' :: (newline level ++ (write level item ++ cs))) =
      (items? fuel (write level item ++ cs)).map fun (items, cs) => (.list items, cs) := by
  obtain ⟨c, more, head, notSpace, notClosing⟩ := write_head level item cs
  have behind : skip (newline level ++ (c :: more)) = c :: more := by
    rw [skip_newline, skip, List.dropWhile_cons_of_neg (by simp [notSpace])]
  have opened (cs : List Char) : value? (fuel + 1) ('[' :: cs) =
      match skip cs with
      | ']' :: cs => some (.list [], cs)
      | cs => (items? fuel cs).map fun (items, cs) => (.list items, cs) := rfl
  rw [head, opened, behind]
  split
  · next same => exact absurd (List.cons.inj same).1 notClosing
  · rfl

theorem value?_record (fuel level : Nat) (key : String) (cs : List Char) :
    value? (fuel + 1) ('\x7b' :: (newline level ++ (quote key ++ cs))) =
      (fields? fuel (quote key ++ cs)).map fun (fields, cs) => (.record fields, cs) := by
  have behind : skip (newline level ++ (quote key ++ cs)) = quote key ++ cs := by
    rw [skip_newline]
    rfl
  have opened (cs : List Char) : value? (fuel + 1) ('\x7b' :: cs) =
      match skip cs with
      | '\x7d' :: cs => some (.record [], cs)
      | cs => (fields? fuel cs).map fun (fields, cs) => (.record fields, cs) := rfl
  rw [opened, behind]
  rfl

theorem value?_quote (text : String) (cs : List Char) {fuel : Nat}
    (enough : (quote text).length ≤ fuel + 1) :
    value? (fuel + 1) (quote text ++ cs) = some (.text text, cs) := by
  change (text? fuel ((quote text).tail ++ cs)).map _ = _
  rw [text?_quote text cs enough]
  simp

/-- The first field is read up to its value. -/
theorem fields?_quote (key : String) (cs : List Char) {fuel : Nat}
    (enough : (quote key).length ≤ fuel + 1) :
    fields? (fuel + 1) (quote key ++ (':' :: ' ' :: cs)) =
      (value? fuel cs).bind fun (value, cs) =>
        match skip cs with
        | ',' :: cs => (fields? fuel cs).map fun (fields, cs) => ((key, value) :: fields, cs)
        | '\x7d' :: cs => some ([(key, value)], cs)
        | _ => none := by
  change (text? fuel ((quote key).tail ++ _)).bind _ = _
  rw [text?_quote key _ enough, Option.bind_some]
  change (value? fuel (' ' :: cs)).bind _ = _
  rw [value?_congr (show skip (' ' :: cs) = skip cs from rfl), String.ofList_toList]

mutual

theorem value?_write (level : Nat) (cs : List Char) : ∀ (fuel : Nat) (document : Document),
    (write level document).length ≤ fuel →
      value? fuel (write level document ++ cs) = some (valueOf document, cs)
  | 0, document, enough => by
    obtain ⟨c, more, head, -⟩ := write_head level document []
    rw [← List.append_nil (write level document), head] at enough
    cases enough
  | fuel + 1, .absent, _ => rfl
  | fuel + 1, .truth true, _ => rfl
  | fuel + 1, .truth false, _ => rfl
  | fuel + 1, .text value, enough => value?_quote value cs enough
  | fuel + 1, .list [], _ => rfl
  | fuel + 1, .list (item :: items), enough => by
    simp only [write, List.length_cons, List.length_append] at enough
    have read := items?_write (level + 1) level cs fuel item items
      (by rw [List.length_append]; omega)
    simp only [write, List.cons_append, List.append_assoc] at read ⊢
    rw [value?_list, read]
    rfl
  | fuel + 1, .record [], _ => rfl
  | fuel + 1, .record ((key, value) :: fields), enough => by
    simp only [write, List.length_cons, List.length_append] at enough
    have read := fields?_write (level + 1) level cs fuel key value fields
      (by simp only [List.length_append]; omega)
    simp only [write, List.cons_append, List.append_assoc] at read ⊢
    rw [value?_record, List.nil_append, read]
    rfl
termination_by fuel => fuel

theorem items?_write (level level' : Nat) (cs : List Char) :
    ∀ (fuel : Nat) (item : Document) (items : List Document),
      (write level item ++ writeItems level items).length < fuel →
      items? fuel (write level item ++
          (writeItems level items ++ (newline level' ++ ([']'] ++ cs)))) =
        some (valueOf item :: valuesOf items, cs)
  | fuel + 1, item, [], enough => by
    rw [List.length_append] at enough
    have closed : skip (newline level' ++ ([']'] ++ cs)) = ']' :: cs := skip_newline level' _
    rw [items?, value?_write level _ fuel item (by omega), Option.bind_some, writeItems]
    simp only [List.nil_append, closed]
    rfl
  | fuel + 1, item, next :: items, enough => by
    simp only [writeItems, List.length_append, List.length_cons] at enough
    have read := items?_write level level' cs fuel next items
      (by rw [List.length_append]; omega)
    rw [items?, value?_write level _ fuel item (by omega), Option.bind_some]
    simp only [writeItems, List.cons_append, List.append_assoc] at read ⊢
    change (items? fuel (newline level ++ _)).map _ = _
    rw [items?_congr (skip_newline level _), read]
    rfl
termination_by fuel => fuel

theorem fields?_write (level level' : Nat) (cs : List Char) :
    ∀ (fuel : Nat) (key : String) (value : Document) (fields : List (String × Document)),
      (quote key ++ (write level value ++ writeFields level fields)).length < fuel →
      fields? fuel (quote key ++ (':' :: ' ' :: (write level value ++
          (writeFields level fields ++ (newline level' ++ (['\x7d'] ++ cs)))))) =
        some ((key, valueOf value) :: fieldsOf fields, cs)
  | fuel + 1, key, value, [], enough => by
    simp only [List.length_append] at enough
    have closed : skip (newline level' ++ (['\x7d'] ++ cs)) = '\x7d' :: cs := skip_newline level' _
    rw [fields?_quote key _ (by omega), value?_write level _ fuel value (by omega),
      Option.bind_some, writeFields]
    simp only [List.nil_append, closed]
    rfl
  | fuel + 1, key, value, (key', value') :: fields, enough => by
    simp only [writeFields, List.length_append, List.length_cons] at enough
    have read := fields?_write level level' cs fuel key' value' fields
      (by simp only [List.length_append]; omega)
    rw [fields?_quote key _ (by omega), value?_write level _ fuel value (by omega),
      Option.bind_some]
    simp only [writeFields, List.cons_append, List.append_assoc, List.nil_append] at read ⊢
    change (fields? fuel (newline level ++ _)).map _ = _
    rw [fields?_congr (skip_newline level _), read]
    rfl
termination_by fuel => fuel

end

/-- A written document is read back. -/
theorem read?_render (document : Document) :
    read? (render document) = some (valueOf document) := by
  have enough : (write 0 document).length ≤ (write 0 document ++ ['\n']).length := by
    rw [List.length_append]
    exact Nat.le_add_right _ _
  rw [read?, render, String.toList_ofList, value?_write 0 ['\n'] _ document enough]
  rfl

end Pinout.Export.Json
