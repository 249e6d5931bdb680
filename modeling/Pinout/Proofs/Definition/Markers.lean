import Mathlib.Data.List.Basic
import Mathlib.Data.List.InsertIdx
import Pinout.Proofs.Definition.Slices

/-! # The caret under an excerpt

An offset between two characters has one caret, over the character that begins there or behind the
line. The other marks do not depend on what stands over the caret: the blanks at the beginning are
counted as if that character were not there.
-/

namespace Pinout.Definition

open Text

namespace Excerpt

variable {offset position : Nat} {shown rest : List Char}

/-! ## The place of the caret -/

/-- How many characters of a line that goes on at `position` begin before the offset. -/
def columnFrom (offset position : Nat) : List Char → Nat
  | [] => 0
  | c :: cs => if position < offset then columnFrom offset (position + c.utf8Size) cs + 1 else 0

/-- How many characters of the line stand in front of the offset. -/
def column (excerpt : Excerpt) : Nat :=
  columnFrom excerpt.offset excerpt.start excerpt.line

/-- The offset cuts a line at `position` in two. All offsets beyond the line cut it at its end. -/
inductive Caret (offset position : Nat) (shown : List Char) : List Char → Prop where
  | inside {c : Char} {rest : List Char} :
      position + byteLength shown = offset → Caret offset position shown (c :: rest)
  | behind : position + byteLength shown ≤ offset → Caret offset position shown []

theorem Caret.reaches (caret : Caret offset position shown rest) :
    position + byteLength shown ≤ offset := by
  cases caret with
  | inside here => exact Nat.le_of_eq here
  | behind passed => exact passed

theorem columnFrom_append (reaches : position + byteLength shown ≤ offset) (rest : List Char) :
    columnFrom offset position (shown ++ rest) =
      columnFrom offset (position + byteLength shown) rest + shown.length := by
  induction shown generalizing position with
  | nil => rfl
  | cons c shown ih =>
    have := c.utf8Size_pos
    rw [byteLength_cons, ← Nat.add_assoc] at reaches ⊢
    rw [List.cons_append, columnFrom, if_pos (by omega), ih reaches, List.length_cons,
      Nat.add_assoc]

theorem Caret.columnFrom_eq (caret : Caret offset position shown rest) :
    columnFrom offset position (shown ++ rest) = shown.length := by
  rw [columnFrom_append caret.reaches]
  cases caret with
  | inside here => rw [here, columnFrom, if_neg (Nat.lt_irrefl _), Nat.zero_add]
  | behind => rw [columnFrom, Nat.zero_add]

/-- A boundary of characters cuts the line of the excerpt. -/
theorem exists_caret {source : String}
    (boundary : IsBoundary (min offset (byteLength source.toList)) source.toList) :
    let excerpt := Excerpt.of source offset
    ∃ shown rest, excerpt.line = shown ++ rest ∧
      Caret excerpt.offset excerpt.start shown rest := by
  intro excerpt
  obtain ⟨before, after, split, start, inside, limited⟩ := exists_split source offset
  obtain ⟨front, back, cut, length⟩ := boundary
  rw [← limited] at length
  rw [← start, ← length] at inside ⊢
  obtain ⟨more, rfl, same⟩ := exists_of_append_eq_append (split.symm.trans cut) inside
  rw [byteLength_append]
  -- the text between the beginning of the line and the offset ends behind the line or inside it
  rcases Nat.le_total (byteLength excerpt.line) (byteLength more) with long | short
  · exact ⟨excerpt.line, [], (List.append_nil _).symm, .behind (Nat.add_le_add_left long _)⟩
  · obtain ⟨rest, line, -⟩ := exists_of_append_eq_append same.symm short
    refine ⟨more, rest, line, ?_⟩
    cases rest with
    | nil => exact .behind (Nat.le_refl _)
    | cons c rest => exact .inside rfl

/-! ## The marks beside the caret -/

def under (leading : Bool) : List Char → List Char
  | [] => []
  | c :: cs =>
    (if leading && isBlank c then c else '-') :: under (leading && isBlank c) cs

theorem length_under (leading : Bool) (cs : List Char) : (under leading cs).length = cs.length := by
  induction cs generalizing leading with
  | nil => rfl
  | cons c cs ih => rw [under, List.length_cons, List.length_cons, ih]

theorem caret_not_mem_under (leading : Bool) (cs : List Char) : '^' ∉ under leading cs := by
  induction cs generalizing leading with
  | nil => exact List.not_mem_nil
  | cons c cs ih =>
    rw [under, List.mem_cons, not_or]
    refine ⟨?_, ih _⟩
    split
    · next repeated =>
      rintro rfl
      cases (Bool.and_eq_true_iff.1 repeated).2
    · decide

/-- A blank is repeated when nothing but blanks stands in front of it. -/
theorem getElem?_under (leading : Bool) (cs : List Char) (i : Nat) :
    (under leading cs)[i]? =
      cs[i]?.map fun c => if leading && (cs.take (i + 1)).all isBlank then c else '-' := by
  induction cs generalizing leading i with
  | nil => rfl
  | cons c cs ih =>
    cases i with
    | zero => simp [under]
    | succ i => simp [under, ih, Bool.and_assoc]

theorem under_append (leading : Bool) (cs ds : List Char) :
    under leading (cs ++ ds) = under leading cs ++ under (leading && cs.all isBlank) ds := by
  induction cs generalizing leading with
  | nil => simp [under]
  | cons c cs ih => simp [under, ih, Bool.and_assoc]

theorem take_eraseIdx {cs : List Char} {i j : Nat} (h : i ≤ j) :
    (cs.eraseIdx i).take j = (cs.take (j + 1)).eraseIdx i := by
  refine List.ext_getElem? fun k => ?_
  simp only [List.getElem?_take, List.getElem?_eraseIdx, Nat.add_lt_add_iff_right]
  split
  · split
    · rw [if_pos (by omega)]
    · rfl
  · rw [if_neg (by omega)]

theorem marks_of_lt (passed : offset < position) (leading : Bool) (cs : List Char) :
    marks offset leading position cs = under leading cs := by
  induction cs generalizing leading position with
  | nil => rfl
  | cons c cs ih =>
    rw [marks, if_neg (Nat.ne_of_gt passed), under]
    split
    · next repeated => rw [repeated, ih (Nat.lt_add_right _ passed)]
    · next dashed => rw [Bool.eq_false_iff.2 dashed, ih (Nat.lt_add_right _ passed)]

theorem marks_append (reaches : position + byteLength shown ≤ offset) (leading : Bool)
    (rest : List Char) :
    marks offset leading position (shown ++ rest) =
      under leading shown ++
        marks offset (leading && shown.all isBlank) (position + byteLength shown) rest := by
  induction shown generalizing leading position with
  | nil => simp [under]
  | cons c shown ih =>
    -- the caret stands behind every character that ends in front of the offset
    have := c.utf8Size_pos
    rw [byteLength_cons, ← Nat.add_assoc] at reaches ⊢
    rw [List.cons_append, marks, if_neg (by omega), under, List.all_cons, ← Bool.and_assoc,
      List.cons_append]
    split
    · next repeated => rw [repeated, ih reaches]
    · next dashed => rw [Bool.eq_false_iff.2 dashed, ih reaches]

/-! ## The line under an excerpt -/

section

variable {excerpt : Excerpt} (line : excerpt.line = shown ++ rest)
  (caret : Caret excerpt.offset excerpt.start shown rest)

include line caret

theorem column_eq : excerpt.column = shown.length := by
  rw [column, line, caret.columnFrom_eq]

/-- The line goes on behind the offset unless the offset cuts it at its end. -/
theorem ends_iff : excerpt.start + byteLength excerpt.line ≤ excerpt.offset ↔ rest = [] := by
  rw [line, byteLength_append, ← Nat.add_assoc]
  cases caret with
  | @inside c rest here =>
    have := c.utf8Size_pos
    rw [byteLength_cons]
    exact iff_of_false (by omega) (List.cons_ne_nil c rest)
  | behind passed => exact iff_of_true passed rfl

/-- Of the two places that draw a caret, one does. -/
theorem marker_eq :
    excerpt.marker = under true shown ++ '^' :: under (shown.all isBlank) rest.tail := by
  rw [marker]
  split
  · next ends =>
    obtain rfl := (ends_iff line caret).1 ends
    rw [line, marks_append caret.reaches, marks, List.append_nil]
    rfl
  · next goesOn =>
    cases caret with
    | @inside c rest here =>
      have := c.utf8Size_pos
      rw [line, marks_append (Nat.le_of_eq here), here, marks, if_pos rfl, marks_of_lt (by omega),
        Bool.true_and, List.append_nil]
      rfl
    | behind => exact absurd ((ends_iff line (.behind ‹_›)).2 rfl) goesOn

theorem length_marker :
    excerpt.marker.length =
      if excerpt.start + byteLength excerpt.line ≤ excerpt.offset then excerpt.line.length + 1
      else excerpt.line.length := by
  rw [marker_eq line caret, List.length_append, List.length_cons, length_under, length_under]
  split
  · next ends =>
    obtain rfl := (ends_iff line caret).1 ends
    rw [line, List.append_nil]
    rfl
  · next goesOn =>
    cases rest with
    | nil => exact absurd ((ends_iff line caret).2 rfl) goesOn
    | cons c rest =>
      rw [line, List.length_append]
      rfl

/-- The characters in front of the caret reach up to the offset, or to the end of the line. -/
theorem byteLength_take_column :
    excerpt.start + byteLength (excerpt.line.take excerpt.column) =
      min excerpt.offset (excerpt.start + byteLength excerpt.line) := by
  rw [column_eq line caret, line, List.take_left, byteLength_append]
  cases caret with
  | inside here => omega
  | behind passed =>
    rw [byteLength_nil]
    omega

theorem count_marker : excerpt.marker.count '^' = 1 := by
  rw [marker_eq line caret, List.count_append, List.count_cons_self,
    List.count_eq_zero.2 (caret_not_mem_under true shown),
    List.count_eq_zero.2 (caret_not_mem_under _ rest.tail)]

theorem idxOf_marker : excerpt.marker.idxOf '^' = excerpt.column := by
  rw [marker_eq line caret, column_eq line caret,
    List.idxOf_append_of_notMem (caret_not_mem_under true shown), List.idxOf_cons_self,
    length_under, Nat.add_zero]

/-- The other marks are those of the line without the character over the caret. -/
theorem eraseIdx_marker :
    excerpt.marker.eraseIdx excerpt.column =
      under true (excerpt.line.eraseIdx excerpt.column) := by
  rw [column_eq line caret, marker_eq line caret, line,
    List.eraseIdx_append_of_length_le (Nat.le_of_eq (length_under ..)), length_under, Nat.sub_self,
    List.eraseIdx_zero, List.tail_cons, List.eraseIdx_append_of_length_le (Nat.le_refl _),
    Nat.sub_self, List.eraseIdx_zero, under_append, Bool.true_and]

theorem getElem?_marker {i : Nat} (other : i ≠ excerpt.column) :
    excerpt.marker[i]? =
      excerpt.line[i]?.map fun c =>
        if ((excerpt.line.take (i + 1)).eraseIdx excerpt.column).all isBlank then c else '-' := by
  have same := eraseIdx_marker line caret
  rcases Nat.lt_or_gt_of_ne other with front | back
  · have length : (excerpt.line.take (i + 1)).length ≤ excerpt.column := by
      rw [List.length_take]
      omega
    rw [← List.getElem?_eraseIdx_of_lt front, same, getElem?_under,
      List.getElem?_eraseIdx_of_lt front, List.take_eraseIdx_eq_take_of_le _ _ _ front,
      List.eraseIdx_of_length_le length, Bool.true_and]
  · obtain ⟨j, rfl⟩ := Nat.exists_eq_add_one.2 (Nat.zero_lt_of_lt back)
    have behind := Nat.le_of_lt_succ back
    rw [← List.getElem?_eraseIdx_of_ge behind, same, getElem?_under,
      List.getElem?_eraseIdx_of_ge behind, take_eraseIdx (Nat.le_succ_of_le behind),
      Bool.true_and]

end

/-- An excerpt can be shown for each offset. One between two characters has one caret, behind as
many marks as the line has characters in front of the offset. -/
theorem one_caret (source : String) (offset : Nat) :
    ofBytes? source offset = some (Excerpt.of source offset) ∧
      (IsBoundary (min offset (byteLength source.toList)) source.toList →
        let excerpt := Excerpt.of source offset
        excerpt.marker.count '^' = 1 ∧ excerpt.marker.idxOf '^' = excerpt.column ∧
          excerpt.start + byteLength (excerpt.line.take excerpt.column) =
            min excerpt.offset (excerpt.start + byteLength excerpt.line) ∧
          excerpt.marker.length =
            if excerpt.start + byteLength excerpt.line ≤ excerpt.offset then
              excerpt.line.length + 1
            else
              excerpt.line.length) := by
  refine ⟨ofBytes?_eq source offset, fun boundary => ?_⟩
  obtain ⟨shown, rest, line, caret⟩ := exists_caret boundary
  exact ⟨count_marker line caret, idxOf_marker line caret, byteLength_take_column line caret,
    length_marker line caret⟩

/-- Offsets count bytes, and columns count characters. -/
theorem one_caret_wide :
    let excerpt := Excerpt.of "\u00e9\u20acx\ny" 5
    IsBoundary 5 "\u00e9\u20acx\ny".toList ∧ excerpt.marker = "--^".toList ∧
      excerpt.marker.count '^' = 1 ∧ excerpt.marker.idxOf '^' = excerpt.column := by
  have boundary : IsBoundary 5 "\u00e9\u20acx\ny".toList := by decide
  obtain ⟨-, caret⟩ := one_caret "\u00e9\u20acx\ny" 5
  obtain ⟨one, column, -⟩ := caret boundary
  exact ⟨boundary, by decide, one, column⟩

/-- Apart from the caret, each character of the line has its mark: a blank that begins the line,
the character over the caret left out, is repeated, and all else is dashed. -/
theorem marker_beside_caret (source : String) (offset : Nat)
    (boundary : IsBoundary (min offset (byteLength source.toList)) source.toList) :
    let excerpt := Excerpt.of source offset
    excerpt.marker[excerpt.column]? = some '^' ∧
      ∀ i ≠ excerpt.column, excerpt.marker[i]? =
        excerpt.line[i]?.map fun c =>
          if ((excerpt.line.take (i + 1)).eraseIdx excerpt.column).all isBlank then c else '-' := by
  intro excerpt
  obtain ⟨shown, rest, line, caret⟩ := exists_caret boundary
  refine ⟨?_, fun i other => getElem?_marker line caret other⟩
  rw [marker_eq line caret, column_eq line caret, ← length_under true shown,
    List.getElem?_append_right (Nat.le_refl _), Nat.sub_self, List.getElem?_cons_zero]

theorem marker_beside_caret_indented :
    let excerpt := Excerpt.of "\t a b" 4
    IsBoundary 4 "\t a b".toList ∧ excerpt.marker = "\t --^".toList ∧
      excerpt.marker[excerpt.column]? = some '^' ∧ excerpt.marker[1]? = some ' ' ∧
        excerpt.marker[3]? = some '-' := by
  have boundary : IsBoundary 4 "\t a b".toList := by decide
  obtain ⟨caret, beside⟩ := marker_beside_caret "\t a b" 4 boundary
  refine ⟨boundary, by decide, caret, ?_, ?_⟩
  · exact (beside 1 (by decide)).trans (by decide)
  · exact (beside 3 (by decide)).trans (by decide)

/-- Under the first character that is not blank, the caret does not end the blanks that are
repeated. -/
theorem marker_behind_first :
    (Excerpt.of "a b" 0).marker = "^ -".toList ∧
      ¬∀ source offset, IsBoundary (min offset (byteLength source.toList)) source.toList →
        let excerpt := Excerpt.of source offset
        ∀ i ≠ excerpt.column, excerpt.marker[i]? =
          excerpt.line[i]?.map fun c =>
            if (excerpt.line.take (i + 1)).all isBlank then c else '-' := by
  refine ⟨by decide, fun leading => ?_⟩
  have dashed := leading "a b" 0 (by decide) 1 (by decide)
  exact absurd dashed (by decide)

end Excerpt

end Pinout.Definition
