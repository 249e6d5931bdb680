import Mathlib.Data.List.TakeWhile
import Pinout.Text.Lines

/-! # Lines that are written and read

No line holds a terminator, and lines that are written with a line feed behind each are read back
as they are.
-/

namespace Pinout.Text

def OneLine (cs : List Char) : Prop :=
  ∀ c ∈ cs, isBreak c = false

instance (cs : List Char) : Decidable (OneLine cs) :=
  List.decidableBAll (isBreak · = false) cs

theorem oneLine_append {cs ds : List Char} : OneLine (cs ++ ds) ↔ OneLine cs ∧ OneLine ds :=
  List.forall_mem_append

theorem segments_cons_of_not_isBreak {c : Char} (h : isBreak c = false) (cs : List Char) :
    segments (c :: cs) = (segments cs).modifyHead (c :: ·) := by
  rw [segments]
  · simp [h]
  · rintro _ rfl
    cases h

theorem oneLine_of_mem_segments {cs line : List Char} (member : line ∈ segments cs) :
    OneLine line := by
  fun_induction segments cs generalizing line with
  | case1 =>
    cases List.mem_singleton.1 member
    exact List.forall_mem_nil _
  | case2 cs ih | case3 c cs _ _ ih =>
    -- a terminator ends an empty segment
    rcases List.mem_cons.1 member with rfl | member
    · exact List.forall_mem_nil _
    · exact ih member
  | case4 c cs _ notBreak ih =>
    -- any other character belongs to the first segment behind it
    cases h : segments cs with
    | nil => exact absurd h (segments_ne_nil cs)
    | cons first rest =>
      rw [h] at member ih
      rcases List.mem_cons.1 member with rfl | member
      · exact List.forall_mem_cons.2
          ⟨Bool.eq_false_iff.2 notBreak, ih List.mem_cons_self⟩
      · exact ih (List.mem_cons_of_mem _ member)

theorem mem_segments_of_mem_lines {cs line : List Char} (member : line ∈ lines cs) :
    line ∈ segments cs := by
  unfold lines at member
  split at member
  · cases member
  · dsimp only at member
    split at member
    · exact List.dropLast_subset _ member
    · exact member

theorem oneLine_of_mem_lines {cs line : List Char} (member : line ∈ lines cs) : OneLine line :=
  oneLine_of_mem_segments (mem_segments_of_mem_lines member)

/-- What is no line is empty and stands at the end. -/
theorem mem_lines_of_mem_segments {cs line : List Char} (member : line ∈ segments cs)
    (nonempty : line ≠ []) : line ∈ lines cs := by
  unfold lines
  split
  · next empty =>
    rw [List.isEmpty_iff.1 empty] at member
    exact absurd (List.mem_singleton.1 member) nonempty
  · dsimp only
    split
    · next ended =>
      obtain ⟨front, whole⟩ := List.getLast?_eq_some_iff.1 ended.2
      rw [whole, List.mem_append] at member
      rw [whole, List.dropLast_concat]
      exact member.resolve_right fun last => nonempty (List.mem_singleton.1 last)
    · exact member

theorem mem_of_mem_segments {cs line : List Char} (member : line ∈ segments cs) {c : Char}
    (inside : c ∈ line) : c ∈ cs := by
  fun_induction segments cs generalizing line with
  | case1 =>
    cases List.mem_singleton.1 member
    cases inside
  | case2 cs ih =>
    rcases List.mem_cons.1 member with rfl | member
    · cases inside
    · exact List.mem_cons_of_mem _ (List.mem_cons_of_mem _ (ih member inside))
  | case3 d cs _ _ ih =>
    rcases List.mem_cons.1 member with rfl | member
    · cases inside
    · exact List.mem_cons_of_mem d (ih member inside)
  | case4 d cs _ _ ih =>
    cases h : segments cs with
    | nil => exact absurd h (segments_ne_nil cs)
    | cons first rest =>
      rw [h] at member ih
      rcases List.mem_cons.1 member with rfl | member
      · exact (List.mem_cons.1 inside).elim (fun same => same ▸ List.mem_cons_self)
          fun inside => List.mem_cons_of_mem d (ih List.mem_cons_self inside)
      · exact List.mem_cons_of_mem d (ih (List.mem_cons_of_mem _ member) inside)

theorem segments_cons_of_isBreak {c : Char} (h : isBreak c = true) {cs : List Char}
    (noPair : c = '\r' → cs.head? ≠ some '\n') : segments (c :: cs) = [] :: segments cs := by
  rw [segments]
  · simp [h]
  · rintro more rfl rfl
    exact noPair rfl rfl

/-- A line feed ends a line whatever stands in front of it. -/
theorem segments_append_newline (cs ds : List Char) :
    ∃ first front, segments (cs ++ ['\n']) = first :: (front ++ [[]]) ∧
      segments (cs ++ '\n' :: ds) = first :: (front ++ segments ds) := by
  fun_induction segments cs with
  | case1 => exact ⟨[], [], rfl, rfl⟩
  | case2 cs ih =>
    obtain ⟨first, front, alone, behind⟩ := ih
    exact ⟨[], first :: front, congrArg ([] :: ·) alone, congrArg ([] :: ·) behind⟩
  | case3 c cs noPair isBreak ih =>
    obtain ⟨first, front, alone, behind⟩ := ih
    by_cases pair : c = '\r' ∧ cs = []
    · -- the line feed belongs to the carriage return
      obtain ⟨rfl, rfl⟩ := pair
      exact ⟨[], [], rfl, rfl⟩
    · have apart (more : List Char) : c = '\r' → (cs ++ '\n' :: more).head? ≠ some '\n' := by
        rintro rfl
        cases cs with
        | nil => exact absurd ⟨rfl, rfl⟩ pair
        | cons d cs =>
          rintro ⟨⟩
          exact noPair cs rfl rfl
      refine ⟨[], first :: front, ?_, ?_⟩
      · exact (segments_cons_of_isBreak isBreak (apart [])).trans (congrArg _ alone)
      · exact (segments_cons_of_isBreak isBreak (apart ds)).trans (congrArg _ behind)
  | case4 c cs _ notBreak ih =>
    obtain ⟨first, front, alone, behind⟩ := ih
    have notBreak := Bool.eq_false_iff.2 notBreak
    refine ⟨c :: first, front, ?_, ?_⟩
    · rw [List.cons_append, segments_cons_of_not_isBreak notBreak, alone]
      rfl
    · rw [List.cons_append, segments_cons_of_not_isBreak notBreak, behind]
      rfl

def Ended (cs : List Char) : Prop :=
  cs = [] ∨ ∃ front, cs = front ++ ['\n']

theorem ended_concat (cs : List Char) : Ended (cs ++ ['\n']) :=
  .inr ⟨cs, rfl⟩

theorem Ended.append {cs ds : List Char} (first : Ended cs) (second : Ended ds) :
    Ended (cs ++ ds) := by
  rcases second with rfl | ⟨front, rfl⟩
  · rw [List.append_nil]
    exact first
  · exact .inr ⟨cs ++ front, (List.append_assoc ..).symm⟩

theorem ended_join {texts : List String} (all : ∀ text ∈ texts, Ended text.toList) :
    Ended (String.join texts).toList := by
  rw [String.toList_join]
  induction texts with
  | nil => exact .inl rfl
  | cons text texts ih =>
    obtain ⟨first, others⟩ := List.forall_mem_cons.1 all
    exact first.append (ih others)

/-- Behind a text that leaves no line open, lines are those of either text. -/
theorem mem_segments_append {cs ds line : List Char} (ended : Ended cs)
    (member : line ∈ segments (cs ++ ds)) : line ∈ segments cs ∨ line ∈ segments ds := by
  rcases ended with rfl | ⟨front, rfl⟩
  · exact .inr member
  · obtain ⟨first, others, alone, behind⟩ := segments_append_newline front ds
    rw [List.append_assoc, List.singleton_append, behind, ← List.cons_append] at member
    rw [alone, ← List.cons_append]
    exact (List.mem_append.1 member).imp_left (List.mem_append_left _)

/-- Only a text without characters is one empty segment. -/
theorem eq_nil_of_segments {cs : List Char} : segments cs = [[]] → cs = [] := by
  fun_cases segments cs with
  | case1 => exact fun _ => rfl
  | case2 cs => exact fun alone => absurd (List.cons.inj alone).2 (segments_ne_nil cs)
  | case3 c cs => exact fun alone => absurd (List.cons.inj alone).2 (segments_ne_nil cs)
  | case4 c cs =>
    cases h : segments cs with
    | nil => exact absurd h (segments_ne_nil cs)
    | cons => simp

/-- The text behind the last terminator is a line unless it is empty. -/
theorem lines_eq (cs : List Char) :
    lines cs = if (segments cs).getLast? = some [] then (segments cs).dropLast else segments cs := by
  cases cs with
  | nil => rfl
  | cons c cs =>
    have several : (segments (c :: cs)).getLast? = some [] → 1 < (segments (c :: cs)).length := by
      intro last
      cases h : segments (c :: cs) with
      | nil => exact absurd h (segments_ne_nil _)
      | cons first others =>
        cases others with
        | nil =>
          rw [h, List.getLast?_singleton, Option.some.injEq] at last
          exact absurd (eq_nil_of_segments (last ▸ h)) (List.cons_ne_nil c cs)
        | cons => simp
    simp [lines, and_iff_right_of_imp several]

/-- Behind a text that leaves no line open, the lines of both texts follow each other. -/
theorem lines_append {cs : List Char} (ended : Ended cs) (ds : List Char) :
    lines (cs ++ ds) = lines cs ++ lines ds := by
  rcases ended with rfl | ⟨front, rfl⟩
  · rfl
  · obtain ⟨first, others, alone, behind⟩ := segments_append_newline front ds
    have ahead : lines (front ++ ['\n']) = first :: others := by
      rw [lines_eq, alone, ← List.cons_append, List.getLast?_concat, if_pos rfl, List.dropLast_concat]
    rw [ahead, lines_eq, lines_eq, List.append_assoc, List.singleton_append, behind,
      ← List.cons_append, List.getLast?_append, List.getLast?_eq_some_getLast (segments_ne_nil ds),
      Option.some_or]
    split
    · exact List.dropLast_append_of_ne_nil (segments_ne_nil ds)
    · rfl

theorem linesOf_append {text : String} (ended : Ended text.toList) (more : String) :
    linesOf (text ++ more) = linesOf text ++ linesOf more := by
  rw [linesOf, String.toList_append, lines_append ended, List.map_append]
  rfl

theorem oneLine_of_mem_linesOf {text line : String} (member : line ∈ linesOf text) :
    OneLine line.toList := by
  obtain ⟨cs, found, rfl⟩ := List.mem_map.1 member
  rw [String.toList_ofList]
  exact oneLine_of_mem_lines found

def terminators : List (List Char) :=
  [['\n'], ['\r'], ['\r', '\n']]

theorem pair_or_single {terminator : List Char} (ends : terminator ∈ terminators) :
    terminator = ['\r', '\n'] ∨ ∃ c, isBreak c = true ∧ terminator = [c] := by
  simp only [terminators, List.mem_cons, List.not_mem_nil, or_false] at ends
  rcases ends with rfl | rfl | rfl
  · exact .inr ⟨'\n', rfl, rfl⟩
  · exact .inr ⟨'\r', rfl, rfl⟩
  · exact .inl rfl

theorem terminator_ne_nil : ∀ terminator ∈ terminators, terminator ≠ [] := by
  decide

theorem blank_terminator : ∀ terminator ∈ terminators, terminator.all isBlank = true := by
  decide

section

variable {line terminator : List Char}

theorem dropWhile_append_of_oneLine (h : OneLine line) (rest : List Char) :
    (line ++ rest).dropWhile (!isBreak ·) = rest.dropWhile (!isBreak ·) :=
  List.dropWhile_append_of_pos fun c member => by simp [h c member]

theorem dropWhile_terminator (ends : terminator ∈ terminators) (rest : List Char) :
    (terminator ++ rest).dropWhile (!isBreak ·) = terminator ++ rest := by
  rcases pair_or_single ends with rfl | ⟨c, isBreak, rfl⟩
  · rfl
  · exact List.dropWhile_cons_of_neg (by simp [isBreak])

theorem takeWhile_of_oneLine (h : OneLine line) : line.takeWhile (!isBreak ·) = line :=
  List.takeWhile_eq_self_iff.2 fun c member => by simp [h c member]

theorem takeWhile_append_terminator (h : OneLine line) (ends : terminator ∈ terminators)
    (rest : List Char) : (line ++ (terminator ++ rest)).takeWhile (!isBreak ·) = line := by
  have stops : (terminator ++ rest).takeWhile (!isBreak ·) = [] := by
    rcases pair_or_single ends with rfl | ⟨c, isBreak, rfl⟩
    · rfl
    · exact List.takeWhile_cons_of_neg (by simp [isBreak])
  rw [List.takeWhile_append_of_pos fun c member => by simp [h c member], stops, List.append_nil]

/-- A carriage return ends a line alone unless a line feed follows. -/
theorem segments_append_terminator (h : OneLine line) (ends : terminator ∈ terminators)
    {cs : List Char} (whole : terminator = ['\r'] → cs.head? ≠ some '\n') :
    segments (line ++ (terminator ++ cs)) = line :: segments cs := by
  induction line with
  | nil =>
    rcases pair_or_single ends with rfl | ⟨c, isBreak, rfl⟩
    · rfl
    · exact segments_cons_of_isBreak isBreak fun isReturn => whole (congrArg ([·]) isReturn)
  | cons c line ih =>
    obtain ⟨notBreak, h⟩ := List.forall_mem_cons.1 h
    rw [List.cons_append, segments_cons_of_not_isBreak notBreak, ih h]
    rfl

end

theorem segments_append_of_oneLine {line : List Char} (h : OneLine line) (cs : List Char) :
    segments (line ++ '\n' :: cs) = line :: segments cs :=
  segments_append_terminator h (List.mem_cons_self : ['\n'] ∈ terminators) nofun

theorem segments_flatMap {ls : List (List Char)} (h : ∀ line ∈ ls, OneLine line) :
    segments (ls.flatMap (· ++ ['\n'])) = ls ++ [[]] := by
  induction ls with
  | nil => rfl
  | cons line ls ih =>
    obtain ⟨first, rest⟩ := List.forall_mem_cons.1 h
    rw [List.flatMap_cons, List.append_assoc, List.singleton_append,
      segments_append_of_oneLine first, ih rest, List.cons_append]

/-- The last line feed begins no line. -/
theorem lines_flatMap {ls : List (List Char)} (h : ∀ line ∈ ls, OneLine line) :
    lines (ls.flatMap (· ++ ['\n'])) = ls := by
  cases ls with
  | nil => rfl
  | cons line ls =>
    have nonempty : ((line :: ls).flatMap (· ++ ['\n'])).isEmpty = false := by simp
    have ended : 1 < (line :: ls ++ [[]]).length ∧ (line :: ls ++ [[]]).getLast? = some [] :=
      ⟨by simp, List.getLast?_concat⟩
    simp only [lines, nonempty, segments_flatMap h, Bool.false_eq_true, ↓reduceIte]
    rw [if_pos ended, List.dropLast_concat]

theorem linesOf_join {ls : List String} (h : ∀ line ∈ ls, OneLine line.toList) :
    linesOf (String.join (ls.map (· ++ "\n"))) = ls := by
  have chars : (String.join (ls.map (· ++ "\n"))).toList =
      (ls.map String.toList).flatMap (· ++ ['\n']) := by
    simp [String.toList_join, List.flatMap_map]
  rw [linesOf, chars, lines_flatMap (by simpa using h)]
  simp

end Pinout.Text
