/-! # Byte lengths

Positions in a source text are counted in the bytes of its UTF-8 form, one to four per character,
so a position is the byte length of what stands before it.
-/

namespace Pinout.Text

def byteLength : List Char → Nat
  | [] => 0
  | c :: cs => c.utf8Size + byteLength cs

@[simp]
theorem byteLength_nil : byteLength [] = 0 :=
  rfl

@[simp]
theorem byteLength_cons (c : Char) (cs : List Char) :
    byteLength (c :: cs) = c.utf8Size + byteLength cs :=
  rfl

@[simp]
theorem byteLength_append (cs ds : List Char) :
    byteLength (cs ++ ds) = byteLength cs + byteLength ds := by
  induction cs with
  | nil => simp
  | cons c cs ih => simp [ih, Nat.add_assoc]

theorem byteLength_pos {cs : List Char} (h : cs ≠ []) : 0 < byteLength cs := by
  cases cs with
  | nil => exact absurd rfl h
  | cons c cs =>
    have := c.utf8Size_pos
    simp only [byteLength_cons]
    omega

theorem byteLength_eq_zero_iff {cs : List Char} : byteLength cs = 0 ↔ cs = [] := by
  cases cs with
  | nil => exact iff_of_true rfl rfl
  | cons c cs =>
    exact iff_of_false (Nat.ne_of_gt (byteLength_pos (List.cons_ne_nil c cs))) (List.cons_ne_nil c cs)

/-- An offset cuts a text in one place at most. -/
theorem append_inj_of_byteLength {cs cs' ds ds' : List Char} (same : cs ++ ds = cs' ++ ds')
    (h : byteLength cs = byteLength cs') : cs = cs' ∧ ds = ds' := by
  induction cs generalizing cs' with
  | nil =>
    cases cs' with
    | nil => exact ⟨rfl, same⟩
    | cons c cs' => exact absurd h (Nat.ne_of_lt (byteLength_pos (List.cons_ne_nil c cs')))
  | cons c cs ih =>
    cases cs' with
    | nil => exact absurd h (Nat.ne_of_gt (byteLength_pos (List.cons_ne_nil c cs)))
    | cons c' cs' =>
      obtain ⟨rfl, behind⟩ := List.cons.inj same
      obtain ⟨rfl, rest⟩ := ih behind (Nat.add_left_cancel h)
      exact ⟨rfl, rest⟩

end Pinout.Text
