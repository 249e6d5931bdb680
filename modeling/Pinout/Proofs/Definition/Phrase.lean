import Pinout.Definition.Pattern

/-! # Phrases

A derivation of a grammar rule is a tree with lexemes at its leaves. Rules are built from leaves by
sequence, option and repetition, and so are the types of their trees: pairs, options and lists.

`Fits` is the reading that takes every optional part and every repetition as far as it goes. It
depends on what comes behind the tree, and it leaves no choice: a text has at most one tree that
fits what follows it (`Phrase.unique`).
-/

namespace Pinout.Definition

instance {p : Kind → Prop} [DecidablePred p] : Decidable (∀ kind, p kind) :=
  decidable_of_iff (p .endOfInput ∧ ∀ kind ∈ Kind.order, p kind) <| by
    constructor
    · rintro ⟨last, others⟩ kind
      cases kind with
      | endOfInput => exact last
      | _ => exact others _ (by decide)
    · intro all
      exact ⟨all _, fun kind _ => all kind⟩

def starts (p : Kind → Bool) : List Lexeme → Bool
  | [] => false
  | lexeme :: _ => p lexeme.kind

@[simp]
theorem starts_nil (p : Kind → Bool) : starts p [] = false :=
  rfl

@[simp]
theorem starts_cons (p : Kind → Bool) (lexeme : Lexeme) (rest : List Lexeme) :
    starts p (lexeme :: rest) = p lexeme.kind :=
  rfl

theorem starts_mono {p q : Kind → Bool} (weaker : ∀ kind, p kind = true → q kind = true)
    {lexemes : List Lexeme} (h : starts p lexemes = true) : starts q lexemes = true := by
  cases lexemes with
  | nil => cases h
  | cons lexeme rest => exact weaker _ h

theorem not_starts_of_starts {p q : Kind → Bool}
    (disjoint : ∀ kind, p kind = true → q kind = false) {lexemes : List Lexeme}
    (h : starts p lexemes = true) : starts q lexemes = false := by
  cases lexemes with
  | nil => rfl
  | cons lexeme rest => exact disjoint _ h

/-- The trees of a rule. -/
class Phrase (α : Type) where
  /-- The lexemes at the leaves, in order. -/
  frontier : α → List Lexeme
  /-- Whether a tree takes all it can of its frontier and what follows. -/
  Fits : α → List Lexeme → Prop
  unique : ∀ {a b : α} {rest rest' : List Lexeme}, Fits a rest → Fits b rest' →
    frontier a ++ rest = frontier b ++ rest' → a = b ∧ rest = rest'

/-- The trees of a rule that begin with a lexeme of certain kinds. -/
class Headed (α : Type) extends Phrase α where
  head : Kind → Bool
  starts_frontier : ∀ (a : α) (rest : List Lexeme), starts head (frontier a ++ rest) = true

export Phrase (frontier Fits)
export Headed (head starts_frontier)

variable {α β : Type}

def EachBefore [Phrase α] (ok : α → List Lexeme → Prop) : List α → List Lexeme → Prop
  | [], _ => True
  | a :: more, rest => ok a (more.flatMap frontier ++ rest) ∧ EachBefore ok more rest

abbrev Leaf (p : Kind → Bool) :=
  { lexeme : Lexeme // p lexeme.kind = true }

instance (p : Kind → Bool) : Headed (Leaf p) where
  frontier leaf := [leaf.1]
  Fits _ _ := True
  unique _ _ h := by
    simp only [List.singleton_append, List.cons.injEq] at h
    exact ⟨Subtype.ext h.1, h.2⟩
  head := p
  starts_frontier leaf _ := leaf.2

instance [Phrase α] [Phrase β] : Phrase (α × β) where
  frontier pair := frontier pair.1 ++ frontier pair.2
  Fits pair rest := Fits pair.1 (frontier pair.2 ++ rest) ∧ Fits pair.2 rest
  unique := by
    rintro ⟨a, b⟩ ⟨a', b'⟩ rest rest' ⟨ha, hb⟩ ⟨ha', hb'⟩ h
    simp only [List.append_assoc] at h
    obtain ⟨rfl, second⟩ := Phrase.unique ha ha' h
    obtain ⟨rfl, behind⟩ := Phrase.unique hb hb' second
    exact ⟨rfl, behind⟩

theorem frontier_pair [Phrase α] [Phrase β] (a : α) (b : β) (rest : List Lexeme) :
    frontier (a, b) ++ rest = frontier a ++ (frontier b ++ rest) :=
  List.append_assoc ..

instance [Headed α] [Phrase β] : Headed (α × β) where
  head := head α
  starts_frontier pair rest := by
    rw [← Prod.eta pair, frontier_pair]
    exact starts_frontier pair.1 _

instance [Headed α] : Phrase (Option α) where
  frontier part := part.elim [] frontier
  Fits
    | none, rest => starts (head α) rest = false
    | some a, rest => Fits a rest
  unique := by
    -- A part that is there begins with a lexeme that cannot come where it is left out.
    intro a b rest rest' ha hb h
    cases a with
    | none =>
      cases b with
      | none => exact ⟨rfl, h⟩
      | some b =>
        have taken := starts_frontier b rest'
        rw [← show rest = frontier b ++ rest' from h, show starts _ rest = false from ha] at taken
        cases taken
    | some a =>
      cases b with
      | none =>
        have taken := starts_frontier a rest
        rw [show frontier a ++ rest = rest' from h, show starts _ rest' = false from hb] at taken
        cases taken
      | some b =>
        obtain ⟨rfl, behind⟩ := Phrase.unique ha hb h
        exact ⟨rfl, behind⟩

instance [Headed α] : Phrase (List α) where
  frontier trees := trees.flatMap frontier
  Fits trees rest := EachBefore Fits trees rest ∧ starts (head α) rest = false
  unique := by
    intro as bs rest rest' ⟨each, stop⟩ ⟨each', stop'⟩ h
    -- A repetition that stopped earlier would stop in front of a tree of the other one.
    induction as generalizing bs with
    | nil =>
      cases bs with
      | nil => exact ⟨rfl, h⟩
      | cons b bs =>
        have taken := starts_frontier b (bs.flatMap frontier ++ rest')
        rw [← List.append_assoc, ← List.flatMap_cons, ← h] at taken
        exact absurd (taken.symm.trans stop) nofun
    | cons a as ih =>
      cases bs with
      | nil =>
        have taken := starts_frontier a (as.flatMap frontier ++ rest)
        rw [← List.append_assoc, ← List.flatMap_cons, h] at taken
        exact absurd (taken.symm.trans stop') nofun
      | cons b bs =>
        simp only [List.flatMap_cons, List.append_assoc] at h
        obtain ⟨rfl, more⟩ := Phrase.unique each.1 each'.1 h
        obtain ⟨rfl, behind⟩ := ih each.2 each'.2 more
        exact ⟨rfl, behind⟩

theorem frontier_ne_nil [Headed α] (a : α) : frontier a ≠ [] := by
  intro h
  have taken := starts_frontier a []
  rw [h] at taken
  cases taken

theorem frontier_cons [Headed α] (a : α) (trees : List α) (rest : List Lexeme) :
    frontier (a :: trees) ++ rest = frontier a ++ (frontier trees ++ rest) :=
  List.append_assoc ..

theorem starts_frontier_list [Headed α] {p : Kind → Bool}
    (weaker : ∀ kind, head α kind = true → p kind = true) (trees : List α) {rest : List Lexeme}
    (last : starts p rest = true) : starts p (frontier trees ++ rest) = true := by
  cases trees with
  | nil => exact last
  | cons a trees =>
    rw [frontier_cons]
    exact starts_mono weaker (starts_frontier a _)

/-- Two conditions on trees and the text behind them that agree where only certain kinds follow. -/
theorem eachBefore_congr [Headed α] {p : Kind → Bool} {ok ok' : α → List Lexeme → Prop}
    (weaker : ∀ kind, head α kind = true → p kind = true)
    (agree : ∀ a rest, starts p rest = true → (ok a rest ↔ ok' a rest))
    (trees : List α) {rest : List Lexeme} (last : starts p rest = true) :
    EachBefore ok trees rest ↔ EachBefore ok' trees rest := by
  induction trees with
  | nil => exact Iff.rfl
  | cons a trees ih => exact and_congr (agree a _ (starts_frontier_list weaker trees last)) ih

theorem eachBefore_of_forall [Phrase α] {ok : α → List Lexeme → Prop}
    (h : ∀ a rest, ok a rest) (trees : List α) (rest : List Lexeme) :
    EachBefore ok trees rest := by
  induction trees with
  | nil => trivial
  | cons a trees ih => exact ⟨h a _, ih⟩

theorem eachBefore_of_starts [Headed α] {p : Kind → Bool} {ok : α → List Lexeme → Prop}
    (weaker : ∀ kind, head α kind = true → p kind = true)
    (h : ∀ a rest, starts p rest = true → ok a rest)
    (trees : List α) {rest : List Lexeme} (last : starts p rest = true) :
    EachBefore ok trees rest :=
  (eachBefore_congr weaker (fun a rest next => iff_true_intro (h a rest next)) trees last).2
    (eachBefore_of_forall (fun _ _ => trivial) trees rest)

end Pinout.Definition
