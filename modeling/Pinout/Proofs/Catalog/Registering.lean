import Pinout.Proofs.Catalog.Cycles
import Pinout.Proofs.Catalog.Loading
import Pinout.Proofs.Definition.Bare

/-! # Catalogs made by loading

Boards that are registered one after the other stand behind those that were there, and a name leads
to the last of them that has it, or where it led before. A catalog that only loading has made is
linked, and all of its boards are bare.
-/

namespace Pinout

namespace Board

def ofKind (board : Board) : BoardKind → Board
  | .board => board
  | .wing => { board with isWing := true }

def isNamed (board : Board) (name : String) : Bool :=
  board.names.any (sameName · name)

def lastNamed? (name : String) : List Board → Option Nat
  | [] => none
  | board :: boards =>
    ((lastNamed? name boards).map (· + 1)).or (if board.isNamed name then some 0 else none)

theorem lastNamed?_lt {name : String} {boards : List Board} {position : Nat}
    (h : lastNamed? name boards = some position) : position < boards.length := by
  induction boards generalizing position with
  | nil => cases h
  | cons board boards ih =>
    rw [lastNamed?, Option.or_eq_some_iff, Option.map_eq_some_iff] at h
    rcases h with ⟨later, found, rfl⟩ | ⟨-, here⟩
    · exact Nat.succ_lt_succ (ih found)
    · split at here <;> cases here
      exact Nat.succ_pos _

theorem lastNamed?_eq_none_iff {name : String} {boards : List Board} :
    lastNamed? name boards = none ↔ ∀ board ∈ boards, board.isNamed name = false := by
  induction boards with
  | nil => simp [lastNamed?]
  | cons board boards ih => simp [lastNamed?, ih, and_comm]

end Board

namespace Catalog

section

variable (catalog : Catalog)

theorem entries_registerAll (kind : BoardKind) (boards : List Board) :
    (catalog.registerAll kind boards).1.entries =
      catalog.entries ++ (boards.map fun board => Entry.mk (board.ofKind kind) none).toArray := by
  induction boards generalizing catalog with
  | nil => simp [registerAll]
  | cons board boards ih =>
    simp only [registerAll]
    rw [ih]
    cases kind <;> simp [register, Board.ofKind]

theorem size_registerAll (kind : BoardKind) (boards : List Board) :
    (catalog.registerAll kind boards).1.entries.size = catalog.entries.size + boards.length := by
  simp [entries_registerAll]

theorem board?_registerAll (kind : BoardKind) (boards : List Board) (id : Nat) :
    (catalog.registerAll kind boards).1.board? id =
      if id < catalog.entries.size then catalog.board? id
      else boards[id - catalog.entries.size]?.map (·.ofKind kind) := by
  rw [board?, entries_registerAll, Array.getElem?_append]
  split
  · rfl
  · simp [Function.comp_def]

theorem find?_register_eq (kind : BoardKind) (board : Board) (kind' : BoardKind) (name : String) :
    (catalog.register kind board).1.find? kind' name =
      (if kind' = kind ∧ board.isNamed name then some catalog.entries.size else none).or
        (catalog.find? kind' name) := by
  cases kind <;> cases kind' <;> simp only [find?, registry, register]
  case board.wing | wing.board => simp
  all_goals
    rw [Registry.find?_insert]
    cases named : board.names.any (sameName · name) <;> simp [Board.isNamed, named]

theorem find?_registerAll (kind : BoardKind) (boards : List Board) (kind' : BoardKind)
    (name : String) :
    (catalog.registerAll kind boards).1.find? kind' name =
      (if kind' = kind then (Board.lastNamed? name boards).map (catalog.entries.size + ·)
        else none).or (catalog.find? kind' name) := by
  induction boards generalizing catalog with
  | nil => simp [registerAll, Board.lastNamed?]
  | cons board boards ih =>
    simp only [registerAll]
    rw [ih, size_register, find?_register_eq, Board.lastNamed?]
    by_cases own : kind' = kind
    · cases Board.lastNamed? name boards with
      | none => cases board.isNamed name <;> simp [own]
      | some position => simp [own, Nat.add_assoc, Nat.add_comm 1]
    · simp [own]

theorem resolvedParent?_link : catalog.link.1.resolvedParent? = catalog.resolvedParent? := by
  funext id
  rw [resolvedParent?, board?_link]
  rfl

theorem link_link : catalog.link.1.link.1 = catalog.link.1 := by
  rw [← link_unlinked, unlinked_link, link_unlinked]

/-- Linking anew cuts the same cycles again. -/
theorem link_link_snd : catalog.link.1.link.2 = catalog.link.2 := by
  have same : catalog.link.1.resolved = catalog.resolved := by
    rw [← resolved_unlinked, unlinked_link, resolved_unlinked]
  exact congrArg (fun parents => (cutCycles parents).2) same

theorem parent?_link (id : BoardId) :
    catalog.link.1.parent? id = if id ∈ catalog.link.2 then none else catalog.resolvedParent? id := by
  rw [link_fst, parent?_setParents catalog catalog.size_cutCycles_resolved]
  exact (cutCycles_cuts catalog.join_resolved).1 id

theorem link_snd_eq_nil_iff :
    catalog.link.2 = [] ↔ ∀ id, ¬ OnCycle catalog.resolvedParent? id := by
  obtain ⟨-, -, onCycle, once⟩ := cutCycles_cuts catalog.join_resolved
  constructor
  · intro nothing id cycle
    obtain ⟨other, ⟨member, -⟩, -⟩ := once id cycle
    exact List.ne_nil_of_mem member nothing
  · exact fun acyclic => List.eq_nil_iff_forall_not_mem.2 fun id member =>
      acyclic id (onCycle id member)

/-- A load succeeds unless a cycle was cut, and reports the boards at which one was. -/
theorem load_cases (kind : BoardKind) (source : String) :
    let reading := Definition.read source
    let registered := catalog.registerAll kind reading.boards
    registered.1.link.2 = [] ∧ (catalog.load kind source).2 = .ok ⟨registered.2, reading.fault⟩ ∨
      registered.1.link.2 ≠ [] ∧ ∃ error, (catalog.load kind source).2 = .error error ∧
        error.names = registered.1.link.2.map fun id => (registered.1.board id).primaryName := by
  have names (catalog : Catalog) (id : BoardId) : catalog.link.1.board id = catalog.board id := by
    rw [board, board?_link, board]
  simp only [load_snd]
  generalize catalog.registerAll kind (Definition.read source).boards = registered
  cases registered.1.link.2 with
  | nil => exact .inl ⟨rfl, rfl⟩
  | cons id cut =>
    refine .inr ⟨List.cons_ne_nil id cut, ?_⟩
    cases (Definition.read source).fault <;> exact ⟨_, rfl, by simp [CatalogError.names, names]⟩

theorem load_isOk_iff (kind : BoardKind) (source : String) :
    (∃ summary, (catalog.load kind source).2 = .ok summary) ↔
      (catalog.registerAll kind (Definition.read source).boards).1.link.2 = [] := by
  rcases catalog.load_cases kind source with ⟨nothing, ok⟩ | ⟨cut, error, failed, -⟩
  · exact iff_of_true ⟨_, ok⟩ nothing
  · refine iff_of_false ?_ cut
    rintro ⟨summary, ok⟩
    cases failed.symm.trans ok

end

structure Load where
  kind : BoardKind
  source : String
deriving Repr, DecidableEq

/-- What texts make of an empty catalog, loaded one after the other, whatever comes of each. -/
def loaded (loads : List Load) : Catalog :=
  after (loads.map fun load => .load load.kind load.source)

theorem loaded_concat (loads : List Load) (load : Load) :
    loaded (loads ++ [load]) = ((loaded loads).load load.kind load.source).1 := by
  simp [loaded, after, apply]

theorem sound_loaded (loads : List Load) : Sound (loaded loads) :=
  sound_after _

/-- A catalog that is loaded is linked. -/
theorem link_loaded (loads : List Load) : (loaded loads).link.1 = loaded loads := by
  rcases List.eq_nil_or_concat loads with rfl | ⟨earlier, load, rfl⟩
  · simp [loaded, after, link_fst, setParents]
  · rw [List.concat_eq_append, loaded_concat, load_fst, link_link]

def Bare (catalog : Catalog) : Prop :=
  ∀ id, ∀ board ∈ catalog.board? id, board.Bare

theorem Bare.load {catalog : Catalog} (bare : catalog.Bare) (kind : BoardKind) (source : String) :
    (catalog.load kind source).1.Bare := by
  intro id board here
  rw [load_fst, board?_link, board?_registerAll] at here
  split at here
  · exact bare id board here
  · obtain ⟨read, member, rfl⟩ := Option.map_eq_some_iff.1 here
    have own := Definition.bare_read source read (List.mem_of_getElem? member)
    cases kind <;> exact own

theorem bare_loaded (loads : List Load) : (loaded loads).Bare := by
  induction loads using List.reverseRecOn with
  | nil => exact nofun
  | append_singleton loads load ih =>
    rw [loaded_concat]
    exact ih.load load.kind load.source

end Catalog

end Pinout
