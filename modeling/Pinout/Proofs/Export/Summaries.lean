import Pinout.Export.Basic
import Pinout.Proofs.Export.Json

/-! # Summaries read back

The JSON text of some summaries says all about them: read as JSON, with fields found by their names
and additions that are not mentioned taken for none, it gives the same summaries again. So no two
lists of summaries have one text.
-/

namespace Pinout.Export

namespace Json.Value

def mentions (name : String) : Value → List Value
  | .record fields => (fields.filter (·.1 == name)).map (·.2)
  | _ => []

def field? (name : String) (value : Value) : Option Value :=
  match value.mentions name with
  | [value] => some value
  | _ => none

def text? : Value → Option String
  | .text value => some value
  | _ => none

def optional? : Value → Option (Option String)
  | .null => some none
  | .text value => some (some value)
  | _ => none

def truth? : Value → Option Bool
  | .truth value => some value
  | _ => none

def listOf? {α : Type} (item? : Value → Option α) : Value → Option (List α)
  | .list items => items.mapM item?
  | _ => none

end Json.Value

open Json (Value valueOf)

def assignmentOf? : Value → Option Assignment
  | .list [key, value] => do return (← key.text?, ← value.optional?)
  | _ => none

def PinSummary.ofValue? (value : Value) : Option PinSummary := do
  let canonical ← (← value.field? "canonical").text?
  let net ← (← value.field? "net").optional?
  let physical ← (← value.field? "physical").optional?
  let additions ←
    match value.mentions "additions" with
    | [] => some []
    | _ => (← value.field? "additions").listOf? assignmentOf?
  return { canonical, net, physical, additions }

def BusSummary.ofValue? (value : Value) : Option BusSummary := do
  let name ← (← value.field? "name").text?
  let board ← (← value.field? "board").text?
  let pins ← (← value.field? "pins").listOf? PinSummary.ofValue?
  return { name, board, pins }

def BoardSummary.ofValue? (value : Value) : Option BoardSummary := do
  let names ← (← value.field? "names").listOf? Value.text?
  let parent ← (← value.field? "parent").optional?
  let wing ← (← value.field? "wing").truth?
  let header ← (← value.field? "header").optional?
  let configs ← (← value.field? "configs").listOf? assignmentOf?
  let buses ← (← value.field? "buses").listOf? BusSummary.ofValue?
  return { names, parent, wing, header, configs, buses }

def readSummaries? (text : String) : Option (List BoardSummary) :=
  (Json.read? text).bind (·.listOf? BoardSummary.ofValue?)

/-- A list is read back if every item is. -/
theorem listOf?_map {α : Type} {document : α → Document} {item? : Value → Option α}
    (back : ∀ a, item? (valueOf (document a)) = some a) (as : List α) :
    (Value.list (Json.valuesOf (as.map document))).listOf? item? = some as := by
  rw [Value.listOf?]
  induction as with
  | nil => rfl
  | cons a as ih => rw [List.map_cons, Json.valuesOf, List.mapM_cons, back, ih]; rfl

theorem listOf?_strings (values : List String) :
    (valueOf (.ofStrings values)).listOf? Value.text? = some values :=
  listOf?_map (fun _ => rfl) values

theorem optional?_ofOption (value : Option String) :
    (valueOf (.ofOption value)).optional? = some value := by
  cases value <;> rfl

theorem assignmentOf?_document (assignment : Assignment) :
    assignmentOf? (valueOf (assignmentDocument assignment)) = some assignment := by
  simp [assignmentDocument, valueOf, Json.valuesOf, assignmentOf?, Value.text?, optional?_ofOption]

theorem listOf?_assignments (assignments : List Assignment) :
    (valueOf (assignmentsDocument assignments)).listOf? assignmentOf? = some assignments :=
  listOf?_map assignmentOf?_document assignments

theorem PinSummary.ofValue?_toDocument (pin : PinSummary) :
    ofValue? (valueOf pin.toDocument) = some pin := by
  obtain ⟨canonical, net, physical, additions⟩ := pin
  cases additions <;>
    simp [toDocument, valueOf, Json.fieldsOf, ofValue?, Value.field?, Value.mentions, Value.text?,
      optional?_ofOption, listOf?_assignments]

theorem BusSummary.ofValue?_toDocument (bus : BusSummary) :
    ofValue? (valueOf bus.toDocument) = some bus := by
  simp [toDocument, valueOf, Json.fieldsOf, ofValue?, Value.field?, Value.mentions, Value.text?,
    listOf?_map PinSummary.ofValue?_toDocument]

theorem BoardSummary.ofValue?_toDocument (board : BoardSummary) :
    ofValue? (valueOf board.toDocument) = some board := by
  simp [toDocument, valueOf, Json.fieldsOf, ofValue?, Value.field?, Value.mentions, Value.truth?,
    optional?_ofOption, listOf?_strings, listOf?_assignments,
    listOf?_map BusSummary.ofValue?_toDocument]

/-- Whatever texts, absent values and additions there are in some summaries, their JSON text is read
back as these summaries. -/
theorem readSummaries?_render (summaries : List BoardSummary) :
    readSummaries? (render .json summaries) = some summaries := by
  rw [readSummaries?, render, Json.read?_render, Option.bind_some, valueOf]
  exact listOf?_map BoardSummary.ofValue?_toDocument summaries

end Pinout.Export
