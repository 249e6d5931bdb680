import Pinout.Constraint.Selection
import Pinout.Proofs.Constraint.Validation
import Pinout.Proofs.Fallible
import Pinout.Proofs.First

/-! # What constraints read off the wiring

Which lines of a file are wrong, and which pins a filter chooses, depends on the wiring of a catalog
and not on what is stacked in it.
-/

namespace Pinout.Constraint

variable (catalog : Catalog)

theorem validate_wired (board : BoardId) (text : String) :
    validate catalog.wired board text = validate catalog board text := by
  simp only [validate_eq_reports, Catalog.physicalNames_eq, Catalog.wirings_wired]

namespace PinFilter

def Mention.wired (mention : Mention) : Mention :=
  { mention with bus := mention.bus.wired }

theorem mention?_wired (board : BoardId) (entry : String) :
    mention? (catalog.wired.busesByName board) entry =
      (mention? (catalog.busesByName board) entry).map (Option.map Mention.wired) := by
  simp only [mention?, Catalog.find?_busesByName, Catalog.busNamed?_wired]
  cases catalog.busNamed? board entry with
  | some bus => rfl
  | none =>
    cases BusRange.parse entry with
    | error error => rfl
    | ok range =>
      change Except.ok (Option.map _ ((catalog.busNamed? board range.name).map BusView.wired)) =
        Except.ok (Option.map Mention.wired (Option.map _ (catalog.busNamed? board range.name)))
      cases catalog.busNamed? board range.name <;> rfl

/-- Whether a mention covers a position can be read off its wiring. -/
def Mention.meets (mention : Mention) (position : Wiring) : Bool :=
  mention.bus.ref = position.ref.bus &&
    match mention.names with
    | none => true
    | some names => names.contains (Text.lower position.canonicalName)

theorem map_filter_covers (mentions : List Mention) (views : List PinView) :
    (views.filter fun view => mentions.any (·.covers view)).map PinView.wiring =
      (views.map PinView.wiring).filter fun position => mentions.any (·.meets position) := by
  rw [List.filter_map]
  rfl

theorem mentioned_wired (mentions : List Mention) :
    (mentioned catalog.wired (mentions.map Mention.wired)).map PinView.wiring =
      (mentioned catalog mentions).map PinView.wiring := by
  have buses : (mentions.map Mention.wired).map (·.bus) =
      (mentions.map (·.bus)).map BusView.wired := by
    rw [List.map_map, List.map_map]
    rfl
  have chosen (bus : BusView) :
      ((catalog.wired.pinsOf bus.wired).filter fun view =>
          (mentions.map Mention.wired).any (·.covers view)).map PinView.wiring =
        ((catalog.pinsOf bus).filter fun view => mentions.any (·.covers view)).map
          PinView.wiring := by
    rw [map_filter_covers, map_filter_covers, catalog.wirings_pinsOf catalog.wired bus]
    simp only [List.any_map]
    rfl
  simp only [mentioned]
  rw [buses, eraseDupsBy_map, List.map_flatMap, List.map_flatMap, List.flatMap_map]
  simp only [chosen]
  rfl

theorem select_wired (board : BoardId) (filter : PinFilter) :
    (select catalog.wired board filter).map (List.map PinView.wiring) =
      (select catalog board filter).map (List.map PinView.wiring) := by
  cases filter with
  | all => exact congrArg Except.ok (catalog.wirings_wired board)
  | only entries =>
    simp only [select, funext (mention?_wired catalog board), mapM_map]
    cases entries.mapM (mention? (catalog.busesByName board)) with
    | error error => rfl
    | ok mentions =>
      have chosen : (mentions.map (Option.map Mention.wired)).filterMap id =
          (mentions.filterMap id).map Mention.wired := by
        rw [List.filterMap_map, List.map_filterMap]
        rfl
      change Except.ok (List.map _ (mentioned catalog.wired
        ((mentions.map (Option.map Mention.wired)).filterMap id))) = Except.ok _
      rw [chosen, mentioned_wired]

end PinFilter

end Pinout.Constraint
