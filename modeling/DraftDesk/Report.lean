import DraftDesk.Json
import DraftDesk.Toggle

/-!
# Toggle reports

What is told about a toggle: its result, or the input as it was given where nothing was selected.
-/

namespace DraftDesk

def Selection.toJson (s : Selection) : Json :=
  .record [("start", .nat s.start), ("end", .nat s.stop), ("direction", .text s.direction.name)]

/-- What is told about a toggle; there is no change where nothing was selected. -/
structure Report where
  text : String
  selection : Selection
  change : Option Change
  deriving DecidableEq, Repr

namespace Report

/-- The report on a toggle of a text at a selection. -/
def ofToggle (text : String) (selection : Selection) : Option Toggled → Report
  | some toggled => ⟨toggled.text, toggled.selection, some toggled.change⟩
  | none => ⟨text, selection, none⟩

def toJson (r : Report) : Json :=
  .record [
    ("text", .text r.text),
    ("selection", r.selection.toJson),
    ("change", match r.change with
      | some change => .text change.name
      | none => .null)]

end Report

end DraftDesk
