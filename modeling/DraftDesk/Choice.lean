import DraftDesk.Selection
import DraftDesk.Style

/-!
# Choices by name

Styles and directions are chosen by their names, exactly or without regard to the case of ASCII
letters.
-/

namespace DraftDesk

/-- A text that names no choice. -/
structure UnknownChoice where
  text : String
  deriving DecidableEq, Repr

def UnknownChoice.message (e : UnknownChoice) : String := "invalid variant: " ++ e.text

namespace Choice

/-- The first of some choices whose name the text is. -/
def find {α : Type} (choices : List α) (name : α → String) (ignoreCase : Bool) (text : String) :
    Except UnknownChoice α :=
  let matched (choice : α) : Bool :=
    if ignoreCase then (name choice).toLower == text.toLower else name choice == text
  match choices.find? matched with
  | some choice => .ok choice
  | none => .error ⟨text⟩

end Choice

def Style.ofName (text : String) (ignoreCase : Bool) : Except UnknownChoice Style :=
  Choice.find Style.all Style.name ignoreCase text

def Direction.ofName (text : String) (ignoreCase : Bool) : Except UnknownChoice Direction :=
  Choice.find Direction.all Direction.name ignoreCase text

end DraftDesk
