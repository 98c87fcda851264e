import DraftDesk.Decimal
import DraftDesk.Lines
import DraftDesk.TextSurface

/-!
# Editor buffers

A buffer is the text field of the editor. It brings every selection down to the length of its
text, knows whether its text was changed since it was last clean, and counts how often the views
that depend on it were told of a change.
-/

namespace DraftDesk

structure Buffer where
  text : String
  selection : Selection
  dirty : Bool
  /-- The number of notifications so far. -/
  revision : Nat
  deriving DecidableEq, Repr

namespace Buffer

/-- A clean buffer with the caret at the start. -/
def ofText (text : String) : Buffer := ⟨text, .caret 0, false, 0⟩

def empty : Buffer := ofText ""

instance : Inhabited Buffer := ⟨empty⟩

/-- The length of the text in UTF-16 units. -/
def length (b : Buffer) : Nat := Units.total b.text.toList

/-- The text cut at the selection. -/
def cut (b : Buffer) : Cut := Cut.at b.text.toList b.selection.start b.selection.stop

def selectedText (b : Buffer) : String := String.ofList b.cut.middle

/-! ## Edits -/

def select (selection : Selection) (b : Buffer) : Buffer :=
  { b with selection := selection.clamp b.length }

def notify (b : Buffer) : Buffer := { b with revision := b.revision + 1 }

/-- Types a text over the selection and leaves the caret after it. -/
def insert (typed : String) (b : Buffer) : Buffer :=
  let before := b.cut.left ++ typed.toList
  notify { b with
    text := String.ofList (before ++ b.cut.right)
    selection := .caret (Units.total before)
    dirty := true }

/-- Replaces text and selection without telling anyone. -/
def replace (text : String) (selection : Selection) (b : Buffer) : Buffer :=
  { b with text, selection := selection.clamp (Units.total text.toList), dirty := true }

def markClean (b : Buffer) : Buffer := { b with dirty := false }

instance : TextSurface Buffer where
  text := text
  selection := selection
  replace := replace
  notify := notify

/-! ## Lines -/

def lines (b : Buffer) : List Line := Line.split b.text.toList

def lineCount (b : Buffer) : Nat := b.lines.length

/-- The content of a line, counted from 0. -/
def line? (b : Buffer) (index : Nat) : Option String :=
  b.lines[index]?.map fun line => String.ofList line.content

/-! ## Description -/

def describeDirection : Direction → String
  | .forward => "Forward"
  | .backward => "Backward"
  | .inactive => "None"

/-- A description of the state, without the text. -/
def describe (b : Buffer) : String :=
  "EditorBuffer \x7b rope: Rope(" ++ Decimal.text b.lineCount ++
    " lines), selection: Selection \x7b start: " ++ Decimal.text b.selection.start ++
    ", end: " ++ Decimal.text b.selection.stop ++
    ", direction: " ++ describeDirection b.selection.direction ++
    " \x7d, dirty: " ++ (if b.dirty then "true" else "false") ++
    ", revision: " ++ Decimal.text b.revision ++ " \x7d"

end Buffer

end DraftDesk
