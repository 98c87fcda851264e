import DraftDesk.Toggle

/-!
# Text surfaces

A text surface is anything that holds a text and a selection: the toolbar reads both, toggles and
puts the result back. `PlainField` is the simplest one, a field that keeps what it is given and
logs what is asked of it.
-/

namespace DraftDesk

/-- What the toolbar needs of an input field. -/
class TextSurface (σ : Type) where
  text : σ → String
  selection : σ → Selection
  /-- Puts a text and a selection in place of the present ones. -/
  replace : String → Selection → σ → σ
  /-- Tells the views that depend on the field that its content has changed. -/
  notify : σ → σ

namespace TextSurface

variable {σ : Type} [TextSurface σ]

/-- Toggles delimiters at the selection; tells whether anything changed. -/
def applyDelimiters (delimiters : Delimiters) (surface : σ) : Bool × σ :=
  match toggle (text surface) (selection surface) delimiters with
  | some toggled => (true, notify (replace toggled.text toggled.selection surface))
  | none => (false, surface)

/-- Toggles a style at the selection; tells whether anything changed. -/
def applyStyle (style : Style) (surface : σ) : Bool × σ :=
  applyDelimiters style.delimiters surface

theorem applyDelimiters_some {surface : σ} {delimiters : Delimiters} {result : Toggled}
    (applied : toggle (text surface) (selection surface) delimiters = some result) :
    applyDelimiters delimiters surface =
      (true, notify (replace result.text result.selection surface)) := by
  rw [applyDelimiters, applied]

theorem applyDelimiters_none {surface : σ} {delimiters : Delimiters}
    (kept : toggle (text surface) (selection surface) delimiters = none) :
    applyDelimiters delimiters surface = (false, surface) := by
  rw [applyDelimiters, kept]

end TextSurface

/-! ## Plain fields -/

/-- What was asked of a field. -/
inductive FieldCall where
  | replace
  | notify
  deriving DecidableEq, Repr

/-- A field that keeps text and selection as given. -/
structure PlainField where
  text : String
  selection : Selection
  /-- The calls so far, in order. -/
  calls : List FieldCall := []
  deriving DecidableEq, Repr

instance : TextSurface PlainField where
  text := PlainField.text
  selection := PlainField.selection
  replace text selection field := ⟨text, selection, field.calls ++ [.replace]⟩
  notify field := { field with calls := field.calls ++ [.notify] }

end DraftDesk
