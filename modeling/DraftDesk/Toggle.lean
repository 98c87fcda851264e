import DraftDesk.Selection
import DraftDesk.Style
import DraftDesk.Units

/-!
# The formatting toggle

`toggle` puts a pair of delimiters around the selected part of a text, or takes the pair away
when the part already carries it. A part that carries only one of the two loses that one.

A part that begins with the opening and ends with the closing delimiter may be shorter than both
together. What is left of it is then the text between the end of the opening and the start of the
closing delimiter, in whichever order the two fall, and the end of the selection, which counts
both delimiters as gone, may come before its start; the start then follows it down.
-/

namespace DraftDesk

/-- What a toggle did. -/
inductive Change where
  /-- Both delimiters were there and are gone. -/
  | unwrapped
  /-- Only the opening delimiter was there and is gone. -/
  | strippedOpening
  /-- Only the closing delimiter was there and is gone. -/
  | strippedClosing
  /-- Neither was there; both are now. -/
  | wrapped
  deriving DecidableEq, Repr, Inhabited

def Change.name : Change → String
  | .unwrapped => "unwrapped"
  | .strippedOpening => "stripped_prefix"
  | .strippedClosing => "stripped_suffix"
  | .wrapped => "wrapped"

/-! ## The selected part -/

/-- A text cut at the bounds of a selection. -/
structure Cut where
  left : List Char
  middle : List Char
  right : List Char
  deriving DecidableEq, Repr

/-- Cuts a text at two offsets; a second offset below the first counts as the first. -/
def Cut.at (text : List Char) (start stop : Nat) : Cut :=
  let left := Units.fit start text
  let after := Units.beyond start text
  let reach := max start stop - Units.total left
  ⟨left, Units.fit reach after, Units.beyond reach after⟩

@[simp] theorem Cut.append_at (text : List Char) (start stop : Nat) :
    (Cut.at text start stop).left ++ (Cut.at text start stop).middle ++
      (Cut.at text start stop).right = text := by
  simp [Cut.at]

/-! ## The toggle -/

namespace Toggle

/-- The items between two positions, taken in ascending order. -/
def span {α : Type} (items : List α) (a b : Nat) : List α :=
  (items.take (max a b)).drop (min a b)

/-- What takes the place of the selected part. -/
structure Replacement where
  change : Change
  content : List Char
  /-- The end of the new selection. -/
  stop : Nat
  deriving DecidableEq, Repr

/-- What becomes of a selected part that ends at an offset. -/
def replacement (opening closing middle : List Char) (stop : Nat) : Replacement :=
  match opening.isPrefixOf middle, closing.isSuffixOf middle with
  | true, true =>
    ⟨.unwrapped, span middle opening.length (middle.length - closing.length),
      stop - (Units.total opening + Units.total closing)⟩
  | true, false => ⟨.strippedOpening, middle.drop opening.length, stop - Units.total opening⟩
  | false, true =>
    ⟨.strippedClosing, middle.take (middle.length - closing.length), stop - Units.total closing⟩
  | false, false =>
    ⟨.wrapped, opening ++ middle ++ closing, stop + Units.total opening + Units.total closing⟩

end Toggle

/-- The result of a toggle that changed something. -/
structure Toggled where
  text : String
  selection : Selection
  change : Change
  deriving DecidableEq, Repr

/-- Toggles delimiters around the selected part of a text; `none` if nothing is selected. -/
def toggle (text : String) (selection : Selection) (delimiters : Delimiters) : Option Toggled :=
  if selection.isActive then
    let cut := Cut.at text.toList selection.start selection.stop
    let start := Units.total cut.left
    let new := Toggle.replacement delimiters.opening.toList delimiters.closing.toList cut.middle
      (start + Units.total cut.middle)
    some {
      text := String.ofList (cut.left ++ new.content ++ cut.right)
      selection := .forward (min start new.stop) new.stop
      change := new.change }
  else none

/-- Nothing is done exactly where nothing is selected. -/
theorem toggle_eq_none_iff {text : String} {selection : Selection} {delimiters : Delimiters} :
    toggle text selection delimiters = none ↔ selection.direction = .inactive := by
  simp [toggle, Selection.isActive]

end DraftDesk
