import DraftDesk.Proofs.BufferEdits
import DraftDesk.Proofs.Ropes

/-!
# Buffers on ropes

A buffer that keeps its text in a rope turns its selection into positions for every edit, and the
rope refuses positions that are out of order or past the end. `RopeBuffer.view` is the buffer it
stands for. As long as the selection is in order and inside the text nothing is refused and every
edit is that of the view; and every edit leaves the selection so.
-/

namespace DraftDesk
open DraftDesk.Units

/-- A buffer that keeps its text in a rope. -/
structure RopeBuffer (ρ : Type) where
  rope : ρ
  selection : Selection
  dirty : Bool
  revision : Nat

namespace RopeBuffer

variable {ρ : Type} [Rope ρ]

def ofText (text : String) : RopeBuffer ρ := ⟨Rope.ofText text, .caret 0, false, 0⟩

def text (b : RopeBuffer ρ) : String := Rope.text b.rope

/-- The selection as positions. -/
def range? (b : RopeBuffer ρ) : Option (Nat × Nat) := do
  let first ← Rope.position? b.rope b.selection.start
  let last ← Rope.position? b.rope b.selection.stop
  return (first, last)

def selectedText? (b : RopeBuffer ρ) : Option String := do
  let (first, last) ← b.range?
  Rope.slice? b.rope first last

def select (selection : Selection) (b : RopeBuffer ρ) : RopeBuffer ρ :=
  { b with selection := selection.clamp (Rope.length b.rope) }

def notify (b : RopeBuffer ρ) : RopeBuffer ρ := { b with revision := b.revision + 1 }

/-- Types a text over the selection and leaves the caret after it. -/
def insert? (typed : String) (b : RopeBuffer ρ) : Option (RopeBuffer ρ) := do
  let (first, last) ← b.range?
  let removed ← Rope.remove? b.rope first last
  let inserted ← Rope.insert? removed first typed
  let caret ← Rope.offset? inserted (first + typed.toList.length)
  return notify { b with rope := inserted, selection := .caret caret, dirty := true }

/-- Replaces text and selection without telling anyone. -/
def replace (text : String) (selection : Selection) (b : RopeBuffer ρ) : RopeBuffer ρ :=
  let rope : ρ := Rope.ofText text
  { b with rope, selection := selection.clamp (Rope.length rope), dirty := true }

def markClean (b : RopeBuffer ρ) : RopeBuffer ρ := { b with dirty := false }

instance : TextSurface (RopeBuffer ρ) where
  text := text
  selection := selection
  replace := replace
  notify := notify

/-- Does something to the buffer; `none` if the rope refuses a position. -/
def edit? (b : RopeBuffer ρ) : Edit → Option (RopeBuffer ρ)
  | .select selection => some (b.select selection)
  | .insert typed => b.insert? typed
  | .style style => some (TextSurface.applyStyle style b).2
  | .delimiters delimiters => some (TextSurface.applyDelimiters delimiters b).2
  | .replace text selection => some (b.replace text selection)
  | .notify => some b.notify
  | .markClean => some b.markClean
  | .load transport chosen =>
    match DraftForm.loaded? transport chosen with
    | some draft => some (b.replace draft.content (.caret 0)).notify
    | none => some b

def edits? (b : RopeBuffer ρ) (es : List Edit) : Option (RopeBuffer ρ) := es.foldlM edit? b

/-- The buffer that a buffer on a rope stands for. -/
def view (b : RopeBuffer ρ) : Buffer := ⟨b.text, b.selection, b.dirty, b.revision⟩

/-! ## What the view sees -/

theorem view_notify (b : RopeBuffer ρ) : b.notify.view = b.view.notify := rfl

theorem text_eq_cut (b : RopeBuffer ρ) :
    (Rope.text b.rope).toList = b.view.cut.left ++ b.view.cut.middle ++ b.view.cut.right :=
  (Cut.append_at ..).symm

variable [LawfulRope ρ]

theorem view_ofText (text : String) : (ofText text : RopeBuffer ρ).view = Buffer.ofText text := by
  rw [view, RopeBuffer.text, ofText, LawfulRope.text_ofText, Buffer.ofText]

theorem view_select (selection : Selection) (b : RopeBuffer ρ) :
    (b.select selection).view = b.view.select selection := by
  simp only [select, LawfulRope.length_eq]
  rfl

theorem view_replace (text : String) (selection : Selection) (b : RopeBuffer ρ) :
    (b.replace text selection).view = b.view.replace text selection := by
  simp only [replace, view, RopeBuffer.text, LawfulRope.length_eq, LawfulRope.text_ofText]
  rfl

theorem applyDelimiters_view (delimiters : Delimiters) (b : RopeBuffer ρ) :
    TextSurface.applyDelimiters delimiters b.view =
      ((TextSurface.applyDelimiters delimiters b).1, (TextSurface.applyDelimiters delimiters b).2.view) := by
  cases toggled : toggle b.text b.selection delimiters with
  | none =>
    have onRope : TextSurface.applyDelimiters delimiters b = (false, b) :=
      TextSurface.applyDelimiters_none toggled
    rw [onRope]
    exact TextSurface.applyDelimiters_none toggled
  | some result =>
    have onRope : TextSurface.applyDelimiters delimiters b =
        (true, (b.replace result.text result.selection).notify) :=
      TextSurface.applyDelimiters_some toggled
    have onView : TextSurface.applyDelimiters delimiters b.view =
        (true, (b.view.replace result.text result.selection).notify) :=
      TextSurface.applyDelimiters_some toggled
    rw [onRope, onView, view_notify, view_replace]

theorem view_applyDelimiters (delimiters : Delimiters) (b : RopeBuffer ρ) :
    (TextSurface.applyDelimiters delimiters b).2.view =
      (TextSurface.applyDelimiters delimiters b.view).2 :=
  (congrArg Prod.snd (applyDelimiters_view delimiters b)).symm

/-! ## Nothing is refused -/

variable {b : RopeBuffer ρ}

/-- The positions of the selection are the lengths of the parts in front of its two ends. -/
theorem range?_eq (inside : b.view.InRange) :
    b.range? = some (b.view.cut.left.length, (b.view.cut.left ++ b.view.cut.middle).length) := by
  have ordered : b.selection.start ≤ b.selection.stop := inside.ordered
  have stop : b.selection.stop ≤ total (Rope.text b.rope).toList := inside.inside
  have reached := Cut.left_append_middle_at (Rope.text b.rope).toList b.selection.start b.selection.stop
  rw [Nat.max_eq_right ordered] at reached
  rw [range?, Rope.position?_eq b.rope (Nat.le_trans ordered stop), Rope.position?_eq b.rope stop,
    ← reached, ← Cut.left_at (Rope.text b.rope).toList b.selection.start b.selection.stop]
  rfl

theorem selectedText?_eq (inside : b.view.InRange) :
    b.selectedText? = some b.view.selectedText := by
  rw [selectedText?, range?_eq inside]
  exact Rope.slice?_part (text_eq_cut b)

theorem exists_insert? (inside : b.view.InRange) (typed : String) :
    ∃ after, b.insert? typed = some after ∧ after.view = b.view.insert typed := by
  obtain ⟨removed, removal, rest⟩ := Rope.exists_remove?_part (text_eq_cut b)
  obtain ⟨inserted, insertion, whole⟩ := Rope.exists_insert?_between rest typed
  have caret := Rope.offset?_part whole
  rw [List.length_append] at caret
  have made : b.insert? typed = some (notify { b with
      rope := inserted
      selection := .caret (total (b.view.cut.left ++ typed.toList))
      dirty := true }) := by
    simp only [insert?, range?_eq inside, Option.bind_eq_bind, Option.bind_some, removal, insertion,
      caret]
    rfl
  have shown : Rope.text inserted =
      String.ofList (b.view.cut.left ++ typed.toList ++ b.view.cut.right) := by
    rw [← whole, String.ofList_toList]
  refine ⟨_, made, ?_⟩
  simp only [view, notify, RopeBuffer.text, shown]
  rfl

/-! ## Runs of edits -/

variable {form : DraftForm}

theorem exists_edit? (same : b.view = form.editor) (inside : form.editor.InRange) (e : Edit) :
    ∃ after, b.edit? e = some after ∧ after.view = (form.edit e).editor := by
  cases e with
  | select selection => exact ⟨_, rfl, by rw [view_select, same]; rfl⟩
  | insert typed =>
    obtain ⟨after, done, seen⟩ := exists_insert? (same ▸ inside) typed
    exact ⟨after, done, by rw [seen, same]; rfl⟩
  | style style => exact ⟨_, rfl, by rw [TextSurface.applyStyle, view_applyDelimiters, same]; rfl⟩
  | delimiters delimiters => exact ⟨_, rfl, by rw [view_applyDelimiters, same]; rfl⟩
  | replace text selection => exact ⟨_, rfl, by rw [view_replace, same]; rfl⟩
  | notify => exact ⟨_, rfl, by rw [view_notify, same]; rfl⟩
  | markClean => exact ⟨_, rfl, congrArg Buffer.markClean same⟩
  | load transport chosen =>
    rw [DraftForm.edit_load, edit?]
    cases DraftForm.loaded? transport chosen with
    | none => exact ⟨b, rfl, same⟩
    | some draft => exact ⟨_, rfl, by rw [view_notify, view_replace, same]; rfl⟩

theorem exists_edits? (same : b.view = form.editor) (inside : form.editor.InRange)
    (es : List Edit) :
    ∃ after, b.edits? es = some after ∧ after.view = (form.edits es).editor ∧ after.view.InRange := by
  -- The rope and the form go the same way; the range is what lets the rope take the next step.
  induction es generalizing b form with
  | nil => exact ⟨b, rfl, same, same ▸ inside⟩
  | cons e rest ih =>
    obtain ⟨next, done, seen⟩ := exists_edit? same inside e
    obtain ⟨after, finished, shown, kept⟩ := ih seen (DraftForm.inRange_edit inside e)
    refine ⟨after, ?_, shown, kept⟩
    rw [edits?, List.foldlM_cons, done]
    exact finished

/-- Whatever is done to a text field, its selection is in order and inside its text. On a rope, no
edit is ever refused a position, and neither is the next look at the selected text or the next text
typed over it. -/
theorem selection_stays_in_range (title text : String) (es : List Edit) :
    (DraftForm.edits ⟨title, .ofText text⟩ es).editor.InRange ∧
    ∃ b : RopeBuffer ρ, edits? (ofText text) es = some b ∧
      b.view = (DraftForm.edits ⟨title, .ofText text⟩ es).editor ∧
      (∃ first last, b.range? = some (first, last) ∧ first ≤ last ∧ last ≤ b.text.toList.length) ∧
      b.selectedText? = some b.view.selectedText ∧
      ∀ typed, ∃ after, b.insert? typed = some after ∧ after.view = b.view.insert typed := by
  have start : (ofText text : RopeBuffer ρ).view = (⟨title, .ofText text⟩ : DraftForm).editor :=
    view_ofText text
  obtain ⟨b, done, seen, inside⟩ := exists_edits? start (Buffer.inRange_ofText text) es
  refine ⟨seen ▸ inside, b, done, seen, ?_, selectedText?_eq inside, exists_insert? inside⟩
  refine ⟨_, _, range?_eq inside, ?_, ?_⟩
  · simp only [List.length_append]
    omega
  · have whole := congrArg List.length (text_eq_cut b)
    simp only [List.length_append] at whole ⊢
    rw [RopeBuffer.text]
    omega

theorem selection_stays_in_range_in_pair :
    LawfulRope String ∧
    let es : List Edit := [.select ⟨9, 2, .backward⟩, .style .bold, .insert "😀",
      .load (fun _ => .ok "[\"draft\",\"é😀\"]") (some "7"), .replace "😀a" ⟨2, 1, .forward⟩,
      .delimiters ⟨"", "a"⟩, .load (fun _ => .error "no route") (some "8"), .markClean]
    (DraftForm.edits ⟨"draft", .ofText "a😀b"⟩ es).editor.InRange ∧
    ∃ b : RopeBuffer String, edits? (ofText "a😀b") es = some b ∧
      b.view = (DraftForm.edits ⟨"draft", .ofText "a😀b"⟩ es).editor ∧
      (∃ first last, b.range? = some (first, last) ∧ first ≤ last ∧ last ≤ b.text.toList.length) ∧
      b.selectedText? = some b.view.selectedText ∧
      ∀ typed, ∃ after, b.insert? typed = some after ∧ after.view = b.view.insert typed :=
  ⟨inferInstance, selection_stays_in_range "draft" "a😀b" _⟩

end RopeBuffer

end DraftDesk
