import DraftDesk.Forms
import DraftDesk.Proofs.ToggleBranches

/-!
# Edits of a draft form

`Edit` is anything that can be done to the text field of a draft form, with whatever selections,
texts and servers. Each edit leaves the selection in order and inside the text, since whatever
selects something brings the selection down to the text it selects in.
-/

namespace DraftDesk
open DraftDesk.Units

/-- Something done to the text field of a draft form. -/
inductive Edit where
  | select (selection : Selection)
  | insert (typed : String)
  | style (style : Style)
  | delimiters (delimiters : Delimiters)
  | replace (text : String) (selection : Selection)
  | notify
  | markClean
  /-- Loads a draft over a transport of its own, so that any reply may come. -/
  | load (transport : Transport Id) (chosen : Option String)

namespace DraftForm

/-- The draft that the server gives for a choice. -/
def loaded? (transport : Transport Id) (chosen : Option String) : Option Draft :=
  match chosen with
  | none => none
  | some id =>
    match Id.run (fetchDraft transport id) with
    | .ok draft => some draft
    | .error _ => none

/-- Does something to the text field of a form. -/
def edit (form : DraftForm) : Edit → DraftForm
  | .select selection => { form with editor := form.editor.select selection }
  | .insert typed => { form with editor := form.editor.insert typed }
  | .style style => { form with editor := (TextSurface.applyStyle style form.editor).2 }
  | .delimiters delimiters =>
    { form with editor := (TextSurface.applyDelimiters delimiters form.editor).2 }
  | .replace text selection => { form with editor := form.editor.replace text selection }
  | .notify => { form with editor := form.editor.notify }
  | .markClean => { form with editor := form.editor.markClean }
  | .load transport chosen => (Id.run (form.load transport chosen)).2

def edits (form : DraftForm) (es : List Edit) : DraftForm := es.foldl edit form

theorem edit_load (form : DraftForm) (transport : Transport Id) (chosen : Option String) :
    form.edit (.load transport chosen) = ((loaded? transport chosen).map form.fill).getD form := by
  cases chosen with
  | none => rfl
  | some id =>
    simp only [edit, load, loaded?, Id.run_bind]
    cases Id.run (fetchDraft transport id) <;> rfl

end DraftForm

/-! ## Selections inside a text -/

namespace Buffer

/-- The selection is in order and inside the text. -/
structure InRange (b : Buffer) : Prop where
  ordered : b.selection.start ≤ b.selection.stop
  inside : b.selection.stop ≤ b.length

theorem applyDelimiters_some {b : Buffer} {delimiters : Delimiters} {result : Toggled}
    (applied : toggle b.text b.selection delimiters = some result) :
    TextSurface.applyDelimiters delimiters b =
      (true, ⟨result.text, result.selection, true, b.revision + 1⟩) := by
  have kept := Toggle.clamp_selection applied
  rw [TextSurface.applyDelimiters_some applied]
  simp only [TextSurface.replace, TextSurface.notify, replace, notify, kept]

/-! ## What every edit keeps -/

theorem inRange_ofText (text : String) : (ofText text).InRange :=
  ⟨Nat.le_refl 0, Nat.zero_le _⟩

theorem inRange_select (selection : Selection) (b : Buffer) : (b.select selection).InRange :=
  ⟨Selection.start_clamp_le_stop .., Selection.stop_clamp_le ..⟩

theorem inRange_replace (text : String) (selection : Selection) (b : Buffer) :
    (b.replace text selection).InRange :=
  ⟨Selection.start_clamp_le_stop .., Selection.stop_clamp_le ..⟩

theorem inRange_insert (typed : String) (b : Buffer) : (b.insert typed).InRange := by
  refine ⟨Nat.le_refl _, ?_⟩
  simp only [insert, notify, length, Selection.caret, String.toList_ofList, total_append]
  omega

theorem InRange.notify {b : Buffer} (h : b.InRange) : b.notify.InRange := ⟨h.ordered, h.inside⟩

theorem InRange.markClean {b : Buffer} (h : b.InRange) : b.markClean.InRange :=
  ⟨h.ordered, h.inside⟩

theorem InRange.applyDelimiters {b : Buffer} (h : b.InRange) (delimiters : Delimiters) :
    (TextSurface.applyDelimiters delimiters b).2.InRange := by
  cases toggled : toggle b.text b.selection delimiters with
  | none => rwa [TextSurface.applyDelimiters_none toggled]
  | some result =>
    rw [TextSurface.applyDelimiters_some toggled]
    exact (inRange_replace result.text result.selection b).notify

end Buffer

namespace DraftForm

theorem inRange_edit {form : DraftForm} (h : form.editor.InRange) (e : Edit) :
    (form.edit e).editor.InRange := by
  cases e with
  | select selection => exact form.editor.inRange_select selection
  | insert typed => exact form.editor.inRange_insert typed
  | style style => exact h.applyDelimiters style.delimiters
  | delimiters delimiters => exact h.applyDelimiters delimiters
  | replace text selection => exact form.editor.inRange_replace text selection
  | notify => exact h.notify
  | markClean => exact h.markClean
  | load transport chosen =>
    rw [edit_load]
    cases loaded? transport chosen with
    | none => exact h
    | some draft => exact (form.editor.inRange_replace draft.content (.caret 0)).notify

end DraftForm

end DraftDesk
