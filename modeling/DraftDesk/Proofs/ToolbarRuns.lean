import DraftDesk.Proofs.BufferEdits

/-!
# Runs of toggles

Pairs of delimiters toggled one after another on a surface. A toggle cannot tell an offset past the
end of the text from the end, and what it selects lies inside the new text. A field that keeps
every selection as it is given and a buffer, which brings it down to its text, therefore answer
alike and show the same text all along.
-/

namespace DraftDesk
open DraftDesk.Units

namespace TextSurface

variable {σ : Type} [TextSurface σ]

/-- Toggles pairs of delimiters one after another; tells of each whether anything changed. -/
def applyAll : List Delimiters → σ → List Bool × σ
  | [], surface => ([], surface)
  | delimiters :: rest, surface =>
    let (applied, next) := applyDelimiters delimiters surface
    let (answers, last) := applyAll rest next
    (applied :: answers, last)

theorem applyAll_cons (delimiters : Delimiters) (rest : List Delimiters) (surface : σ) :
    applyAll (delimiters :: rest) surface =
      ((applyDelimiters delimiters surface).1 ::
          (applyAll rest (applyDelimiters delimiters surface).2).1,
        (applyAll rest (applyDelimiters delimiters surface).2).2) :=
  rfl

theorem applyAll_append (first second : List Delimiters) (surface : σ) :
    applyAll (first ++ second) surface =
      ((applyAll first surface).1 ++ (applyAll second (applyAll first surface).2).1,
        (applyAll second (applyAll first surface).2).2) := by
  induction first generalizing surface with
  | nil => rfl
  | cons delimiters rest ih => simp only [List.cons_append, applyAll_cons, ih]

end TextSurface

/-! ## A buffer beside a plain field -/

/-- What a toggle asks of a field. -/
def callsFor (applied : Bool) : List FieldCall := if applied then [.replace, .notify] else []

theorem PlainField.applyDelimiters_some {field : PlainField} {delimiters : Delimiters}
    {result : Toggled} (applied : toggle field.text field.selection delimiters = some result) :
    TextSurface.applyDelimiters delimiters field =
      (true, ⟨result.text, result.selection, field.calls ++ callsFor true⟩) := by
  rw [TextSurface.applyDelimiters_some applied]
  simp [TextSurface.replace, TextSurface.notify, callsFor]

/-- A buffer and a field show the same text, and the buffer has brought the selection of the field
down to it. -/
structure Alike (buffer : Buffer) (field : PlainField) : Prop where
  text : buffer.text = field.text
  ordered : field.selection.start ≤ field.selection.stop
  selection : buffer.selection = field.selection.clamp (total field.text.toList)

/-- Toggles that gave `answers` have done the same to a buffer and a field. -/
structure SameEffect (answers : List Bool) (buffer buffer' : Buffer) (field field' : PlainField) :
    Prop where
  alike : Alike buffer' field'
  /-- Once something was applied the buffer has nothing left to bring down. -/
  selection : buffer.selection = field.selection ∨ true ∈ answers →
    buffer'.selection = field'.selection
  calls : field'.calls = field.calls ++ answers.flatMap callsFor

namespace SameEffect

variable {buffer buffer' buffer'' : Buffer} {field field' field'' : PlainField}
  {first second : List Bool}

theorem refl (h : Alike buffer field) : SameEffect [] buffer buffer field field where
  alike := h
  selection := by simp
  calls := by simp

theorem trans (h : SameEffect first buffer buffer' field field')
    (later : SameEffect second buffer' buffer'' field' field'') :
    SameEffect (first ++ second) buffer buffer'' field field'' where
  alike := later.alike
  selection := by
    intro settled
    apply later.selection
    rw [List.mem_append, ← or_assoc] at settled
    exact settled.imp_left h.selection
  calls := by
    rw [later.calls, h.calls, List.flatMap_append, List.append_assoc]

end SameEffect

namespace Alike
open TextSurface

variable {buffer : Buffer} {field : PlainField}

theorem toggle_eq (h : Alike buffer field) (delimiters : Delimiters) :
    toggle buffer.text buffer.selection delimiters = toggle field.text field.selection delimiters := by
  rw [h.selection, h.text, Toggle.toggle_clamp field.text h.ordered]

theorem applyDelimiters (h : Alike buffer field) (delimiters : Delimiters) :
    ∃ applied buffer' field', applyDelimiters delimiters buffer = (applied, buffer') ∧
      applyDelimiters delimiters field = (applied, field') ∧
      SameEffect [applied] buffer buffer' field field' := by
  have seen := h.toggle_eq delimiters
  cases toggled : toggle field.text field.selection delimiters with
  | none =>
    rw [toggled] at seen
    refine ⟨false, buffer, field, applyDelimiters_none seen, applyDelimiters_none toggled, h, ?_, ?_⟩
    · simp
    · simp [callsFor]
  | some result =>
    rw [toggled] at seen
    refine ⟨true, _, _, Buffer.applyDelimiters_some seen, PlainField.applyDelimiters_some toggled,
      ⟨rfl, ?_, ?_⟩, fun _ => rfl, ?_⟩
    · exact Toggle.start_le_stop toggled
    · exact (Toggle.clamp_selection toggled).symm
    · simp

theorem applyAll (h : Alike buffer field) (pairs : List Delimiters) :
    (applyAll pairs buffer).1 = (applyAll pairs field).1 ∧
      SameEffect (applyAll pairs field).1 buffer (applyAll pairs buffer).2 field
        (applyAll pairs field).2 := by
  induction pairs generalizing buffer field with
  | nil => exact ⟨rfl, .refl h⟩
  | cons delimiters rest ih =>
    obtain ⟨applied, buffer', field', onBuffer, onField, effect⟩ := h.applyDelimiters delimiters
    obtain ⟨answers, later⟩ := ih effect.alike
    rw [applyAll_cons, applyAll_cons, onBuffer, onField]
    exact ⟨congrArg (applied :: ·) answers, effect.trans later⟩

end Alike

/-- A buffer and a field that keeps every selection as given answer alike to any list of toggles
and show the same text after every one of them, and from the first one that applies on also the
same selection. Each that applies replaces the content of the field once and then notifies once; no
other asks anything of it. -/
theorem buffer_agrees_with_field (text : String) (selection : Selection)
    (ordered : selection.start ≤ selection.stop) (pairs : List Delimiters) :
    ∀ done, done <+: pairs →
      let onBuffer := TextSurface.applyAll done ((Buffer.ofText text).select selection)
      let onField := TextSurface.applyAll done (⟨text, selection, []⟩ : PlainField)
      onBuffer.1 = onField.1 ∧
      onBuffer.2.text = onField.2.text ∧
      (true ∈ onField.1 → onBuffer.2.selection = onField.2.selection) ∧
      onField.2.calls = onField.1.flatMap callsFor := by
  intro done _
  have start : Alike ((Buffer.ofText text).select selection) ⟨text, selection, []⟩ :=
    ⟨rfl, ordered, rfl⟩
  obtain ⟨answers, effect⟩ := start.applyAll done
  exact ⟨answers, effect.alike.text, fun applied => effect.selection (.inr applied), effect.calls⟩

/-- The offsets lie inside the last character and far behind it, and the first pair takes that
character away. What is selected then is a place, around which the second pair is put. -/
theorem buffer_agrees_with_field_past_end :
    let pairs : List Delimiters := [⟨"*", "😀"⟩, Style.bold.delimiters, ⟨"*", "*"⟩]
    let onBuffer := TextSurface.applyAll pairs ((Buffer.ofText "a😀").select ⟨2, 9, .backward⟩)
    let onField := TextSurface.applyAll pairs (⟨"a😀", ⟨2, 9, .backward⟩, []⟩ : PlainField)
    2 ≤ 9 ∧
    onField = ([true, true, true], ⟨"a**", ⟨1, 3, .forward⟩,
      [.replace, .notify, .replace, .notify, .replace, .notify]⟩) ∧
    onBuffer.1 = [true, true, true] ∧ onBuffer.2.text = "a**" ∧
    onBuffer.2.selection = ⟨1, 3, .forward⟩ := by
  intro pairs onBuffer onField
  have ended : onField = ([true, true, true], ⟨"a**", ⟨1, 3, .forward⟩,
      [.replace, .notify, .replace, .notify, .replace, .notify]⟩) := by decide
  have agrees : onBuffer.1 = onField.1 ∧ onBuffer.2.text = onField.2.text ∧
      (true ∈ onField.1 → onBuffer.2.selection = onField.2.selection) ∧ _ :=
    buffer_agrees_with_field "a😀" ⟨2, 9, .backward⟩ (by decide) pairs pairs (List.prefix_refl pairs)
  rw [ended] at agrees
  obtain ⟨answers, text, selection, -⟩ := agrees
  exact ⟨by decide, ended, answers, text, selection (by decide)⟩

end DraftDesk
