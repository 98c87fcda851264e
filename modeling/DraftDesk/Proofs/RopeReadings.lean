import DraftDesk.Proofs.ByteSlices
import DraftDesk.Proofs.RopeBuffer
import DraftDesk.Proofs.ToggleReference

/-!
# Positions and byte offsets

A buffer on a rope finds its selection by character positions, the toggle by byte offsets. Both
cut the text at the same boundaries: what is selected, typed over and toggled is always the part
between the two byte offsets, whatever was done to the buffer before.
-/

namespace DraftDesk

/-! ## Cuts by byte offsets -/

namespace Bytes
open DraftDesk.Units

/-- A text sliced at the byte offsets of the bounds of a selection. -/
structure CutAt (text : String) (selection : Selection) (left middle right : String) : Prop where
  left : slice? text 0 (byteOffset text selection.start) = some left
  middle : slice? text (byteOffset text selection.start) (byteOffset text selection.stop) = some middle
  right : slice? text (byteOffset text selection.stop) text.utf8ByteSize = some right

theorem cutAt_cut {text : String} {selection : Selection}
    (ordered : selection.start ≤ selection.stop) {left middle right : List Char}
    (found : Cut.at text.toList selection.start selection.stop = ⟨left, middle, right⟩) :
    CutAt text selection (String.ofList left) (String.ofList middle) (String.ofList right) := by
  obtain ⟨leftPart, -, middlePart, rightPart⟩ := slices_of_cut found
  have last := max_byteOffset_of_cut found
  rw [Nat.max_eq_left (byteOffset_mono text ordered)] at last
  rw [← byteOffset_of_cut found] at leftPart middlePart
  rw [← last] at middlePart rightPart
  exact ⟨leftPart, middlePart, rightPart⟩

end Bytes

/-! ## Typing over a part and back -/

namespace Buffer
open DraftDesk.Units

variable (b : Buffer) (typed : String) (direction : Direction)

/-- The part of a text that was just typed. -/
def typedPart : Selection :=
  ⟨total b.cut.left, total (b.cut.left ++ typed.toList), direction⟩

theorem cut_select_typedPart :
    ((b.insert typed).select (b.typedPart typed direction)).cut =
      ⟨b.cut.left, typed.toList, b.cut.right⟩ := by
  have ordered : total b.cut.left ≤ total (b.cut.left ++ typed.toList) := by
    rw [total_append]
    omega
  have inside : total (b.cut.left ++ typed.toList) ≤ (b.insert typed).length := by
    simp only [length, insert, notify, String.toList_ofList, total_append]
    omega
  have kept : (b.typedPart typed direction).clamp (b.insert typed).length =
      b.typedPart typed direction := Selection.clamp_of_le ordered inside
  have found := Cut.at_ofList_append b.cut.left typed.toList b.cut.right
  rw [← total_append] at found
  rw [select, kept]
  exact found

/-- Typing the old part over the new one brings the text back. -/
theorem text_insert_typedPart :
    (((b.insert typed).select (b.typedPart typed direction)).insert b.selectedText).text = b.text := by
  have whole : b.cut.left ++ b.cut.middle ++ b.cut.right = b.text.toList := Cut.append_at ..
  rw [insert, cut_select_typedPart]
  simp only [notify, selectedText, String.toList_ofList, whole, String.ofList_toList]

end Buffer

/-! ## What a buffer works on -/

namespace RopeBuffer
open DraftDesk.Units

variable {ρ : Type} [Rope ρ]

/-- A buffer before and after a toggle that put `content` in the place of `middle`. -/
structure Pressed (delimiters : Delimiters) (left middle right content : List Char) (result : Toggled)
    (before after : RopeBuffer ρ) : Prop where
  answer : TextSurface.applyDelimiters delimiters before = (true, after)
  toggled : toggle before.text before.selection delimiters = some result
  meets : Toggle.Meets delimiters.opening.toList delimiters.closing.toList left middle right content
    result
  text : after.text = result.text
  selection : after.selection = result.selection
  selected : ¬ Toggle.Overlap delimiters.opening.toList delimiters.closing.toList middle →
    after.selectedText? = some (String.ofList content)
  collapsed : Toggle.Overlap delimiters.opening.toList delimiters.closing.toList middle →
    after.selectedText? = some ""

/-- Whatever is done to a buffer is done to the text between two others. -/
structure WorksOn (b : RopeBuffer ρ) (left middle right : String) : Prop where
  selected : b.selectedText? = some middle
  /-- What a toggle puts into the text depends on that part alone. -/
  toggled (delimiters : Delimiters) : b.selection.isActive →
    toggle b.text b.selection delimiters =
      some ((Toggle.replacement delimiters.opening.toList delimiters.closing.toList middle.toList
        (total left.toList + total middle.toList)).put left.toList right.toList)
  /-- Typing takes its place, and typing it again over what was typed brings it back. -/
  typed (typed : String) : ∃ after, b.insert? typed = some after ∧
    after.text = left ++ typed ++ right ∧
    after.selection = .caret (total (left ++ typed).toList) ∧
    ∀ direction, ∃ restored,
      (after.select ⟨total left.toList, total (left ++ typed).toList, direction⟩).insert? middle =
        some restored ∧
      restored.text = b.text
  pressed (delimiters : Delimiters) : b.selection.isActive →
    ∃ after content result,
      Pressed delimiters left.toList middle.toList right.toList content result b after
  idle (delimiters : Delimiters) : ¬ b.selection.isActive →
    TextSurface.applyDelimiters delimiters b = (false, b)

variable [LawfulRope ρ] {b : RopeBuffer ρ}

theorem exists_pressed (inside : b.view.InRange) (active : b.selection.isActive)
    (delimiters : Delimiters) :
    ∃ after content result,
      Pressed delimiters b.view.cut.left b.view.cut.middle b.view.cut.right content result b after := by
  obtain ⟨content, result, made, meets⟩ := Toggle.exists_toggle_meets b.text active delimiters rfl
  have seen := applyDelimiters_view delimiters b
  rw [Buffer.applyDelimiters_some made] at seen
  obtain ⟨answer, view⟩ := Prod.mk.inj seen
  have kept : (TextSurface.applyDelimiters delimiters b).2.view.InRange := by
    rw [view_applyDelimiters]
    exact inside.applyDelimiters delimiters
  have shown := selectedText?_eq kept
  rw [← view, Buffer.selectedText, Buffer.cut] at shown
  refine ⟨_, content, result, Prod.ext answer.symm rfl, made, meets,
    congrArg Buffer.text view.symm, congrArg Buffer.selection view.symm, ?_, ?_⟩
  · intro apart
    rw [shown, (meets.covers apart).2]
  · intro overlap
    rw [shown, meets.collapsed overlap, Cut.middle_at_self]

theorem exists_typed (inside : b.view.InRange) (typed : String) :
    ∃ after, b.insert? typed = some after ∧
      after.text.toList = b.view.cut.left ++ typed.toList ++ b.view.cut.right ∧
      after.selection = .caret (total (b.view.cut.left ++ typed.toList)) ∧
      ∀ direction, ∃ restored,
        (after.select (b.view.typedPart typed direction)).insert? b.view.selectedText = some restored ∧
        restored.text = b.text := by
  obtain ⟨after, done, seen⟩ := exists_insert? inside typed
  have shown : after.text = (b.view.insert typed).text := congrArg Buffer.text seen
  refine ⟨after, done, ?_, congrArg Buffer.selection seen, ?_⟩
  · rw [shown]
    exact String.toList_ofList
  · intro direction
    have again := view_select (b.view.typedPart typed direction) after
    have ready : (after.select (b.view.typedPart typed direction)).view.InRange := by
      rw [again]
      exact Buffer.inRange_select ..
    obtain ⟨restored, back, same⟩ := exists_insert? ready b.view.selectedText
    refine ⟨restored, back, ?_⟩
    rw [again, seen] at same
    exact (congrArg Buffer.text same).trans (Buffer.text_insert_typedPart b.view typed direction)

theorem worksOn_cut (inside : b.view.InRange) :
    WorksOn b (String.ofList b.view.cut.left) (String.ofList b.view.cut.middle)
      (String.ofList b.view.cut.right) := by
  constructor
  case selected => exact selectedText?_eq inside
  case toggled =>
    intro delimiters active
    simp only [String.toList_ofList]
    exact Toggle.toggle_eq_put active rfl
  case typed =>
    intro typed
    obtain ⟨after, done, text, selection, back⟩ := exists_typed inside typed
    simp only [String.toList_append, String.toList_ofList]
    refine ⟨after, done, ?_, selection, back⟩
    rw [← String.toList_inj, text, String.toList_append, String.toList_append, String.toList_ofList,
      String.toList_ofList]
  case pressed =>
    intro delimiters active
    simp only [String.toList_ofList]
    exact exists_pressed inside active delimiters
  case idle =>
    intro delimiters inactive
    exact TextSurface.applyDelimiters_none (if_neg inactive)

/-- The positions of a rope and the byte offsets of a text stand for the same boundaries: after any
edits, what is selected, typed over and toggled is the part between the two byte offsets. -/
theorem positions_agree_with_byte_offsets (title text : String) (es : List Edit) :
    ∃ b : RopeBuffer ρ, edits? (ofText text) es = some b ∧
      b.view = (DraftForm.edits ⟨title, .ofText text⟩ es).editor ∧
      ∃ left middle right, left ++ middle ++ right = b.text ∧
        Bytes.CutAt b.text b.selection left middle right ∧ WorksOn b left middle right := by
  have start : (ofText text : RopeBuffer ρ).view = (⟨title, .ofText text⟩ : DraftForm).editor :=
    view_ofText text
  obtain ⟨b, done, seen, inside⟩ := exists_edits? start (Buffer.inRange_ofText text) es
  have whole : b.text.toList = b.view.cut.left ++ b.view.cut.middle ++ b.view.cut.right :=
    text_eq_cut b
  have slices : Bytes.CutAt b.text b.selection (String.ofList b.view.cut.left)
      (String.ofList b.view.cut.middle) (String.ofList b.view.cut.right) :=
    Bytes.cutAt_cut inside.ordered rfl
  refine ⟨b, done, seen, _, _, _, ?_, slices, worksOn_cut inside⟩
  rw [← String.ofList_append, ← String.ofList_append, ← whole, String.ofList_toList]

theorem positions_agree_with_byte_offsets_in_pair :
    LawfulRope String ∧
    let es : List Edit := [.select ⟨2, 9, .forward⟩, .delimiters ⟨"😀", "*"⟩, .insert "é😀*",
      .select ⟨4, 2, .backward⟩, .style .bold, .select ⟨2, 4, .forward⟩]
    ∃ b : RopeBuffer String, edits? (ofText "a😀*b") es = some b ∧
      b.view = (DraftForm.edits ⟨"draft", .ofText "a😀*b"⟩ es).editor ∧
      ∃ left middle right, left ++ middle ++ right = b.text ∧
        Bytes.CutAt b.text b.selection left middle right ∧ WorksOn b left middle right :=
  ⟨inferInstance, positions_agree_with_byte_offsets "draft" "a😀*b" _⟩

end RopeBuffer

end DraftDesk
