import DraftDesk.Proofs.ByteSlices
import DraftDesk.Proofs.ToggleBranches

/-!
# The toggle on stored bytes

`toggle?` works on the bytes of the text: it slices the text at byte offsets and subtracts byte
sizes, and fails where a slice is out of range or inside a character or where a difference is
negative. It never fails, and what it gives is what `toggle` gives.
-/

namespace DraftDesk.Bytes
open DraftDesk.Units Toggle

/-- What takes the place of a selected part that ends at an offset: the change, the new content and
the new end. -/
def replacement? (opening closing middle : String) (stop : Nat) : Option (Change × String × Nat) :=
  if opening.toList <+: middle.toList then
    if closing.toList <:+ middle.toList then do
      let last ← sub? middle.utf8ByteSize closing.utf8ByteSize
      let content ← between? middle opening.utf8ByteSize last
      return (.unwrapped, content, stop - (total opening.toList + total closing.toList))
    else do
      let content ← slice? middle opening.utf8ByteSize middle.utf8ByteSize
      return (.strippedOpening, content, stop - total opening.toList)
  else if closing.toList <:+ middle.toList then do
    let last ← sub? middle.utf8ByteSize closing.utf8ByteSize
    let content ← slice? middle 0 last
    return (.strippedClosing, content, stop - total closing.toList)
  else return (.wrapped, opening ++ middle ++ closing, stop + total opening.toList + total closing.toList)

/-- The toggle of the selected part of a text by byte offsets. -/
def toggle? (text : String) (selection : Selection) (delimiters : Delimiters) :
    Option (Option Toggled) :=
  if selection.isActive then do
    let start := byteOffset text selection.start
    let stop := max (byteOffset text selection.stop) start
    let left ← slice? text 0 start
    let reached ← slice? text 0 stop
    let middle ← slice? text start stop
    let right ← slice? text stop text.utf8ByteSize
    let (change, content, newStop) ←
      replacement? delimiters.opening delimiters.closing middle (total reached.toList)
    return some {
      text := left ++ content ++ right
      selection := .forward (min (total left.toList) newStop) newStop
      change }
  else return none

/-! ## Nothing fails -/

theorem replacement?_ofList (opening closing middle : List Char) (stop : Nat) :
    replacement? (String.ofList opening) (String.ofList closing) (String.ofList middle) stop =
      some ((replacement opening closing middle stop).change,
        String.ofList (replacement opening closing middle stop).content,
        (replacement opening closing middle stop).stop) := by
  simp only [replacement?, String.toList_ofList, utf8ByteSize_ofList]
  cases makeup opening closing middle with
  | bare begins ends =>
    rw [if_neg begins, if_neg ends, replacement_wrapped begins ends, String.ofList_append,
      String.ofList_append]
    rfl
  | opened content ends =>
    rw [if_pos (List.prefix_append ..), if_neg ends, replacement_strippedOpening ends, slice?_end]
    rfl
  | closed content begins =>
    rw [if_neg begins, if_pos (List.suffix_append ..), replacement_strippedClosing begins,
      sub?_size_append, Option.bind_eq_bind, Option.bind_some, slice?_start]
    rfl
  | enclosed content =>
    have begins : opening <+: opening ++ content ++ closing := ⟨content ++ closing, by simp⟩
    rw [if_pos begins, if_pos (List.suffix_append ..), replacement_enclosed, sub?_size_append,
      Option.bind_eq_bind, Option.bind_some, size_append, between?, if_pos (Nat.le_add_right ..),
      slice?_ofList]
    rfl
  | overlapping overlap =>
    have begins := overlap.1
    have ends := overlap.2.1
    obtain ⟨front, content, back, rfl, rfl, rfl⟩ := overlap.shared
    -- The closing delimiter begins before the opening one ends, so the slice goes the other way.
    have first := sub?_size_append front (content ++ back)
    rw [← List.append_assoc] at first
    rw [if_pos begins, if_pos ends, replacement_overlapping, first, Option.bind_eq_bind,
      Option.bind_some, between?_comm, size_append, between?, if_pos (Nat.le_add_right ..), slice?_ofList]
    rfl

/-- No slice and no difference fails, and the result is that of `toggle`. -/
theorem toggle?_eq (text : String) (selection : Selection) (delimiters : Delimiters) :
    toggle? text selection delimiters = some (toggle text selection delimiters) := by
  cases active : selection.isActive with
  | false => simp [toggle?, toggle, active]
  | true =>
    generalize found : Cut.at text.toList selection.start selection.stop = cut
    obtain ⟨left, middle, right⟩ := cut
    obtain ⟨leftPart, reached, middlePart, rightPart⟩ := slices_of_cut found
    have new := replacement?_ofList delimiters.opening.toList delimiters.closing.toList middle
      (total left + total middle)
    rw [String.ofList_toList, String.ofList_toList] at new
    rw [toggle_eq_put active found, toggle?, if_pos active]
    dsimp only
    rw [max_byteOffset_of_cut found, byteOffset_of_cut found, leftPart, reached, middlePart, rightPart]
    simp only [Option.bind_eq_bind, Option.bind_some, String.toList_ofList, total_append, new]
    simp [Replacement.put, String.append_assoc, Selection.forward,
      Selection.between_of_le (Nat.min_le_right _ _)]

/-- The toggle is safe: on stored bytes it never slices out of range or inside a character and
never takes a larger number from a smaller one. What it selects is inside the new text. -/
theorem toggle_safe (text : String) (selection : Selection) (delimiters : Delimiters) :
    toggle? text selection delimiters = some (toggle text selection delimiters) ∧
    ∀ result, toggle text selection delimiters = some result →
      result.selection.direction = .forward ∧
      result.selection.start ≤ result.selection.stop ∧
      result.selection.stop ≤ total result.text.toList := by
  refine ⟨toggle?_eq text selection delimiters, ?_⟩
  intro result applied
  refine ⟨?_, start_le_stop applied, stop_le_total applied⟩
  rw [toggle_eq_put (isActive_of_toggle applied) rfl, Option.some.injEq] at applied
  subst applied
  rfl

end DraftDesk.Bytes
