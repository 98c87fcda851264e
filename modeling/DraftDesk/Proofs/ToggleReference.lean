import DraftDesk.Proofs.ToggleBranches

/-!
# What a toggle owes to the text

A toggle cuts the text once, at the longest beginnings its two offsets leave room for, and only
what stands between the two cuts changes. Which branch is taken, what the part becomes and what is
selected afterwards is said in `Meets` by how the part is made up, without positions: the
delimiters put around the new content give the part back, or the other way round.
-/

namespace DraftDesk.Toggle
open DraftDesk.Units

/-- The end of a selected part with both delimiters counted as gone, but not before the text. -/
def collapse (opening closing left middle : List Char) : Nat :=
  total left + total middle - (total opening + total closing)

/-- The result of a toggle on a text that is cut into `left`, `middle` and `right`, where
`content` has taken the place of `middle`. -/
structure Meets (opening closing left middle right content : List Char) (result : Toggled) : Prop where
  text : result.text.toList = left ++ content ++ right
  wrapped_iff : result.change = .wrapped ↔ ¬ opening <+: middle ∧ ¬ closing <:+ middle
  strippedOpening_iff : result.change = .strippedOpening ↔ opening <+: middle ∧ ¬ closing <:+ middle
  strippedClosing_iff : result.change = .strippedClosing ↔ ¬ opening <+: middle ∧ closing <:+ middle
  unwrapped_iff : result.change = .unwrapped ↔ opening <+: middle ∧ closing <:+ middle
  wrapped : result.change = .wrapped → content = opening ++ middle ++ closing
  strippedOpening : result.change = .strippedOpening → opening ++ content = middle
  strippedClosing : result.change = .strippedClosing → content ++ closing = middle
  enclosed : result.change = .unwrapped → ¬ Overlap opening closing middle →
    opening ++ content ++ closing = middle
  /-- Where the delimiters overlap, the content is what both of them cover. -/
  overlapping : Overlap opening closing middle → ∃ front back,
    front ++ content = opening ∧ content ++ back = closing ∧ front ++ content ++ back = middle
  covers : ¬ Overlap opening closing middle →
    result.selection = ⟨total left, total (left ++ content), .forward⟩ ∧
    Cut.at result.text.toList result.selection.start result.selection.stop = ⟨left, content, right⟩
  collapsed : Overlap opening closing middle →
    result.selection = ⟨collapse opening closing left middle, collapse opening closing left middle, .forward⟩

/-! ## Every branch -/

variable {opening closing left middle right content : List Char} {change : Change}

private theorem branch_iff {new : Replacement} {stop : Nat}
    (taken : replacement opening closing middle stop = new) :
    (new.change = .wrapped ↔ ¬ opening <+: middle ∧ ¬ closing <:+ middle) ∧
    (new.change = .strippedOpening ↔ opening <+: middle ∧ ¬ closing <:+ middle) ∧
    (new.change = .strippedClosing ↔ ¬ opening <+: middle ∧ closing <:+ middle) ∧
    (new.change = .unwrapped ↔ opening <+: middle ∧ closing <:+ middle) := by
  rw [← taken, change_replacement]
  split_ifs with begins ends ends <;> simp [begins, ends]

/-- Where the delimiters do not overlap, the new end is the end of the content. -/
private theorem meets_of_not_overlap (right : List Char) {stop : Nat}
    (taken : replacement opening closing middle (total left + total middle) = ⟨change, content, stop⟩)
    (end_of_content : stop = total left + total content)
    (apart : ¬ Overlap opening closing middle)
    (wrapped : change = .wrapped → content = opening ++ middle ++ closing)
    (strippedOpening : change = .strippedOpening → opening ++ content = middle)
    (strippedClosing : change = .strippedClosing → content ++ closing = middle)
    (enclosed : change = .unwrapped → opening ++ content ++ closing = middle) :
    Meets opening closing left middle right content (Replacement.put left right ⟨change, content, stop⟩) := by
  obtain ⟨wrapped_iff, strippedOpening_iff, strippedClosing_iff, unwrapped_iff⟩ := branch_iff taken
  subst end_of_content
  have start : min (total left) (total left + total content) = total left :=
    Nat.min_eq_left (Nat.le_add_right ..)
  have found := Cut.at_ofList_append left content right
  exact {
    text := String.toList_ofList
    wrapped_iff, strippedOpening_iff, strippedClosing_iff, unwrapped_iff
    wrapped, strippedOpening, strippedClosing
    enclosed := fun unwrapped _ => enclosed unwrapped
    overlapping := fun overlap => absurd overlap apart
    covers := fun _ => ⟨by simp [Replacement.put], by simpa only [Replacement.put, start] using found⟩
    collapsed := fun overlap => absurd overlap apart }

private theorem meets_of_overlap (right : List Char) (overlap : Overlap opening closing middle)
    (taken : replacement opening closing middle (total left + total middle) =
      ⟨.unwrapped, content, collapse opening closing left middle⟩)
    {front back : List Char} (first : front ++ content = opening) (last : content ++ back = closing)
    (whole : front ++ content ++ back = middle) :
    Meets opening closing left middle right content
      (Replacement.put left right ⟨.unwrapped, content, collapse opening closing left middle⟩) := by
  obtain ⟨wrapped_iff, strippedOpening_iff, strippedClosing_iff, unwrapped_iff⟩ := branch_iff taken
  have before : collapse opening closing left middle ≤ total left := by
    simp only [collapse, ← first, ← last, ← whole, total_append]
    omega
  exact {
    text := String.toList_ofList
    wrapped_iff, strippedOpening_iff, strippedClosing_iff, unwrapped_iff
    wrapped := nofun
    strippedOpening := nofun
    strippedClosing := nofun
    enclosed := fun _ apart => absurd overlap apart
    overlapping := fun _ => ⟨front, back, first, last, whole⟩
    covers := fun apart => absurd overlap apart
    collapsed := fun _ => by simp [Replacement.put, Nat.min_eq_right before] }

/-- What takes the place of a selected part is what the text is owed, whichever branch is taken. -/
theorem meets_put (opening closing left middle right : List Char) :
    ∃ new, replacement opening closing middle (total left + total middle) = new ∧
      Meets opening closing left middle right new.content (new.put left right) := by
  cases makeup opening closing middle with
  | bare begins ends =>
    have taken := replacement_wrapped begins ends (total left + total middle)
    have apart : ¬ Overlap opening closing middle := fun overlap => begins overlap.1
    refine ⟨_, taken, meets_of_not_overlap right taken ?_ apart (fun _ => rfl) nofun nofun nofun⟩
    simp only [total_append]
    omega
  | opened content ends =>
    have taken := replacement_strippedOpening ends (total left + total (opening ++ content))
    have apart : ¬ Overlap opening closing (opening ++ content) := fun overlap => ends overlap.2.1
    refine ⟨_, taken, meets_of_not_overlap right taken ?_ apart nofun (fun _ => rfl) nofun nofun⟩
    simp only [total_append]
    omega
  | closed content begins =>
    have taken := replacement_strippedClosing begins (total left + total (content ++ closing))
    have apart : ¬ Overlap opening closing (content ++ closing) := fun overlap => begins overlap.1
    refine ⟨_, taken, meets_of_not_overlap right taken ?_ apart nofun nofun (fun _ => rfl) nofun⟩
    simp only [total_append]
    omega
  | enclosed content =>
    have taken := replacement_enclosed opening closing content
      (total left + total (opening ++ content ++ closing))
    have apart := not_overlap_enclosed opening closing content
    refine ⟨_, taken, meets_of_not_overlap right taken ?_ apart nofun nofun nofun fun _ => rfl⟩
    simp only [total_append]
    omega
  | overlapping overlap =>
    obtain ⟨front, content, back, first, last, whole⟩ := overlap.shared
    have taken := replacement_overlapping front content back (total left + total middle)
    rw [whole, first, last] at taken
    exact ⟨_, taken, meets_of_overlap right overlap taken first last whole⟩

/-- An active toggle has a result, and it is what the text is owed where the selection cuts it. -/
theorem exists_toggle_meets (text : String) {selection : Selection} (active : selection.isActive)
    (delimiters : Delimiters) {cut : Cut}
    (found : Cut.at text.toList selection.start selection.stop = cut) :
    ∃ content result, toggle text selection delimiters = some result ∧
      Meets delimiters.opening.toList delimiters.closing.toList cut.left cut.middle cut.right
        content result := by
  obtain ⟨new, taken, meets⟩ := meets_put delimiters.opening.toList delimiters.closing.toList
    cut.left cut.middle cut.right
  refine ⟨new.content, new.put cut.left cut.right, ?_, meets⟩
  rw [← taken]
  exact toggle_eq_put active found

/-- An active toggle always has a result, and the result is the one the text is owed: it is cut at
the longest beginnings that the two offsets leave room for. -/
theorem toggle_meets_reference (text : String) (selection : Selection) (delimiters : Delimiters)
    (active : selection.isActive) :
    ∃ left middle right content result,
      Longest selection.start text.toList left ∧
      Longest (max selection.start selection.stop) text.toList (left ++ middle) ∧
      left ++ middle ++ right = text.toList ∧
      toggle text selection delimiters = some result ∧
      Meets delimiters.opening.toList delimiters.closing.toList left middle right content result := by
  obtain ⟨content, result, made, meets⟩ := exists_toggle_meets text active delimiters rfl
  exact ⟨_, _, _, content, result, Cut.longest_left_at .., Cut.longest_left_append_middle_at ..,
    Cut.append_at .., made, meets⟩

/-- Three stars, in which the pairs share the one in the middle. It is what is left, and the place
that is selected is one unit before it. -/
theorem toggle_meets_reference_overlap :
    (⟨1, 4, .backward⟩ : Selection).isActive ∧
    toggle "a***b" ⟨1, 4, .backward⟩ Style.bold.delimiters =
      some ⟨"a*b", ⟨0, 0, .forward⟩, .unwrapped⟩ ∧
    Longest 1 "a***b".toList "a".toList ∧ Longest 4 "a***b".toList "a***".toList ∧
    Overlap "**".toList "**".toList "***".toList ∧
    Meets "**".toList "**".toList "a".toList "***".toList "b".toList "*".toList
      ⟨"a*b", ⟨0, 0, .forward⟩, .unwrapped⟩ := by
  have collapsed : toggle "a***b" ⟨1, 4, .backward⟩ Style.bold.delimiters =
      some ⟨"a*b", ⟨0, 0, .forward⟩, .unwrapped⟩ := by decide
  obtain ⟨left, middle, right, content, result, first, reached, whole, made, meets⟩ :=
    toggle_meets_reference "a***b" ⟨1, 4, .backward⟩ Style.bold.delimiters rfl
  obtain rfl := Option.some.inj (made.symm.trans collapsed)
  obtain rfl : left = "a".toList := first.eq_fit.trans (by decide)
  obtain rfl : middle = "***".toList :=
    List.append_cancel_left (reached.eq_fit.trans (by decide : _ = "a".toList ++ "***".toList))
  obtain rfl : right = "b".toList :=
    List.append_cancel_left (whole.trans (by decide : _ = "a".toList ++ "***".toList ++ "b".toList))
  obtain rfl : content = "*".toList :=
    List.append_cancel_left (List.append_cancel_right (meets.text.symm.trans
      (by decide : _ = "a".toList ++ "*".toList ++ "b".toList)))
  have overlap : Overlap "**".toList "**".toList "***".toList := ⟨by decide, by decide, by decide⟩
  exact ⟨rfl, collapsed, first, reached, overlap, meets⟩

end DraftDesk.Toggle
