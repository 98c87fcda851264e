import DraftDesk.Proofs.Boundaries
import Mathlib.Tactic.SplitIfs

/-!
# The branches of the toggle

What takes the place of a selected part, said for each branch by how the part is made up of the
delimiters and the rest of it. A part that begins with the opening and ends with the closing
delimiter either has room for both or is shorter than both together, and then what is left of it
is what the two share.
-/

namespace DraftDesk.Toggle
open DraftDesk.Units

variable {opening closing middle content : List Char}

/-! ## The items between two positions -/

theorem span_comm {α : Type} (items : List α) (a b : Nat) : span items a b = span items b a := by
  rw [span, Nat.max_comm, Nat.min_comm, ← span]

theorem span_append {α : Type} (front content back : List α) :
    span (front ++ content ++ back) front.length (front ++ content).length = content := by
  have last : max front.length (front ++ content).length = (front ++ content).length := by simp
  have first : min front.length (front ++ content).length = front.length := by simp
  rw [span, last, first, List.take_left, List.drop_left]

/-! ## The branch that is taken -/

theorem replacement_eq (opening closing middle : List Char) (stop : Nat) :
    replacement opening closing middle stop =
      if opening <+: middle then
        if closing <:+ middle then
          ⟨.unwrapped, span middle opening.length (middle.length - closing.length),
            stop - (total opening + total closing)⟩
        else ⟨.strippedOpening, middle.drop opening.length, stop - total opening⟩
      else if closing <:+ middle then
        ⟨.strippedClosing, middle.take (middle.length - closing.length), stop - total closing⟩
      else ⟨.wrapped, opening ++ middle ++ closing, stop + total opening + total closing⟩ := by
  simp only [← List.isPrefixOf_iff_prefix, ← List.isSuffixOf_iff_suffix]
  unfold replacement
  cases opening.isPrefixOf middle <;> cases closing.isSuffixOf middle <;> rfl

theorem change_replacement (opening closing middle : List Char) (stop : Nat) :
    (replacement opening closing middle stop).change =
      if opening <+: middle then
        if closing <:+ middle then .unwrapped else .strippedOpening
      else if closing <:+ middle then .strippedClosing else .wrapped := by
  rw [replacement_eq]
  split_ifs <;> rfl

theorem replacement_wrapped (begins : ¬ opening <+: middle) (ends : ¬ closing <:+ middle) (stop : Nat) :
    replacement opening closing middle stop =
      ⟨.wrapped, opening ++ middle ++ closing, stop + total opening + total closing⟩ := by
  rw [replacement_eq, if_neg begins, if_neg ends]

theorem replacement_strippedOpening (ends : ¬ closing <:+ opening ++ content) (stop : Nat) :
    replacement opening closing (opening ++ content) stop =
      ⟨.strippedOpening, content, stop - total opening⟩ := by
  rw [replacement_eq, if_pos (List.prefix_append ..), if_neg ends, List.drop_left]

theorem replacement_strippedClosing (begins : ¬ opening <+: content ++ closing) (stop : Nat) :
    replacement opening closing (content ++ closing) stop =
      ⟨.strippedClosing, content, stop - total closing⟩ := by
  rw [replacement_eq, if_neg begins, if_pos (List.suffix_append ..)]
  simp

/-- A part with room for both delimiters loses both. -/
theorem replacement_enclosed (opening closing content : List Char) (stop : Nat) :
    replacement opening closing (opening ++ content ++ closing) stop =
      ⟨.unwrapped, content, stop - (total opening + total closing)⟩ := by
  have begins : opening <+: opening ++ content ++ closing := ⟨content ++ closing, by simp⟩
  have ends : closing <:+ opening ++ content ++ closing := List.suffix_append ..
  have last : (opening ++ content ++ closing).length - closing.length = (opening ++ content).length := by
    simp only [List.length_append]; omega
  rw [replacement_eq, if_pos begins, if_pos ends, last, span_append]

/-- A part in which the delimiters overlap keeps what they share. -/
theorem replacement_overlapping (front content back : List Char) (stop : Nat) :
    replacement (front ++ content) (content ++ back) (front ++ content ++ back) stop =
      ⟨.unwrapped, content, stop - (total (front ++ content) + total (content ++ back))⟩ := by
  have begins : front ++ content <+: front ++ content ++ back := List.prefix_append ..
  have ends : content ++ back <:+ front ++ content ++ back := ⟨front, by simp⟩
  -- The closing delimiter begins before the opening one ends, so the two positions change places.
  have first : (front ++ content ++ back).length - (content ++ back).length = front.length := by
    simp only [List.length_append]; omega
  rw [replacement_eq, if_pos begins, if_pos ends, first, span_comm, span_append]

/-! ## How a part is made up -/

/-- A part carries both delimiters but is shorter than both together. -/
def Overlap (opening closing middle : List Char) : Prop :=
  opening <+: middle ∧ closing <:+ middle ∧ middle.length < opening.length + closing.length

theorem not_overlap_enclosed (opening closing content : List Char) :
    ¬ Overlap opening closing (opening ++ content ++ closing) := by
  rintro ⟨-, -, short⟩
  simp only [List.length_append] at short
  omega

theorem enclosed_of_not_overlap (begins : opening <+: middle) (ends : closing <:+ middle)
    (room : ¬ Overlap opening closing middle) :
    ∃ content, opening ++ content ++ closing = middle := by
  obtain ⟨rest, rfl⟩ := begins
  have fits : opening.length + closing.length ≤ (opening ++ rest).length :=
    Nat.not_lt.1 fun short => room ⟨List.prefix_append .., ends, short⟩
  have inside : closing <:+ rest := by
    apply List.suffix_of_suffix_length_le ends (List.suffix_append ..)
    simp only [List.length_append] at fits
    omega
  obtain ⟨content, rfl⟩ := inside
  exact ⟨content, List.append_assoc ..⟩

theorem Overlap.shared (h : Overlap opening closing middle) :
    ∃ front content back,
      front ++ content = opening ∧ content ++ back = closing ∧ front ++ content ++ back = middle := by
  obtain ⟨⟨back, rfl⟩, ends, short⟩ := h
  have reaches : back <:+ closing := by
    apply List.suffix_of_suffix_length_le (List.suffix_append ..) ends
    simp only [List.length_append] at short
    omega
  obtain ⟨content, rfl⟩ := reaches
  obtain ⟨front, whole⟩ := ends
  have first : front ++ content = opening := by simpa [← List.append_assoc] using whole
  exact ⟨front, content, back, first, rfl, by rw [first]⟩

/-- How a part is made up of the delimiters and the rest of it. -/
inductive Makeup (opening closing : List Char) : List Char → Prop where
  | bare {middle : List Char} (begins : ¬ opening <+: middle) (ends : ¬ closing <:+ middle) :
      Makeup opening closing middle
  | opened (content : List Char) (ends : ¬ closing <:+ opening ++ content) :
      Makeup opening closing (opening ++ content)
  | closed (content : List Char) (begins : ¬ opening <+: content ++ closing) :
      Makeup opening closing (content ++ closing)
  | enclosed (content : List Char) : Makeup opening closing (opening ++ content ++ closing)
  | overlapping {middle : List Char} (overlap : Overlap opening closing middle) :
      Makeup opening closing middle

/-- Every part is made up in one of these ways. -/
theorem makeup (opening closing middle : List Char) : Makeup opening closing middle := by
  by_cases begins : opening <+: middle
  · by_cases ends : closing <:+ middle
    · by_cases overlap : Overlap opening closing middle
      · exact .overlapping overlap
      · obtain ⟨content, rfl⟩ := enclosed_of_not_overlap begins ends overlap
        exact .enclosed content
    · obtain ⟨content, rfl⟩ := begins
      exact .opened content ends
  · by_cases ends : closing <:+ middle
    · obtain ⟨content, rfl⟩ := ends
      exact .closed content begins
    · exact .bare begins ends

/-- What stands before the new end is inside the text: the end of the content, or less where the
delimiters overlap. -/
theorem stop_replacement_le (opening closing middle : List Char) (before : Nat) :
    (replacement opening closing middle (before + total middle)).stop ≤
      before + total (replacement opening closing middle (before + total middle)).content := by
  cases makeup opening closing middle with
  | bare begins ends =>
    simp only [replacement_wrapped begins ends, total_append]
    omega
  | opened content ends =>
    simp only [replacement_strippedOpening ends, total_append]
    omega
  | closed content begins =>
    simp only [replacement_strippedClosing begins, total_append]
    omega
  | enclosed content =>
    simp only [replacement_enclosed, total_append]
    omega
  | overlapping overlap =>
    obtain ⟨front, content, back, rfl, rfl, rfl⟩ := overlap.shared
    simp only [replacement_overlapping, total_append]
    omega

/-! ## The toggle as a whole -/

/-- The toggled text, put together from what takes the place of the selected part. -/
def Replacement.put (left right : List Char) (new : Replacement) : Toggled where
  text := String.ofList (left ++ new.content ++ right)
  selection := ⟨min (total left) new.stop, new.stop, .forward⟩
  change := new.change

variable {text : String} {selection : Selection} {delimiters : Delimiters} {first : Toggled}
  {left right : List Char}

theorem toggle_eq_put (active : selection.isActive) {cut : Cut}
    (found : Cut.at text.toList selection.start selection.stop = cut) :
    toggle text selection delimiters =
      some ((replacement delimiters.opening.toList delimiters.closing.toList cut.middle
        (total cut.left + total cut.middle)).put cut.left cut.right) := by
  simp [toggle, active, found, Replacement.put, Selection.forward,
    Selection.between_of_le (Nat.min_le_right _ _)]

theorem isActive_of_toggle (applied : toggle text selection delimiters = some first) :
    selection.isActive := by
  cases active : selection.isActive with
  | true => rfl
  | false => simp [toggle, active] at applied

theorem change_toggle (applied : toggle text selection delimiters = some first)
    (cut : Cut.at text.toList selection.start selection.stop = ⟨left, middle, right⟩) :
    first.change = (replacement delimiters.opening.toList delimiters.closing.toList middle
      (total left + total middle)).change := by
  rw [toggle_eq_put (isActive_of_toggle applied) cut, Option.some.injEq] at applied
  rw [← applied, Replacement.put]

theorem toggle_wraps (active : selection.isActive)
    (cut : Cut.at text.toList selection.start selection.stop = ⟨left, middle, right⟩)
    (begins : ¬ delimiters.opening.toList <+: middle) (ends : ¬ delimiters.closing.toList <:+ middle) :
    toggle text selection delimiters =
      some ⟨String.ofList
          (left ++ (delimiters.opening.toList ++ middle ++ delimiters.closing.toList) ++ right),
        ⟨total left,
          total left + total (delimiters.opening.toList ++ middle ++ delimiters.closing.toList), .forward⟩,
        .wrapped⟩ := by
  have stop : total left + total middle + total delimiters.opening.toList + total delimiters.closing.toList =
      total left + total (delimiters.opening.toList ++ middle ++ delimiters.closing.toList) := by
    simp only [total_append]
    omega
  rw [toggle_eq_put active cut, replacement_wrapped begins ends, stop]
  simp only [Replacement.put, Nat.min_eq_left (Nat.le_add_right ..)]

theorem toggle_unwraps (active : selection.isActive)
    (cut : Cut.at text.toList selection.start selection.stop =
      ⟨left, delimiters.opening.toList ++ content ++ delimiters.closing.toList, right⟩) :
    toggle text selection delimiters =
      some ⟨String.ofList (left ++ content ++ right), ⟨total left, total left + total content, .forward⟩,
        .unwrapped⟩ := by
  have stop : total left + total (delimiters.opening.toList ++ content ++ delimiters.closing.toList) -
      (total delimiters.opening.toList + total delimiters.closing.toList) = total left + total content := by
    simp only [total_append]
    omega
  rw [toggle_eq_put active cut, replacement_enclosed, stop]
  simp only [Replacement.put, Nat.min_eq_left (Nat.le_add_right ..)]

/-- A toggle that wraps is undone by the next one, and that by the one after it. -/
theorem toggle_back_and_forth (applied : toggle text selection delimiters = some first)
    (wraps : first.change = .wrapped)
    (cut : Cut.at text.toList selection.start selection.stop = ⟨left, middle, right⟩) :
    toggle first.text first.selection delimiters =
      some ⟨text, ⟨total left, total left + total middle, .forward⟩, .unwrapped⟩ ∧
    toggle text ⟨total left, total left + total middle, .forward⟩ delimiters = some first := by
  have active := isActive_of_toggle applied
  have whole : left ++ middle ++ right = text.toList := by
    rw [← Cut.append_at text.toList selection.start selection.stop, cut]
  have branch := change_toggle applied cut
  rw [wraps, change_replacement] at branch
  have neither : ¬ delimiters.opening.toList <+: middle ∧ ¬ delimiters.closing.toList <:+ middle := by
    split_ifs at branch with begins ends ends
    exact ⟨begins, ends⟩
  obtain rfl : String.ofList (left ++ middle ++ right) = text := by rw [whole, String.ofList_toList]
  rw [toggle_wraps active cut neither.1 neither.2, Option.some.injEq] at applied
  subst applied
  refine ⟨?_, ?_⟩
  · exact toggle_unwraps rfl (Cut.at_ofList_append ..)
  · exact toggle_wraps rfl (Cut.at_ofList_append ..) neither.1 neither.2

/-! ## Selections brought down to a text -/

theorem start_le_stop (applied : toggle text selection delimiters = some first) :
    first.selection.start ≤ first.selection.stop := by
  rw [toggle_eq_put (isActive_of_toggle applied) rfl, Option.some.injEq] at applied
  subst applied
  exact Nat.min_le_right ..

/-- What a toggle selects lies inside the new text. -/
theorem stop_le_total (applied : toggle text selection delimiters = some first) :
    first.selection.stop ≤ total first.text.toList := by
  rw [toggle_eq_put (isActive_of_toggle applied) rfl, Option.some.injEq] at applied
  subst applied
  have inside := stop_replacement_le delimiters.opening.toList delimiters.closing.toList
    (Cut.at text.toList selection.start selection.stop).middle
    (total (Cut.at text.toList selection.start selection.stop).left)
  simp only [Replacement.put, String.toList_ofList, total_append]
  omega

/-- Bringing what a toggle selects down to the new text changes nothing. -/
theorem clamp_selection (applied : toggle text selection delimiters = some first) :
    first.selection.clamp (total first.text.toList) = first.selection :=
  Selection.clamp_of_le (start_le_stop applied) (stop_le_total applied)

/-- A toggle does not see how far an offset lies past the end of the text. -/
theorem toggle_clamp (text : String) (ordered : selection.start ≤ selection.stop)
    (delimiters : Delimiters) :
    toggle text (selection.clamp (total text.toList)) delimiters = toggle text selection delimiters := by
  have later : max (min selection.start (total text.toList)) (min selection.stop (total text.toList)) =
      min (max selection.start selection.stop) (total text.toList) := by omega
  have same : Cut.at text.toList (min selection.start (total text.toList))
      (min selection.stop (total text.toList)) = Cut.at text.toList selection.start selection.stop := by
    apply Cut.at_congr
    · exact fit_min_total ..
    · rw [later, fit_min_total]
  rw [Selection.clamp_of_ordered ordered, toggle, toggle, same]
  rfl

end DraftDesk.Toggle
