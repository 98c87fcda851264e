import DraftDesk.Proofs.ToggleBranches

/-!
# Toggling twice

A toggle leaves the part it worked on selected, so the next toggle cuts the text at the same two
boundaries. Wrapping is therefore undone by unwrapping whatever the delimiters are, and unwrapping
by wrapping as long as what was inside the delimiters does not carry one of them itself.
-/

namespace DraftDesk.Toggle
open DraftDesk.Units

/-- A toggle that wrapped is undone by the next one, and so is a toggle that unwrapped a part with
nothing of the delimiters left in it. The selection comes back to the boundaries the offsets stood
for. -/
theorem toggle_undoes_toggle (text : String) (selection : Selection) (delimiters : Delimiters)
    (ordered : selection.start ≤ selection.stop) (first : Toggled)
    (applied : toggle text selection delimiters = some first) :
    (first.change = .wrapped →
      toggle first.text first.selection delimiters =
        some ⟨text, ⟨snap selection.start text.toList, snap selection.stop text.toList, .forward⟩,
          .unwrapped⟩) ∧
    ∀ content, first.change = .unwrapped →
      (Cut.at text.toList selection.start selection.stop).middle =
        delimiters.opening.toList ++ content ++ delimiters.closing.toList →
      ¬ delimiters.opening.toList <+: content → ¬ delimiters.closing.toList <:+ content →
      toggle first.text first.selection delimiters =
        some ⟨text, ⟨snap selection.start text.toList, snap selection.stop text.toList, .forward⟩,
          .wrapped⟩ := by
  have whole := Cut.append_at text.toList selection.start selection.stop
  have stop := Cut.total_middle_at text.toList selection.start selection.stop
  have start := Cut.total_left_at text.toList selection.start selection.stop
  rw [Nat.max_eq_right ordered, ← start] at stop
  generalize cut : Cut.at text.toList selection.start selection.stop = c at *
  obtain ⟨left, middle, right⟩ := c
  dsimp only at whole stop start
  rw [← start, ← stop]
  constructor
  · intro wrapped
    exact (toggle_back_and_forth applied wrapped cut).1
  · rintro content - rfl begins ends
    rw [toggle_unwraps (isActive_of_toggle applied) cut, Option.some.injEq] at applied
    subst applied
    rw [toggle_wraps rfl (Cut.at_ofList_append ..) begins ends, whole, String.ofList_toList]

/-- Both directions on offsets inside a pair of units and past the end. -/
theorem toggle_undoes_toggle_in_pair :
    (2 ≤ 9 ∧
      toggle "a😀b" ⟨2, 9, .backward⟩ Style.bold.delimiters =
        some ⟨"a**😀b**", ⟨1, 8, .forward⟩, .wrapped⟩ ∧
      toggle "a**😀b**" ⟨1, 8, .forward⟩ Style.bold.delimiters =
        some ⟨"a😀b", ⟨snap 2 "a😀b".toList, snap 9 "a😀b".toList, .forward⟩, .unwrapped⟩) ∧
    (2 ≤ 12 ∧
      toggle "😀<u>é</u>" ⟨2, 12, .forward⟩ Style.underline.delimiters =
        some ⟨"😀é", ⟨2, 3, .forward⟩, .unwrapped⟩ ∧
      toggle "😀é" ⟨2, 3, .forward⟩ Style.underline.delimiters =
        some ⟨"😀<u>é</u>",
          ⟨snap 2 "😀<u>é</u>".toList, snap 12 "😀<u>é</u>".toList, .forward⟩, .wrapped⟩) := by
  have wraps : toggle "a😀b" ⟨2, 9, .backward⟩ Style.bold.delimiters =
      some ⟨"a**😀b**", ⟨1, 8, .forward⟩, .wrapped⟩ := by decide
  have unwraps : toggle "😀<u>é</u>" ⟨2, 12, .forward⟩ Style.underline.delimiters =
      some ⟨"😀é", ⟨2, 3, .forward⟩, .unwrapped⟩ := by decide
  refine ⟨⟨by decide, wraps, ?_⟩, ⟨by decide, unwraps, ?_⟩⟩
  · exact (toggle_undoes_toggle _ _ _ (by decide) _ wraps).1 rfl
  · exact (toggle_undoes_toggle _ _ _ (by decide) _ unwraps).2 ['é'] rfl
      (by decide) (by decide) (by decide)

end DraftDesk.Toggle
