import DraftDesk.Proofs.ToggleReference

/-!
# Where a new selection ends

Both ends of what a toggle selects are boundaries between characters, except where the delimiters
overlap. There the selection is one place, as many units before the old selection as the delimiters
share, and what stands at that place decides: it may be a character of two units.
-/

namespace DraftDesk.Units

/-- An offset between two characters of a text or at one of its ends: the measure of a beginning. -/
def IsBoundary (text : List Char) (offset : Nat) : Prop :=
  ∃ start, start <+: text ∧ total start = offset

/-- Counting units back from the end of a text, the count stops inside a character. -/
def StopsInside (text : List Char) (units : Nat) : Prop :=
  ∃ kept c passed, text = kept ++ c :: passed ∧ total passed < units ∧ units < total passed + width c

variable {text back : List Char} {offset units : Nat}

/-! ## Boundaries -/

theorem isBoundary_iff_snap : IsBoundary text offset ↔ snap offset text = offset := by
  constructor
  · rintro ⟨start, ⟨rest, rfl⟩, rfl⟩
    rw [snap, fit_total]
  · intro kept
    exact ⟨fit offset text, isPrefix_fit offset text, kept⟩

instance : Decidable (IsBoundary text offset) := decidable_of_iff _ isBoundary_iff_snap.symm

/-- What comes behind a text does not matter to the boundaries up to its end. -/
theorem isBoundary_append_iff (inside : offset ≤ total text) :
    IsBoundary (text ++ back) offset ↔ IsBoundary text offset := by
  constructor
  · rintro ⟨start, begins, rfl⟩
    have within := isPrefix_iff_le total_append total_pos begins (List.prefix_append text back)
    exact ⟨start, within.2 inside, rfl⟩
  · rintro ⟨start, begins, rfl⟩
    exact ⟨start, begins.trans (List.prefix_append ..), rfl⟩

theorem isBoundary_total_append (start back : List Char) : IsBoundary (start ++ back) (total start) :=
  ⟨start, List.prefix_append .., rfl⟩

/-- Counting back comes to a boundary exactly if it does not stop inside a character. -/
theorem isBoundary_sub_iff : IsBoundary text (total text - units) ↔ ¬ StopsInside text units := by
  rw [isBoundary_iff_snap, snap]
  constructor
  · rintro boundary ⟨kept, c, passed, rfl, low, high⟩
    have place : total (kept ++ c :: passed) - units =
        total kept + (total passed + width c - units) := by
      rw [total_append, total_cons]
      omega
    rw [place, fit_inside (by omega)] at boundary
    omega
  · intro outside
    have whole := fit_append_beyond (total text - units) text
    have fits := total_fit_le (total text - units) text
    cases rest : beyond (total text - units) text with
    | nil =>
      rw [rest, List.append_nil] at whole
      rw [whole] at fits ⊢
      omega
    | cons c passed =>
      have short := lt_total_fit_of_beyond rest
      rw [rest] at whole
      have sizes := congrArg total whole
      rw [total_append, total_cons] at sizes
      -- If units were left over, counting back would stop in front of `passed`, inside `c`.
      rcases Nat.lt_or_eq_of_le fits with left_over | exact_fit
      · exact absurd ⟨_, c, passed, whole.symm, by omega, by omega⟩ outside
      · exact exact_fit

end DraftDesk.Units

namespace DraftDesk.Toggle
open DraftDesk.Units

variable {opening closing left middle right content : List Char} {result : Toggled}

/-! ## Delimiters that share a part -/

/-- The delimiters share a part of what is selected, and counting the units of that part back from the
selection stops inside a character. -/
def SplitsCharacter (opening closing left middle : List Char) : Prop :=
  ∃ front shared back, front ++ shared = opening ∧ shared ++ back = closing ∧
    front ++ shared ++ back = middle ∧ StopsInside left (total shared)

theorem SplitsCharacter.overlap (h : SplitsCharacter opening closing left middle) :
    Overlap opening closing middle := by
  obtain ⟨front, shared, back, rfl, rfl, rfl, kept, c, passed, -, reached, -⟩ := h
  refine ⟨List.prefix_append .., ⟨front, by simp⟩, ?_⟩
  have some : shared ≠ [] := by
    rintro rfl
    exact absurd reached (Nat.not_lt_zero _)
  have pos := List.length_pos_iff.2 some
  simp only [List.length_append]
  omega

theorem collapse_eq {front shared back : List Char} (first : front ++ shared = opening)
    (last : shared ++ back = closing) (whole : front ++ shared ++ back = middle) :
    collapse opening closing left middle = total left - total shared := by
  simp only [collapse, ← first, ← last, ← whole, total_append]
  omega

theorem isBoundary_collapse_iff (overlap : Overlap opening closing middle) :
    IsBoundary left (collapse opening closing left middle) ↔
      ¬ SplitsCharacter opening closing left middle := by
  obtain ⟨front, shared, back, first, last, whole⟩ := overlap.shared
  rw [collapse_eq first last whole, isBoundary_sub_iff]
  apply not_congr
  constructor
  · intro inside
    exact ⟨front, shared, back, first, last, whole, inside⟩
  · rintro ⟨front', shared', back', first', last', whole', inside⟩
    -- What is shared has as many units as the delimiters have too many for the part.
    have same : total shared' = total shared := by
      have opens := congrArg total (first'.trans first.symm)
      have closes := congrArg total (last'.trans last.symm)
      have wholes := congrArg total (whole'.trans whole.symm)
      simp only [total_append] at opens closes wholes
      omega
    rwa [same] at inside

/-! ## The ends -/

theorem Meets.isBoundary_iff (meets : Meets opening closing left middle right content result) :
    (IsBoundary result.text.toList result.selection.start ↔
      ¬ SplitsCharacter opening closing left middle) ∧
    (IsBoundary result.text.toList result.selection.stop ↔
      ¬ SplitsCharacter opening closing left middle) := by
  rw [meets.text, List.append_assoc]
  by_cases overlap : Overlap opening closing middle
  · have place : collapse opening closing left middle ≤ total left := by
      obtain ⟨front, shared, back, first, last, whole⟩ := overlap.shared
      rw [collapse_eq first last whole]
      exact Nat.sub_le ..
    rw [meets.collapsed overlap, and_self, isBoundary_append_iff place]
    exact isBoundary_collapse_iff overlap
  · have apart : ¬ SplitsCharacter opening closing left middle := fun splits => overlap splits.overlap
    rw [(meets.covers overlap).1]
    refine ⟨iff_of_true (isBoundary_total_append ..) apart, iff_of_true ?_ apart⟩
    rw [← List.append_assoc]
    exact isBoundary_total_append ..

/-- Each end of what an active toggle selects is a boundary between characters of the new text,
unless the delimiters overlap in the selected part and counting back from it the units that they
share stops inside a character. -/
theorem selects_between_characters_iff (text : String) (selection : Selection)
    (delimiters : Delimiters) (active : selection.isActive) :
    ∃ left middle right result,
      Cut.at text.toList selection.start selection.stop = ⟨left, middle, right⟩ ∧
      toggle text selection delimiters = some result ∧
      (IsBoundary result.text.toList result.selection.start ↔
        ¬ SplitsCharacter delimiters.opening.toList delimiters.closing.toList left middle) ∧
      (IsBoundary result.text.toList result.selection.stop ↔
        ¬ SplitsCharacter delimiters.opening.toList delimiters.closing.toList left middle) := by
  obtain ⟨content, result, made, meets⟩ := exists_toggle_meets text active delimiters rfl
  exact ⟨_, _, _, result, rfl, made, meets.isBoundary_iff⟩

/-- Two units before the two selected stars is the front of the pair. -/
theorem selects_between_characters_before_pair :
    toggle "a😀**" ⟨3, 5, .forward⟩ Style.bold.delimiters =
      some ⟨"a😀**", ⟨1, 1, .forward⟩, .unwrapped⟩ ∧
    ¬ SplitsCharacter "**".toList "**".toList "a😀".toList "**".toList := by
  have cut : Cut.at "a😀**".toList 3 5 = ⟨"a😀".toList, "**".toList, []⟩ := by decide
  have collapsed : toggle "a😀**" ⟨3, 5, .forward⟩ Style.bold.delimiters =
      some ⟨"a😀**", ⟨1, 1, .forward⟩, .unwrapped⟩ := by decide
  obtain ⟨left, middle, right, result, found, made, starts, -⟩ :=
    selects_between_characters_iff "a😀**" ⟨3, 5, .forward⟩ Style.bold.delimiters rfl
  obtain ⟨rfl, rfl, rfl⟩ := Cut.mk.inj (found.symm.trans cut)
  obtain rfl := Option.some.inj (made.symm.trans collapsed)
  exact ⟨collapsed, starts.1 (by decide)⟩

/-- A selected underscore opens and closes itself, and one unit before it is the inside of a pair. -/
theorem not_selects_between_characters :
    ¬ ∀ (text : String) (selection : Selection) (delimiters : Delimiters) (result : Toggled),
      selection.isActive → toggle text selection delimiters = some result →
      IsBoundary result.text.toList result.selection.start ∧
      IsBoundary result.text.toList result.selection.stop := by
  intro between
  have applied : toggle "😀_" ⟨2, 3, .forward⟩ Style.emphasis.delimiters =
      some ⟨"😀_", ⟨1, 1, .forward⟩, .unwrapped⟩ := by decide
  obtain ⟨start, -⟩ := between _ _ _ _ rfl applied
  exact absurd start (by decide)

end DraftDesk.Toggle
