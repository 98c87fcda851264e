import DraftDesk.Proofs.ToggleReference

/-!
# Toggling again and again

Each toggle works on the part that the one before it left selected. As long as none wraps, every
one of them takes at least one unit off that part: a delimiter, or, where the delimiters overlap,
the whole of it, since what is selected then is a single place. So a toggle that wraps comes after
at most as many others as the part had units. It is undone by the next one, which leaves the
part bare again, and from there on two results take turns.
-/

namespace DraftDesk.Toggle
open DraftDesk.Units

/-- The part of a text that a toggle works on. -/
def selectedPart (text : String) (selection : Selection) : List Char :=
  (Cut.at text.toList selection.start selection.stop).middle

/-- The result of a toggle that comes after `n` others, each on what the one before it left. -/
def again (delimiters : Delimiters) : Nat → String → Selection → Option Toggled
  | 0, text, selection => toggle text selection delimiters
  | n + 1, text, selection =>
    (toggle text selection delimiters).bind fun first =>
      again delimiters n first.text first.selection

/-- After some toggles that do not wrap one does, and from then on its result and that of the next
one take turns. -/
structure Settles (delimiters : Delimiters) (text : String) (selection : Selection) (others : Nat)
    (wrapped bare : Toggled) : Prop where
  before : ∀ n < others, ∃ result,
    again delimiters n text selection = some result ∧ result.change ≠ .wrapped
  wraps : wrapped.change = .wrapped
  unwraps : bare.change = .unwrapped
  different : wrapped.text ≠ bare.text
  even : ∀ n, again delimiters (others + 2 * n) text selection = some wrapped
  odd : ∀ n, again delimiters (others + 2 * n + 1) text selection = some bare

variable {delimiters : Delimiters} {text : String} {selection : Selection}
  {first wrapped bare : Toggled} {others : Nat}

theorem again_succ (applied : toggle text selection delimiters = some first) (n : Nat) :
    again delimiters (n + 1) text selection = again delimiters n first.text first.selection := by
  rw [again, applied, Option.bind_some]

theorem isActive_selection (applied : toggle text selection delimiters = some first) :
    first.selection.isActive := by
  rw [toggle_eq_put (isActive_of_toggle applied) rfl, Option.some.injEq] at applied
  subst applied
  rfl

/-- What is applied is what the text is owed. -/
theorem exists_meets (applied : toggle text selection delimiters = some first) :
    ∃ content, Meets delimiters.opening.toList delimiters.closing.toList
      (Cut.at text.toList selection.start selection.stop).left (selectedPart text selection)
      (Cut.at text.toList selection.start selection.stop).right content first := by
  obtain ⟨content, result, made, meets⟩ :=
    exists_toggle_meets text (isActive_of_toggle applied) delimiters rfl
  obtain rfl := Option.some.inj (made.symm.trans applied)
  exact ⟨content, meets⟩

/-! ## Until a toggle wraps -/

/-- A toggle that does not wrap leaves less selected than it found. -/
theorem total_selectedPart_lt (opening : delimiters.opening.toList ≠ [])
    (closing : delimiters.closing.toList ≠ [])
    (applied : toggle text selection delimiters = some first) (change : first.change ≠ .wrapped) :
    total (selectedPart first.text first.selection) < total (selectedPart text selection) := by
  have opens := total_pos opening
  have closes := total_pos closing
  obtain ⟨content, meets⟩ := exists_meets applied
  by_cases overlap : Overlap delimiters.opening.toList delimiters.closing.toList
      (selectedPart text selection)
  · -- Only a place is selected now, and the opening delimiter was in the part.
    have collapsed : selectedPart first.text first.selection = [] := by
      rw [meets.collapsed overlap]
      exact Cut.middle_at_self _ _
    obtain ⟨rest, whole⟩ := overlap.1
    rw [collapsed, total_nil, ← whole, total_append]
    omega
  · have left : selectedPart first.text first.selection = content :=
      congrArg Cut.middle (meets.covers overlap).2
    rw [left]
    cases taken : first.change with
    | wrapped => exact absurd taken change
    | unwrapped =>
      have whole := meets.enclosed taken overlap
      rw [← whole, total_append, total_append]
      omega
    | strippedOpening =>
      have whole := meets.strippedOpening taken
      rw [← whole, total_append]
      omega
    | strippedClosing =>
      have whole := meets.strippedClosing taken
      rw [← whole, total_append]
      omega

/-! ## From a toggle that wraps on -/

/-- A toggle that wraps is undone by the next one, and that by the one after it. -/
theorem bare_of_wrapped (applied : toggle text selection delimiters = some wrapped)
    (wraps : wrapped.change = .wrapped) :
    ∃ bare, bare.change = .unwrapped ∧ bare.text = text ∧
      toggle wrapped.text wrapped.selection delimiters = some bare ∧
      toggle bare.text bare.selection delimiters = some wrapped := by
  generalize cut : Cut.at text.toList selection.start selection.stop = c
  obtain ⟨left, middle, right⟩ := c
  obtain ⟨there, back⟩ := toggle_back_and_forth applied wraps cut
  exact ⟨_, rfl, rfl, there, back⟩

/-- Two results that each lead to the other take turns. -/
theorem again_turns (there : toggle wrapped.text wrapped.selection delimiters = some bare)
    (back : toggle bare.text bare.selection delimiters = some wrapped) (n : Nat) :
    again delimiters (2 * n) wrapped.text wrapped.selection = some bare ∧
      again delimiters (2 * n + 1) wrapped.text wrapped.selection = some wrapped := by
  induction n with
  | zero =>
    refine ⟨there, ?_⟩
    rw [Nat.mul_zero, again_succ there]
    exact back
  | succ n ih =>
    have twice : ∀ m, again delimiters (m + 2) wrapped.text wrapped.selection =
        again delimiters m wrapped.text wrapped.selection := by
      intro m
      rw [again_succ there, again_succ back]
    rw [Nat.mul_succ, Nat.add_right_comm, twice, twice]
    exact ih

/-- Delimiters that are not empty make a text longer. -/
theorem text_ne_of_wrapped (opening : delimiters.opening.toList ≠ [])
    (applied : toggle text selection delimiters = some wrapped) (wraps : wrapped.change = .wrapped) :
    wrapped.text ≠ text := by
  intro same
  obtain ⟨content, meets⟩ := exists_meets applied
  have whole := Cut.append_at text.toList selection.start selection.stop
  have longer := meets.text
  rw [meets.wrapped wraps, same] at longer
  have lengths := congrArg List.length (whole.trans longer)
  have opens := List.length_pos_iff.2 opening
  simp only [List.length_append, selectedPart] at lengths
  omega

/-! ## Every run -/

theorem settles_of_wrapped (opening : delimiters.opening.toList ≠ [])
    (applied : toggle text selection delimiters = some wrapped) (wraps : wrapped.change = .wrapped) :
    ∃ bare, Settles delimiters text selection 0 wrapped bare := by
  obtain ⟨bare, unwraps, rfl, there, back⟩ := bare_of_wrapped applied wraps
  have turns := again_turns there back
  refine ⟨bare, nofun, wraps, unwraps, text_ne_of_wrapped opening applied wraps, ?_, ?_⟩
  · intro n
    cases n with
    | zero => exact applied
    | succ n =>
      have later : 0 + 2 * (n + 1) = 2 * n + 1 + 1 := by omega
      rw [later, again_succ applied]
      exact (turns n).2
  · intro n
    rw [Nat.zero_add, again_succ applied]
    exact (turns n).1

/-- One toggle more in front that does not wrap. -/
theorem Settles.after (h : Settles delimiters first.text first.selection others wrapped bare)
    (applied : toggle text selection delimiters = some first) (change : first.change ≠ .wrapped) :
    Settles delimiters text selection (others + 1) wrapped bare where
  before := by
    intro n earlier
    cases n with
    | zero => exact ⟨first, applied, change⟩
    | succ n =>
      rw [again_succ applied]
      exact h.before n (Nat.lt_of_succ_lt_succ earlier)
  wraps := h.wraps
  unwraps := h.unwraps
  different := h.different
  even := by
    intro n
    rw [Nat.add_right_comm, again_succ applied]
    exact h.even n
  odd := by
    intro n
    rw [Nat.add_right_comm others 1, again_succ applied]
    exact h.odd n

/-- With delimiters that are not empty, toggling again and again comes to a toggle that wraps after
at most as many others as the selected part has units, and from then on the text changes between
two states. -/
theorem toggles_settle (text : String) (selection : Selection) (delimiters : Delimiters)
    (active : selection.isActive) (opening : delimiters.opening ≠ "")
    (closing : delimiters.closing ≠ "") :
    ∃ others ≤ total (selectedPart text selection), ∃ wrapped bare,
      Settles delimiters text selection others wrapped bare := by
  have opens : delimiters.opening.toList ≠ [] := by simpa using opening
  have closes : delimiters.closing.toList ≠ [] := by simpa using closing
  generalize size : total (selectedPart text selection) = units
  induction units using Nat.strongRecOn generalizing text selection with
  | ind units ih =>
    obtain ⟨-, first, applied, -⟩ := exists_toggle_meets text active delimiters rfl
    by_cases wraps : first.change = .wrapped
    · obtain ⟨bare, settles⟩ := settles_of_wrapped opens applied wraps
      exact ⟨0, Nat.zero_le _, first, bare, settles⟩
    · have less := total_selectedPart_lt opens closes applied wraps
      rw [size] at less
      obtain ⟨others, few, wrapped, bare, settles⟩ :=
        ih _ less first.text first.selection (isActive_selection applied) rfl
      exact ⟨others + 1, Nat.lt_of_le_of_lt few less, wrapped, bare, settles.after applied wraps⟩

example : (again Style.bold.delimiters 2 "😀*******" ⟨2, 12, .backward⟩).map Toggled.text =
    some "****😀*" := by decide

/-- Seven stars lose two pairs. In the three that are left the pairs overlap, and the place that is
selected then is inside a character. -/
theorem toggles_settle_after_overlap :
    ((⟨2, 12, .backward⟩ : Selection).isActive ∧ Style.bold.delimiters.opening ≠ "" ∧
      Style.bold.delimiters.closing ≠ "") ∧
    ∃ others ≤ total (selectedPart "😀*******" ⟨2, 12, .backward⟩), ∃ wrapped bare,
      Settles Style.bold.delimiters "😀*******" ⟨2, 12, .backward⟩ others wrapped bare :=
  ⟨⟨rfl, by decide, by decide⟩,
    toggles_settle "😀*******" ⟨2, 12, .backward⟩ Style.bold.delimiters rfl (by decide) (by decide)⟩

end DraftDesk.Toggle
