import DraftDesk.Toggle

/-!
# Boundaries between characters

`Longest limit text start` says what a cut at an offset is: the longest beginning of the text that
the offset leaves room for. `fit` is that beginning, so the boundary an offset stands for,
`snap`, is the last one at or before it. A cut at two offsets is made of the two longest
beginnings.
-/

namespace DraftDesk.Units

/-- The longest beginning of a text with at most `limit` units. -/
structure Longest (limit : Nat) (text start : List Char) : Prop where
  begins : start <+: text
  fits : total start ≤ limit
  longest : ∀ other, other <+: text → total other ≤ limit → other <+: start

/-- The last boundary between characters at or before an offset. -/
def snap (limit : Nat) (text : List Char) : Nat := total (fit limit text)

/-! ## Two beginnings -/

theorem total_pos {cs : List Char} (h : cs ≠ []) : 0 < total cs := by
  obtain ⟨c, rest, rfl⟩ := List.exists_cons_of_ne_nil h
  have pos := width_pos c
  rw [total_cons]
  omega

/-- Of two beginnings of a text the one that measures less comes first. -/
theorem isPrefix_iff_le {measure : List Char → Nat}
    (append : ∀ xs ys, measure (xs ++ ys) = measure xs + measure ys)
    (pos : ∀ {cs}, cs ≠ [] → 0 < measure cs) {start other text : List Char}
    (begins : start <+: text) (others : other <+: text) :
    start <+: other ↔ measure start ≤ measure other := by
  constructor
  · rintro ⟨rest, rfl⟩
    rw [append]
    exact Nat.le_add_right ..
  · intro le
    rcases List.prefix_or_prefix_of_prefix begins others with before | ⟨rest, rfl⟩
    · exact before
    · -- What the longer one has more measures nothing, so it is nothing.
      by_cases none : rest = []
      · exact ⟨[], by rw [none, List.append_nil, List.append_nil]⟩
      · have more := pos none
        rw [append] at le
        omega

/-! ## The longest beginning -/

theorem isPrefix_fit (limit : Nat) (text : List Char) : fit limit text <+: text :=
  ⟨beyond limit text, fit_append_beyond limit text⟩

theorem longest_fit (limit : Nat) (text : List Char) : Longest limit text (fit limit text) := by
  refine ⟨isPrefix_fit limit text, total_fit_le limit text, ?_⟩
  rintro other ⟨rest, rfl⟩ room
  -- The offset leaves room for `other`, so the cut first takes `other` and then goes on.
  have taken := fit_total_add other rest (limit - total other)
  rw [Nat.add_sub_cancel' room] at taken
  exact ⟨_, taken.symm⟩

theorem Longest.eq_fit {limit : Nat} {text start : List Char} (h : Longest limit text start) :
    start = fit limit text := by
  have cut := longest_fit limit text
  have short := cut.longest start h.begins h.fits
  have long := h.longest (fit limit text) cut.begins cut.fits
  exact short.eq_of_length_le long.length_le

theorem snap_le (limit : Nat) (text : List Char) : snap limit text ≤ limit :=
  total_fit_le limit text

/-- A cut at the later of two offsets is a cut at the earlier one and another one in the rest. -/
theorem fit_eq_fit_append {early late : Nat} (text : List Char) (h : early ≤ late) :
    fit late text =
      fit early text ++ fit (late - snap early text) (beyond early text) := by
  have le := snap_le early text
  have taken := fit_total_add (fit early text) (beyond early text) (late - snap early text)
  rwa [fit_append_beyond, ← snap, Nat.add_sub_cancel' (Nat.le_trans le h)] at taken

theorem fit_of_total_le {n : Nat} {cs : List Char} (h : total cs ≤ n) : fit n cs = cs := by
  have taken := fit_total_add cs [] (n - total cs)
  rwa [Nat.add_sub_cancel' h, fit, List.append_nil] at taken

/-- An offset inside a character stands for its start. -/
theorem fit_inside {front back : List Char} {c : Char} {unit : Nat} (inside : unit < width c) :
    fit (total front + unit) (front ++ c :: back) = front := by
  have none_fits : ¬ width c ≤ unit := Nat.not_le.2 inside
  rw [fit_total_add, fit, if_neg none_fits, List.append_nil]

/-- An offset past the end of a text stands for the end. -/
theorem fit_min_total (n : Nat) (cs : List Char) : fit (min n (total cs)) cs = fit n cs := by
  rcases Nat.le_total n (total cs) with inside | past
  · rw [Nat.min_eq_left inside]
  · rw [Nat.min_eq_right past, fit_of_total_le past, fit_of_total_le (Nat.le_refl _)]

end DraftDesk.Units

namespace DraftDesk.Cut
open DraftDesk.Units

/-! ## Cuts at two offsets -/

theorem left_at (text : List Char) (start stop : Nat) : (Cut.at text start stop).left = fit start text :=
  rfl

theorem left_append_middle_at (text : List Char) (start stop : Nat) :
    (Cut.at text start stop).left ++ (Cut.at text start stop).middle = fit (max start stop) text :=
  (fit_eq_fit_append text (Nat.le_max_left start stop)).symm

theorem longest_left_at (text : List Char) (start stop : Nat) :
    Longest start text (Cut.at text start stop).left :=
  longest_fit start text

theorem longest_left_append_middle_at (text : List Char) (start stop : Nat) :
    Longest (max start stop) text
      ((Cut.at text start stop).left ++ (Cut.at text start stop).middle) := by
  rw [left_append_middle_at]
  exact longest_fit (max start stop) text

theorem total_left_at (text : List Char) (start stop : Nat) :
    total (Cut.at text start stop).left = snap start text :=
  rfl

theorem total_middle_at (text : List Char) (start stop : Nat) :
    snap start text + total (Cut.at text start stop).middle = snap (max start stop) text := by
  rw [← total_left_at text start stop, ← total_append, left_append_middle_at]
  rfl

/-- A cut at the bounds of a part finds that part. -/
theorem at_append (left middle right : List Char) :
    Cut.at (left ++ middle ++ right) (total left) (total left + total middle) =
      ⟨left, middle, right⟩ := by
  simp [Cut.at, List.append_assoc]

theorem at_ofList_append (left middle right : List Char) :
    Cut.at (String.ofList (left ++ middle ++ right)).toList (total left) (total left + total middle) =
      ⟨left, middle, right⟩ := by
  rw [String.toList_ofList, at_append]

theorem middle_at_self (text : List Char) (n : Nat) : (Cut.at text n n).middle = [] := by
  have reached := left_append_middle_at text n n
  rw [Nat.max_self, left_at] at reached
  exact List.append_cancel_left (reached.trans (List.append_nil _).symm)

/-- A cut is told by what comes before each of its two places. -/
theorem at_congr {text : List Char} {a b a' b' : Nat} (start : fit a text = fit a' text)
    (reach : fit (max a b) text = fit (max a' b') text) : Cut.at text a b = Cut.at text a' b' := by
  have front : (Cut.at text a b).left = (Cut.at text a' b').left := start
  rw [← left_append_middle_at, ← left_append_middle_at text a' b'] at reach
  have whole := (append_at text a b).trans (append_at text a' b').symm
  generalize Cut.at text a b = first at *
  generalize Cut.at text a' b' = second at *
  obtain ⟨left, middle, right⟩ := first
  obtain ⟨left', middle', right'⟩ := second
  dsimp only at front reach whole
  subst front
  obtain rfl := List.append_cancel_left reach
  obtain rfl := List.append_cancel_left whole
  rfl

end DraftDesk.Cut
