/-!
# Pieces of a text

Texts cut at separators, and what follows a given beginning.
-/

namespace DraftDesk.Pieces

/-- The pieces between the separators; there is one more than there are separators. -/
def split (isSeparator : Char → Bool) : List Char → List (List Char)
  | [] => [[]]
  | c :: cs =>
    if isSeparator c then [] :: split isSeparator cs
    else match split isSeparator cs with
      | piece :: pieces => (c :: piece) :: pieces
      | [] => [[c]]

/-- The pieces that are not empty. -/
def words (isSeparator : Char → Bool) (cs : List Char) : List (List Char) :=
  (split isSeparator cs).filter (· ≠ [])

/-- What comes before the first separator, and what comes after it if there is one. -/
def cut (isSeparator : Char → Bool) (cs : List Char) : List Char × Option (List Char) :=
  (cs.takeWhile (!isSeparator ·), match cs.dropWhile (!isSeparator ·) with
    | _ :: rest => some rest
    | [] => none)

/-- What follows a word that a text begins with. -/
def after? : List Char → List Char → Option (List Char)
  | [], cs => some cs
  | w :: ws, c :: cs => if w = c then after? ws cs else none
  | _ :: _, [] => none

/-! ## Between separators -/

variable {isSeparator : Char → Bool} {cs piece word rest : List Char} {c : Char}

theorem split_of_forall (h : ∀ c ∈ cs, isSeparator c = false) : split isSeparator cs = [cs] := by
  induction cs with
  | nil => rfl
  | cons c cs ih =>
    have none : isSeparator c = false := h c (List.mem_cons_self ..)
    simp [split, none, ih fun d mem => h d (List.mem_cons_of_mem _ mem)]

theorem beq_of_not_mem (h : c ∉ cs) : ∀ d ∈ cs, (d == c) = false := by
  intro d inside
  have different : d ≠ c := fun same => h (same ▸ inside)
  simpa using different

theorem split_of_not_mem (h : c ∉ cs) : split (· == c) cs = [cs] :=
  split_of_forall (beq_of_not_mem h)

theorem split_ne_nil (isSeparator : Char → Bool) (cs : List Char) : split isSeparator cs ≠ [] := by
  fun_cases split isSeparator cs <;> simp

/-- Texts on the two sides of a separator are cut on their own. -/
theorem split_append_cons (h : isSeparator c = true) (xs ys : List Char) :
    split isSeparator (xs ++ c :: ys) = split isSeparator xs ++ split isSeparator ys := by
  induction xs with
  | nil => simp [split, h]
  | cons x xs ih =>
    obtain ⟨first, others, front⟩ := List.exists_cons_of_ne_nil (split_ne_nil isSeparator xs)
    by_cases separates : isSeparator x = true
    · simp [split, separates, ih]
    · simp [split, separates, ih, front]

theorem split_append_cons_self (c : Char) (xs ys : List Char) :
    split (· == c) (xs ++ c :: ys) = split (· == c) xs ++ split (· == c) ys :=
  split_append_cons (by simp) xs ys

/-- A piece has nothing in it that the text has not. -/
theorem sublist_of_mem_split (mem : piece ∈ split isSeparator cs) : piece.Sublist cs := by
  induction cs generalizing piece with
  | nil =>
    rw [split, List.mem_singleton] at mem
    subst mem
    exact .slnil
  | cons x xs ih =>
    obtain ⟨first, others, front⟩ := List.exists_cons_of_ne_nil (split_ne_nil isSeparator xs)
    by_cases separates : isSeparator x = true
    · simp only [split, separates, if_true, List.mem_cons] at mem
      rcases mem with rfl | mem
      · exact List.nil_sublist _
      · exact (ih mem).cons x
    · simp only [split, separates, front, Bool.false_eq_true, if_false, List.mem_cons] at mem
      rcases mem with rfl | mem
      · exact (ih (by simp [front])).cons_cons x
      · exact (ih (by simp [front, mem])).cons x

/-- No separator is left in a piece. -/
theorem of_mem_split (mem : piece ∈ split isSeparator cs) (inside : c ∈ piece) :
    isSeparator c = false := by
  induction cs generalizing piece with
  | nil =>
    rw [split, List.mem_singleton] at mem
    simp [mem] at inside
  | cons x xs ih =>
    obtain ⟨first, others, front⟩ := List.exists_cons_of_ne_nil (split_ne_nil isSeparator xs)
    by_cases separates : isSeparator x = true
    · simp only [split, separates, if_true, List.mem_cons] at mem
      rcases mem with rfl | mem
      · simp at inside
      · exact ih mem inside
    · simp only [split, separates, front, Bool.false_eq_true, if_false, List.mem_cons] at mem
      rcases mem with rfl | mem
      · rcases List.mem_cons.1 inside with rfl | inside
        · simpa using separates
        · exact ih (by simp [front]) inside
      · exact ih (by simp [front, mem]) inside

theorem words_append_cons (h : isSeparator c = true) (xs ys : List Char) :
    words isSeparator (xs ++ c :: ys) = words isSeparator xs ++ words isSeparator ys := by
  rw [words, split_append_cons h, List.filter_append, words, words]

theorem words_of_forall (h : ∀ c ∈ cs, isSeparator c = false) (full : cs ≠ []) :
    words isSeparator cs = [cs] := by
  simp [words, split_of_forall h, full]

theorem of_mem_words (mem : word ∈ words isSeparator cs) :
    word ≠ [] ∧ ∀ c ∈ word, isSeparator c = false := by
  obtain ⟨cut, full⟩ := List.mem_filter.1 mem
  exact ⟨by simpa using full, fun c inside => of_mem_split cut inside⟩

/-- What comes after the first separator is an end of the text. -/
theorem isSuffix_of_cut (h : (cut isSeparator cs).2 = some rest) : rest <:+ cs := by
  have whole := List.dropWhile_suffix (!isSeparator ·) (l := cs)
  cases after : cs.dropWhile (!isSeparator ·) with
  | nil => simp [cut, after] at h
  | cons c tail =>
    simp only [cut, after, Option.some.injEq] at h
    rw [after, h] at whole
    exact (List.suffix_cons c rest).trans whole

theorem cut_append_cons (plain : ∀ c ∈ piece, isSeparator c = false) (h : isSeparator c = true)
    (rest : List Char) : cut isSeparator (piece ++ c :: rest) = (piece, some rest) := by
  have skips : ∀ d ∈ piece, (!isSeparator d) = true := by simpa using plain
  simp [cut, List.takeWhile_append_of_pos skips, List.dropWhile_append_of_pos skips, h]

/-- A text is what comes before the first separator, then the separator and what comes after it. -/
theorem of_cut (h : cut isSeparator cs = (piece, some rest)) :
    ∃ c, isSeparator c = true ∧ cs = piece ++ c :: rest := by
  have whole : cs.takeWhile (!isSeparator ·) ++ cs.dropWhile (!isSeparator ·) = cs :=
    List.takeWhile_append_dropWhile
  obtain ⟨before, behind⟩ := Prod.mk.inj h
  cases after : cs.dropWhile (!isSeparator ·) with
  | nil => simp [after] at behind
  | cons c tail =>
    obtain rfl : tail = rest := by simpa [after] using behind
    refine ⟨c, ?_, by rw [← before, ← after, whole]⟩
    have stops := List.head?_dropWhile_not (!isSeparator ·) cs
    simpa [after] using stops

theorem eq_of_cut_none (h : cut isSeparator cs = (piece, none)) : cs = piece := by
  have whole : cs.takeWhile (!isSeparator ·) ++ cs.dropWhile (!isSeparator ·) = cs :=
    List.takeWhile_append_dropWhile
  obtain ⟨before, behind⟩ := Prod.mk.inj h
  cases after : cs.dropWhile (!isSeparator ·) with
  | nil => rw [← whole, before, after, List.append_nil]
  | cons c tail => simp [after] at behind

theorem cut_of_not_mem (h : c ∉ cs) : cut (· == c) cs = (cs, none) := by
  rcases parted : cut (· == c) cs with ⟨piece, _ | rest⟩
  · rw [eq_of_cut_none parted]
  · obtain ⟨d, separates, rfl⟩ := of_cut parted
    have plain := beq_of_not_mem h d (by simp)
    simp [separates] at plain

/-- A text is cut at the first separator. -/
theorem cut_append_cons_self (h : c ∉ piece) (rest : List Char) :
    cut (· == c) (piece ++ c :: rest) = (piece, some rest) :=
  cut_append_cons (beq_of_not_mem h) (by simp) rest

/-! ## Behind a word -/

theorem after?_eq_some_iff {word cs rest : List Char} :
    after? word cs = some rest ↔ cs = word ++ rest := by
  fun_induction after? word cs with
  | case1 => simp [eq_comm]
  | case2 w ws cs ih => simp [ih]
  | case3 w ws c cs different => simp [Ne.symm different]
  | case4 => simp

theorem length_after? {word cs rest : List Char} (h : after? word cs = some rest) :
    rest.length ≤ cs.length := by
  simp [after?_eq_some_iff.1 h]

end DraftDesk.Pieces
