import DraftDesk.Lines

/-!
# How a text falls into lines

`EndsBetween` says where a line ends, and `Broken` which the lines of a text are: each goes up to the
first place where a line ends. There is one way to break a text so, and `split` is that way. `Falls`
says what one step of `split` does; that a line has none of the characters that are left out of it,
that a break which stays in it stands at its end, and that every line but the last is ended follow
from it line by line.
-/

namespace DraftDesk.Line

variable {text front back line rest : List Char} {lines others : List (List Char)} {l : Line}
  {ls : List Line} {c d : Char}

/-! ## Where a line ends -/

/-- A line ends behind `front` if `back` comes next. -/
def EndsBetween (front back : List Char) : Prop :=
  ∃ c ∈ front.getLast?, c = '\n' ∨ (c = '\r' ∧ back.head? ≠ some '\n') ∨ isKeptBreak c

/-- No line ends within `line` if `rest` comes behind it. -/
def Unbroken (line rest : List Char) : Prop :=
  ∀ front back, front ++ back = line → back ≠ [] → ¬ EndsBetween front (back ++ rest)

/-- A character that ends no line, whatever comes next. -/
structure IsOrdinary (c : Char) : Prop where
  lf : c ≠ '\n'
  cr : c ≠ '\r'
  kept : ¬ isKeptBreak c

theorem not_endsBetween_nil (back : List Char) : ¬ EndsBetween [] back := by
  rintro ⟨c, last, -⟩
  simp at last

theorem endsBetween_singleton_iff :
    EndsBetween [c] back ↔ c = '\n' ∨ (c = '\r' ∧ back.head? ≠ some '\n') ∨ isKeptBreak c := by
  simp [EndsBetween]

theorem endsBetween_cons_cons_iff :
    EndsBetween (c :: d :: front) back ↔ EndsBetween (d :: front) back := by
  rw [EndsBetween, EndsBetween, List.getLast?_cons_cons]

theorem IsOrdinary.endsBetween_cons_iff (ordinary : IsOrdinary c) :
    EndsBetween (c :: front) back ↔ EndsBetween front back := by
  cases front with
  | nil =>
    rw [endsBetween_singleton_iff]
    simp [ordinary.lf, ordinary.cr, ordinary.kept, not_endsBetween_nil]
  | cons d ds => exact endsBetween_cons_cons_iff

theorem unbroken_nil (rest : List Char) : Unbroken [] rest := by
  intro front back whole some
  exact absurd (List.append_eq_nil_iff.1 whole).2 some

/-- A line goes on if it does not end behind its first character. -/
theorem Unbroken.cons (unbroken : Unbroken line rest)
    (goes_on : line ≠ [] → ¬ EndsBetween [c] (line ++ rest)) : Unbroken (c :: line) rest := by
  intro front back whole some
  match front, whole with
  | [], _ => exact not_endsBetween_nil _
  | [d], whole =>
    obtain ⟨rfl, rfl⟩ := List.cons_eq_cons.1 whole
    exact goes_on some
  | d :: e :: front, whole =>
    obtain ⟨-, whole⟩ := List.cons_eq_cons.1 whole
    rw [endsBetween_cons_cons_iff]
    exact unbroken (e :: front) back whole some

theorem unbroken_singleton (c : Char) (rest : List Char) : Unbroken [c] rest :=
  (unbroken_nil rest).cons fun some => absurd rfl some

/-! ## Texts broken into lines -/

/-- The lines of a text with what ends them: each goes up to the first place where a line ends, and
behind the last such place there is a last line. -/
inductive Broken : List Char → List (List Char) → Prop where
  | last {line : List Char} (unbroken : Unbroken line []) (unended : ¬ EndsBetween line []) :
      Broken line [line]
  | next {line rest : List Char} {lines : List (List Char)} (unbroken : Unbroken line rest)
      (ends : EndsBetween line rest) (others : Broken rest lines) :
      Broken (line ++ rest) (line :: lines)

/-- A line that ends is not the beginning of a longer unbroken line of the same text. -/
private theorem eq_of_ends {line' rest' : List Char} (same : line ++ rest = line' ++ rest')
    (ends : EndsBetween line rest) (unbroken : Unbroken line' rest')
    (le : line.length ≤ line'.length) : line = line' := by
  obtain ⟨more, rfl⟩ := List.prefix_of_prefix_length_le (List.prefix_append line rest)
    (same ▸ List.prefix_append line' rest') le
  rw [List.append_assoc, List.append_cancel_left_eq] at same
  subst same
  cases more with
  | nil => rw [List.append_nil]
  | cons d ds => exact absurd ends (unbroken line (d :: ds) rfl nofun)

/-- No line ends within a last line. -/
private theorem not_ends_of_last (unbroken : Unbroken (line ++ rest) [])
    (unended : ¬ EndsBetween (line ++ rest) []) : ¬ EndsBetween line rest := by
  cases rest with
  | nil => rwa [List.append_nil] at unended
  | cons d ds =>
    have within := unbroken line (d :: ds) rfl nofun
    rwa [List.append_nil] at within

theorem Broken.unique (h : Broken text lines) (h' : Broken text others) : lines = others := by
  induction h generalizing others with
  | @last line unbroken unended =>
    generalize whole : line = text at h'
    cases h' with
    | last => rfl
    | next _ ends' =>
      subst whole
      exact absurd ends' (not_ends_of_last unbroken unended)
  | @next line rest lines unbroken ends _ ih =>
    generalize same : line ++ rest = text at h'
    cases h' with
    | last unbroken' unended' =>
      subst same
      exact absurd ends (not_ends_of_last unbroken' unended')
    | @next line' rest' lines' unbroken' ends' others' =>
      have sameLine : line = line' := by
        rcases Nat.le_total line.length line'.length with le | le
        · exact eq_of_ends same ends unbroken' le
        · exact (eq_of_ends same.symm ends' unbroken le).symm
      subst sameLine
      obtain rfl := List.append_cancel_left same
      rw [ih others']

/-! ## Lines as they are read -/

/-- A line with no character in it that is left out of lines, and with a break that stays in it only
at its end. -/
structure Clean (l : Line) : Prop where
  lf : '\n' ∉ l.content
  cr : '\r' ∉ l.content
  kept : ∀ front c back, l.content = front ++ c :: back → isKeptBreak c →
    back = [] ∧ l.ending = .absent

/-- A line with a break behind it or at its end. -/
def Ended (l : Line) : Prop := l.ending ≠ .absent ∨ ∃ c ∈ l.content.getLast?, isKeptBreak c

theorem clean_empty (ending : Ending) : Clean ⟨[], ending⟩ :=
  ⟨List.not_mem_nil, List.not_mem_nil, fun _ _ _ whole _ => by simp at whole⟩

theorem clean_kept (kept : isKeptBreak c) : Clean ⟨[c], .absent⟩ := by
  refine ⟨?_, ?_, ?_⟩
  · rw [List.mem_singleton]
    rintro rfl
    exact absurd kept (by decide)
  · rw [List.mem_singleton]
    rintro rfl
    exact absurd kept (by decide)
  · intro front d back whole _
    cases front with
    | nil => exact ⟨(List.cons_eq_cons.1 whole).2.symm, rfl⟩
    | cons e es => simp at whole

theorem Clean.cons (clean : l.Clean) (ordinary : IsOrdinary c) :
    Clean ⟨c :: l.content, l.ending⟩ := by
  refine ⟨?_, ?_, ?_⟩
  · simp [clean.lf, ordinary.lf.symm]
  · simp [clean.cr, ordinary.cr.symm]
  · intro front d back whole kept
    cases front with
    | nil =>
      obtain ⟨rfl, -⟩ := List.cons_eq_cons.1 whole
      exact absurd kept ordinary.kept
    | cons e es =>
      obtain ⟨-, whole⟩ := List.cons_eq_cons.1 whole
      exact clean.kept es d back whole kept

theorem Ended.cons (ended : l.Ended) (c : Char) : Ended ⟨c :: l.content, l.ending⟩ := by
  rcases ended with broken | ⟨d, last, kept⟩
  · exact .inl broken
  · refine .inr ⟨d, ?_, kept⟩
    rw [Option.mem_def] at last ⊢
    simp [List.getLast?_cons, last]

/-! ## One step -/

/-- A line that ends where the rest of a text comes next, and not before. -/
structure Leads (l : Line) (rest : List Char) : Prop where
  clean : l.Clean
  ended : l.Ended
  unbroken : Unbroken l.chars rest
  ends : EndsBetween l.chars rest

/-- A text falls into lines one by one. -/
inductive Falls : List Char → List Line → Prop where
  | last {text : List Char} (clean : Clean ⟨text, .absent⟩) (unbroken : Unbroken text [])
      (unended : ¬ EndsBetween text []) : Falls text [⟨text, .absent⟩]
  | next {l : Line} {rest : List Char} {ls : List Line} (leads : l.Leads rest)
      (others : Falls rest ls) : Falls (l.chars ++ rest) (l :: ls)

theorem leads_lf (rest : List Char) : Leads ⟨[], .lf⟩ rest :=
  ⟨clean_empty _, .inl nofun, unbroken_singleton _ _, '\n', rfl, .inl rfl⟩

theorem leads_cr (other : rest.head? ≠ some '\n') : Leads ⟨[], .cr⟩ rest :=
  ⟨clean_empty _, .inl nofun, unbroken_singleton _ _, '\r', rfl, .inr (.inl ⟨rfl, other⟩)⟩

theorem leads_crlf (rest : List Char) : Leads ⟨[], .crlf⟩ rest := by
  -- Behind the CR comes the LF, so the line does not end there yet.
  have goes_on : ¬ EndsBetween ['\r'] (['\n'] ++ rest) := by
    rw [endsBetween_singleton_iff]
    rintro (lf | ⟨-, other⟩ | kept)
    · exact absurd lf (by decide)
    · exact other rfl
    · exact absurd kept (by decide)
  exact ⟨clean_empty _, .inl nofun, (unbroken_singleton _ _).cons fun _ => goes_on,
    '\n', rfl, .inl rfl⟩

theorem leads_kept (kept : isKeptBreak c) (rest : List Char) : Leads ⟨[c], .absent⟩ rest :=
  ⟨clean_kept kept, .inr ⟨c, rfl, kept⟩, unbroken_singleton _ _, c, rfl, .inr (.inr kept)⟩

/-- An ordinary character goes in front of the first line. -/
theorem Falls.push (falls : Falls text ls) (ordinary : IsOrdinary c) :
    Falls (c :: text) (push c ls) := by
  have goes_on : ∀ next, ¬ EndsBetween [c] next := fun next ends =>
    not_endsBetween_nil next (ordinary.endsBetween_cons_iff.1 ends)
  cases falls with
  | last clean unbroken unended =>
    exact .last (clean.cons ordinary) (unbroken.cons fun _ => goes_on _)
      (mt ordinary.endsBetween_cons_iff.1 unended)
  | @next l rest ls leads others =>
    exact .next ⟨leads.clean.cons ordinary, leads.ended.cons c, leads.unbroken.cons fun _ => goes_on _,
      ordinary.endsBetween_cons_iff.2 leads.ends⟩ others

theorem falls_split (text : List Char) : Falls text (split text) := by
  fun_induction split text with
  | case1 => exact .last (clean_empty _) (unbroken_nil _) (not_endsBetween_nil _)
  | case2 rest ih => exact .next (leads_crlf rest) ih
  | case3 rest ih => exact .next (leads_lf rest) ih
  | case4 rest other ih =>
    have not_lf : rest.head? ≠ some '\n' := by
      intro lf
      obtain ⟨cs, whole⟩ := List.head?_eq_some_iff.1 lf
      exact other cs whole
    exact .next (leads_cr not_lf) ih
  | case5 c rest _ _ _ kept ih => exact .next (leads_kept kept rest) ih
  | case6 c rest _ lf cr kept ih => exact ih.push ⟨lf, cr, kept⟩

/-! ## Every line -/

theorem Falls.broken (falls : Falls text ls) : Broken text (ls.map chars) := by
  induction falls with
  | last clean unbroken unended =>
    rw [List.map_singleton, chars, Ending.chars, List.append_nil]
    exact .last unbroken unended
  | next leads _ ih => exact .next leads.unbroken leads.ends ih

theorem Falls.clean (falls : Falls text ls) : ∀ l ∈ ls, l.Clean := by
  induction falls with
  | last clean => simpa using clean
  | next leads _ ih => exact List.forall_mem_cons.2 ⟨leads.clean, ih⟩

theorem Falls.ne_nil (falls : Falls text ls) : ls ≠ [] := by
  cases falls <;> exact List.cons_ne_nil _ _

theorem Falls.ended (falls : Falls text ls) : ∀ l ∈ ls.dropLast, l.Ended := by
  induction falls with
  | last => simp
  | next leads others ih =>
    rw [List.dropLast_cons_of_ne_nil others.ne_nil]
    exact List.forall_mem_cons.2 ⟨leads.ended, ih⟩

/-- The lines of `split` are the lines that the text is broken into. -/
theorem broken_iff_split : Broken text lines ↔ lines = (split text).map chars := by
  constructor
  · intro broken
    exact broken.unique (falls_split text).broken
  · rintro rfl
    exact (falls_split text).broken

/-- What reading a text line by line loses: the lines with their breaks make up the text, nothing in
a line is a break that is left out of lines, a break that stays in a line is its end, and every line
but the last ends with a break. -/
structure LosesOnlyBreaks (text : List Char) (ls : List Line) : Prop where
  whole : ls.flatMap chars = text
  clean : ∀ l ∈ ls, l.Clean
  ended : ∀ l ∈ ls.dropLast, l.Ended

theorem losesOnlyBreaks_split (text : List Char) : LosesOnlyBreaks text (split text) where
  whole := flatMap_chars_split text
  clean := (falls_split text).clean
  ended := (falls_split text).ended

end DraftDesk.Line
