import DraftDesk.Proofs.WrittenTokens

/-!
# Values as they are written

A value that is written with blanks between its tokens is read back as itself. The reader is at a
place where a value may come, and after the text of the value it is where it would be had it met
the value in one step (`ReadsBack`); for a bracket that holds by induction on what stands in it,
with the items read so far in the innermost frame.
-/

namespace DraftDesk.Json

/-- Every number in a value is an integer. -/
inductive Integral : Json → Prop where
  | null : Integral .null
  | bool (value : Bool) : Integral (.bool value)
  | integer (value : Int) : Integral (.integer value)
  | string (text : Option String) : Integral (.string text)
  | array {items : List Json} (each : ∀ item ∈ items, Integral item) : Integral (.array items)
  | object {members : List (Option String × Json)} (each : ∀ member ∈ members, Integral member.2) :
    Integral (.object members)

/-- Only white space is written between the tokens. -/
structure Layout.Blank (layout : Layout) : Prop where
  line : ∀ depth, ∀ c ∈ layout.line depth, isBlank c = true
  afterColon : ∀ c ∈ layout.afterColon, isBlank c = true

theorem Layout.blank_compact : Layout.compact.Blank :=
  ⟨fun _ _ none => absurd none List.not_mem_nil, fun _ none => absurd none List.not_mem_nil⟩

theorem Layout.blank_indented : Layout.indented.Blank := by
  constructor
  · intro depth c inside
    rcases List.mem_cons.1 inside with rfl | inside
    · rfl
    · rw [List.eq_of_mem_replicate inside]
      rfl
  · intro c inside
    rw [List.mem_singleton.1 inside]
    rfl

/-! ## Single tokens -/

variable {cs rest blanks : List Char} {token : Token}

theorem isBlank_of_token? {c : Char} (found : token? (c :: cs) = some (token, rest)) :
    isBlank c = false := by
  apply eq_false_of_ne_true
  intro blank
  simp only [isBlank, Bool.or_eq_true, beq_iff_eq] at blank
  rcases blank with ((rfl | rfl) | rfl) | rfl <;> simp [token?, magnitude?] at found

theorem dropWhile_of_token? (found : token? cs = some (token, rest)) : cs.dropWhile isBlank = cs := by
  cases cs with
  | nil => rfl
  | cons c cs => simp [isBlank_of_token? found]

theorem run_blanks (progress : Progress) (blank : ∀ c ∈ blanks, isBlank c = true) (cs : List Char) :
    progress.run (blanks ++ cs) = progress.run cs := by
  have skipped : (blanks ++ cs).dropWhile isBlank = cs.dropWhile isBlank :=
    List.dropWhile_append_of_pos blank
  unfold Progress.run
  rw [skipped]

theorem run_token (progress : Progress) (found : token? cs = some (token, rest)) :
    progress.run cs = (progress.step token).bind fun next => next.run rest := by
  have skipped := dropWhile_of_token? found
  rw [Progress.run.eq_def, skipped]
  split
  · rename_i other read same
    rw [found] at same
    cases same
    cases progress.step token <;> rfl
  · rename_i none
    rw [found] at none
    cases none

theorem run_done (value : Json) : (Progress.done value).run [] = some value := by
  rw [Progress.run.eq_def]
  rfl

/-! ## Where a value stands -/

/-- A value that is read where one may come, and after which no number goes on, is put into the
innermost frame. -/
def ReadsBack (layout : Layout) (value : Json) : Prop :=
  ∀ (depth : Nat) (frames : List Frame) (expect : Expect) (rest : List Char),
    expect = .value ∨ expect = .firstItem → NumberEnds rest →
    (Progress.reading frames expect).run (value.write layout depth ++ rest) =
      (finish value frames).bind fun next => next.run rest

theorem readsBack_scalar {layout : Layout} {value : Json}
    (read : ∀ depth rest, NumberEnds rest →
      token? (value.write layout depth ++ rest) = some (.scalar value, rest)) :
    ReadsBack layout value := by
  intro depth frames expect rest place ends
  rw [run_token _ (read depth rest ends)]
  rcases place with rfl | rfl <;> rfl

variable {layout : Layout}

theorem numberEnds_blanks (blank : ∀ c ∈ blanks, isBlank c = true) (ends : NumberEnds rest) :
    NumberEnds (blanks ++ rest) := by
  cases blanks with
  | nil => exact ends
  | cons b blanks =>
    intro c first
    obtain rfl : b = c := by simpa using first
    have white := blank b (List.mem_cons_self ..)
    simp only [isBlank, Bool.or_eq_true, beq_iff_eq] at white
    rcases white with ((rfl | rfl) | rfl) | rfl <;> decide

/-- What stands behind an item or a member: more of them after a comma, or the closing bracket. -/
theorem numberEnds_behind (blank : layout.Blank) (outer : Nat) {more : List Char} {bracket : Char}
    (listed : more = [] ∨ ∃ others, more = ',' :: others) (closes : bracket = ']' ∨ bracket = '}')
    (rest : List Char) : NumberEnds (more ++ layout.line outer ++ bracket :: rest) := by
  rcases listed with rfl | ⟨others, rfl⟩
  · rw [List.nil_append]
    apply numberEnds_blanks (blank.line outer)
    rcases closes with rfl | rfl <;> simp [NumberEnds]
  · simp [NumberEnds]

/-! ## Arrays -/

theorem writeItems_listed (layout : Layout) (depth : Nat) (items : List Json) :
    writeItems layout depth items = [] ∨ ∃ others, writeItems layout depth items = ',' :: others := by
  cases items <;> simp [writeItems]

theorem run_writeItems (blank : layout.Blank) (depth outer : Nat) (frames : List Frame)
    (rest : List Char) {items : List Json} (each : ∀ item ∈ items, ReadsBack layout item)
    (before : List Json) :
    (Progress.reading (.array before :: frames) .next).run
        (writeItems layout depth items ++ layout.line outer ++ ']' :: rest) =
      (finish (.array (before.reverse ++ items)) frames).bind fun next => next.run rest := by
  induction items generalizing before with
  | nil =>
    rw [writeItems, List.nil_append, run_blanks _ (blank.line outer), run_token _ (token?.eq_3 rest),
      List.append_nil]
    rfl
  | cons item items ih =>
    have first := each item (List.mem_cons_self ..)
    have others := ih (fun other later => each other (List.mem_cons_of_mem item later))
      (item :: before)
    have listed := writeItems_listed layout depth items
    have ends := numberEnds_behind blank outer listed (.inl rfl) rest
    simp only [writeItems, List.cons_append, List.append_assoc] at ends others ⊢
    rw [run_token _ (token?.eq_6 _)]
    show (Progress.reading (.array before :: frames) .value).run _ = _
    rw [run_blanks _ (blank.line depth), first depth _ .value _ (.inl rfl) ends]
    show (Progress.reading (.array (item :: before) :: frames) .next).run _ = _
    rw [others, List.reverse_cons, List.append_assoc, List.singleton_append]

theorem readsBack_array (blank : layout.Blank) {items : List Json}
    (each : ∀ item ∈ items, ReadsBack layout item) : ReadsBack layout (.array items) := by
  intro depth frames expect rest place ends
  have begins (cs : List Char) : (Progress.reading frames expect).run ('[' :: cs) =
      (Progress.reading (.array [] :: frames) .firstItem).run cs := by
    rw [run_token _ (token?.eq_2 cs)]
    rcases place with rfl | rfl <;> rfl
  cases items with
  | nil =>
    rw [write, List.cons_append, begins, List.singleton_append, run_token _ (token?.eq_3 rest)]
    rfl
  | cons item items =>
    have first := each item (List.mem_cons_self ..)
    have others := run_writeItems blank (depth + 1) depth frames rest
      (fun other later => each other (List.mem_cons_of_mem item later)) [item]
    have listed := writeItems_listed layout (depth + 1) items
    have inner := numberEnds_behind blank depth listed (.inl rfl) rest
    simp only [write, List.cons_append, List.append_assoc, List.nil_append] at inner others ⊢
    rw [begins, run_blanks _ (blank.line (depth + 1)),
      first (depth + 1) _ .firstItem _ (.inr rfl) inner]
    exact others

/-! ## Objects -/

theorem run_member (blank : layout.Blank) (depth : Nat) (frames : List Frame) {expect : Expect}
    (place : expect = .key ∨ expect = .firstKey) (key : Option String) {value : Json}
    (reads : ReadsBack layout value) (before : List (Option String × Json)) (ends : NumberEnds rest) :
    (Progress.reading (.object before :: frames) expect).run
        (quote key ++ ':' :: layout.afterColon ++ value.write layout depth ++ rest) =
      (Progress.reading (.object ((key, value) :: before) :: frames) .next).run rest := by
  have named (cs : List Char) :
      (Progress.reading (.object before :: frames) expect).run (quote key ++ ':' :: cs) =
        (Progress.reading (.member key :: .object before :: frames) .value).run cs := by
    have keyed : (Progress.reading (.object before :: frames) expect).step (.scalar (.string key)) =
        some (.reading (.member key :: .object before :: frames) .colon) := by
      rcases place with rfl | rfl <;> rfl
    rw [run_token _ (token?_quote key _), keyed, Option.bind_some, run_token _ (token?.eq_7 cs)]
    rfl
  simp only [List.cons_append, List.append_assoc]
  rw [named, run_blanks _ blank.afterColon, reads depth _ .value _ (.inl rfl) ends]
  rfl

theorem writeMembers_listed (layout : Layout) (depth : Nat) (members : List (Option String × Json)) :
    writeMembers layout depth members = [] ∨
      ∃ others, writeMembers layout depth members = ',' :: others := by
  cases members <;> simp [writeMembers]

theorem run_writeMembers (blank : layout.Blank) (depth outer : Nat) (frames : List Frame)
    (rest : List Char) {members : List (Option String × Json)}
    (each : ∀ member ∈ members, ReadsBack layout member.2) (before : List (Option String × Json)) :
    (Progress.reading (.object before :: frames) .next).run
        (writeMembers layout depth members ++ layout.line outer ++ '}' :: rest) =
      (finish (.object (before.reverse ++ members)) frames).bind fun next => next.run rest := by
  induction members generalizing before with
  | nil =>
    rw [writeMembers, List.nil_append, run_blanks _ (blank.line outer),
      run_token _ (token?.eq_5 rest), List.append_nil]
    rfl
  | cons member members ih =>
    obtain ⟨key, value⟩ := member
    have first := each (key, value) (List.mem_cons_self ..)
    have others := ih (fun other later => each other (List.mem_cons_of_mem (key, value) later))
      ((key, value) :: before)
    have listed := writeMembers_listed layout depth members
    have ends := numberEnds_behind blank outer listed (.inr rfl) rest
    have read := run_member blank depth frames (.inl rfl) key first before ends
    simp only [writeMembers, List.cons_append, List.append_assoc] at read others ⊢
    rw [run_token _ (token?.eq_6 _)]
    show (Progress.reading (.object before :: frames) .key).run _ = _
    rw [run_blanks _ (blank.line depth), read, others, List.reverse_cons, List.append_assoc,
      List.singleton_append]

theorem readsBack_object (blank : layout.Blank) {members : List (Option String × Json)}
    (each : ∀ member ∈ members, ReadsBack layout member.2) : ReadsBack layout (.object members) := by
  intro depth frames expect rest place ends
  have begins (cs : List Char) : (Progress.reading frames expect).run ('{' :: cs) =
      (Progress.reading (.object [] :: frames) .firstKey).run cs := by
    rw [run_token _ (token?.eq_4 cs)]
    rcases place with rfl | rfl <;> rfl
  cases members with
  | nil =>
    rw [write, List.cons_append, begins, List.singleton_append, run_token _ (token?.eq_5 rest)]
    rfl
  | cons member members =>
    obtain ⟨key, value⟩ := member
    have first := each (key, value) (List.mem_cons_self ..)
    have others := run_writeMembers blank (depth + 1) depth frames rest
      (fun other later => each other (List.mem_cons_of_mem (key, value) later)) [(key, value)]
    have listed := writeMembers_listed layout (depth + 1) members
    have inner := numberEnds_behind blank depth listed (.inr rfl) rest
    have read := run_member blank (depth + 1) frames (.inr rfl) key first [] inner
    simp only [write, List.cons_append, List.append_assoc, List.nil_append] at read others ⊢
    rw [begins, run_blanks _ (blank.line (depth + 1)), read]
    exact others

/-! ## All values -/

theorem Integral.readsBack (blank : layout.Blank) {value : Json} (integral : Integral value) :
    ReadsBack layout value := by
  induction integral with
  | null => exact readsBack_scalar fun _ _ _ => rfl
  | bool b => exact readsBack_scalar fun _ _ _ => by cases b <;> rfl
  | integer n => exact readsBack_scalar fun _ _ ends => token?_ofInt n ends
  | string s => exact readsBack_scalar fun _ rest _ => token?_quote s rest
  | array _ ih => exact readsBack_array blank ih
  | object _ ih => exact readsBack_object blank ih

/-- A value without decimals is read back from its text in any layout that writes nothing but white
space between the tokens. -/
theorem read?_write (blank : layout.Blank) {value : Json} (integral : Integral value) :
    read? (value.write layout 0) = some value := by
  have read := integral.readsBack blank 0 [] .value [] (.inl rfl) numberEnds_nil
  rw [List.append_nil] at read
  rw [read?, read]
  exact run_done value

theorem read?_compact {value : Json} (integral : Integral value) :
    read? value.compact.toList = some value := by
  rw [compact, String.toList_ofList]
  exact read?_write Layout.blank_compact integral

theorem read?_indented {value : Json} (integral : Integral value) :
    read? value.indented.toList = some value := by
  rw [indented, String.toList_ofList]
  exact read?_write Layout.blank_indented integral

end DraftDesk.Json
