import DraftDesk.LabelCache

/-!
# What a label cache holds

A cache holds an answer to the table query and to the query of each label on its own (`stored`),
and for each query a mark that says whether a fetch of it is under way (`UnderWay`). `enter` looks
at the two and sets a mark, `leave` takes the mark away and stores what was delivered, clearing
keeps the marks and nothing else.
-/

namespace DraftDesk

/-- What a fetch delivered. -/
def Outcome.value? {ε α : Type} : Outcome ε α → Option α
  | .value a => some a
  | _ => none

namespace LabelCache

/-- What is stored for a query itself. A label may also be in the table. -/
def stored (c : LabelCache) : (query : LabelQuery) → Option query.Answer
  | .table => match c.table with
    | .ready table => some table
    | _ => none
  | .label key => c.single.find? key

theorem stored_table (c : LabelCache) (table : LabelTable) :
    c.stored .table = some table ↔ c.table = .ready table := by
  cases whole : c.table <;> simp [stored, whole]

/-- What the cache answers a query with. -/
def answer? (c : LabelCache) : (query : LabelQuery) → Option query.Answer
  | .table => c.stored .table
  | .label key => c.get? key

/-- A fetch of a query is under way. -/
def UnderWay (c : LabelCache) : LabelQuery → Prop
  | .table => c.table = .loading
  | .label key => key ∈ c.pending

instance (c : LabelCache) (query : LabelQuery) : Decidable (c.UnderWay query) :=
  match query with
  | .table => inferInstanceAs (Decidable (c.table = .loading))
  | .label key => inferInstanceAs (Decidable (key ∈ c.pending))

/-- Counts a fetch of a query as under way. -/
def mark (c : LabelCache) : LabelQuery → LabelCache
  | .table => { c with table := .loading }
  | .label key => { c with pending := key :: c.pending }

theorem answer?_label (c : LabelCache) (key : String) :
    c.answer? (.label key) =
      (c.stored (.label key)).or ((c.stored .table).bind fun table => table.find? key) := by
  obtain ⟨table, single, pending⟩ := c
  simp only [answer?, get?, stored]
  cases single.find? key with
  | some label => rfl
  | none => cases table <;> rfl

theorem answer?_of_stored {c : LabelCache} {query : LabelQuery} {a : query.Answer}
    (held : c.stored query = some a) : c.answer? query = some a := by
  cases query with
  | table => exact held
  | label key => rw [answer?_label, held, Option.some_or]

theorem stored_eq_none {c : LabelCache} {query : LabelQuery} (absent : c.answer? query = none) :
    c.stored query = none := by
  rw [Option.eq_none_iff_forall_ne_some] at absent ⊢
  exact fun a held => absent a (answer?_of_stored held)

theorem answer?_eq_none {c : LabelCache} {query : LabelQuery} (own : c.stored query = none)
    (whole : c.stored .table = none) : c.answer? query = none := by
  cases query with
  | table => exact whole
  | label key => rw [answer?_label, own, whole, Option.none_or, Option.bind_none]

/-- What `enter` says depends on what the cache answers and on the mark alone. -/
theorem enter_eq (c : LabelCache) (query : LabelQuery) :
    c.enter query =
      match c.answer? query with
      | some a => (.answer a, c)
      | none => if c.UnderWay query then (.wait, c) else (.fetch, c.mark query) := by
  cases query with
  | table =>
    obtain ⟨table, single, pending⟩ := c
    cases table <;> rfl
  | label key =>
    simp only [enter, answer?]
    cases c.get? key with
    | some label => rfl
    | none => rfl

/-! ## Marks -/

theorem underWay_empty (query : LabelQuery) : ¬ LabelCache.empty.UnderWay query := by
  cases query <;> simp [UnderWay, empty]

@[simp] theorem underWay_clear (c : LabelCache) (query : LabelQuery) :
    c.clear.UnderWay query ↔ c.UnderWay query := by
  obtain ⟨table, single, pending⟩ := c
  cases query with
  | table => cases table <;> simp [UnderWay, clear]
  | label key => rfl

theorem underWay_mark (c : LabelCache) (query other : LabelQuery) :
    (c.mark query).UnderWay other ↔ other = query ∨ c.UnderWay other := by
  cases query <;> cases other <;> simp [UnderWay, mark]

variable {ε : Type}

theorem underWay_leave (c : LabelCache) (query : LabelQuery) (outcome : Outcome ε query.Answer)
    (other : LabelQuery) :
    (c.leave query outcome).UnderWay other ↔ other ≠ query ∧ c.UnderWay other := by
  cases query with
  | table => cases outcome <;> cases other <;> simp [UnderWay, leave]
  | label key => cases outcome <;> cases other <;> simp [UnderWay, leave, and_comm]

/-! ## What is stored -/

@[simp] theorem stored_empty (query : LabelQuery) : LabelCache.empty.stored query = none := by
  cases query <;> rfl

@[simp] theorem stored_clear (c : LabelCache) (query : LabelQuery) : c.clear.stored query = none := by
  obtain ⟨table, single, pending⟩ := c
  cases query with
  | table => cases table <;> rfl
  | label key => rfl

theorem stored_mark {c : LabelCache} {query : LabelQuery} (absent : c.answer? query = none)
    (other : LabelQuery) : (c.mark query).stored other = c.stored other := by
  cases query with
  | table =>
    cases other with
    | table => exact absent.symm
    | label key => rfl
  | label key => cases other <;> rfl

/-- A fetch that delivers stores what it delivers, and one that does not leaves its query as it
was. The table is not stored while it is under way. -/
theorem stored_leave_self {c : LabelCache} {query : LabelQuery} (underWay : c.UnderWay query)
    (outcome : Outcome ε query.Answer) :
    (c.leave query outcome).stored query = outcome.value?.or (c.stored query) := by
  cases query with
  | table =>
    have loading : c.table = .loading := underWay
    cases outcome <;> simp [leave, stored, Outcome.value?, loading]
  | label key => cases outcome <;> simp [leave, stored, Outcome.value?]

theorem stored_leave_of_ne (c : LabelCache) {query other : LabelQuery} (differs : other ≠ query)
    (outcome : Outcome ε query.Answer) : (c.leave query outcome).stored other = c.stored other := by
  cases query with
  | table =>
    cases other with
    | table => exact absurd rfl differs
    | label key => cases outcome <;> rfl
  | label key =>
    cases other with
    | table => cases outcome <;> rfl
    | label key' =>
      have keys : key' ≠ key := fun same => differs (congrArg LabelQuery.label same)
      cases outcome <;> simp [leave, stored, keys]

end LabelCache

end DraftDesk
