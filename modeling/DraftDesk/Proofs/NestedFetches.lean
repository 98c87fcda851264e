import DraftDesk.CacheScript
import DraftDesk.Proofs.CallerPrograms

/-!
# Fetches inside fetches

A fetch may call the cache, and the fetches of those calls may do so again. A call marks its query
only if it was not marked, and takes the mark away however its fetch ends, so every call, with all
that is nested in it, leaves the marks as they were (`SameMarks`): none of its own is left behind,
and those of the fetches around it stay. A fetch that delivers nothing changes nothing else, so after
it the cache holds what the calls inside it have left.
-/

namespace DraftDesk

namespace LabelCache

variable {c : LabelCache} {query : LabelQuery} {ε : Type} {outcome : Outcome ε query.Answer}

theorem enter_eq_fetch_iff :
    (c.enter query).1 = .fetch ↔ c.answer? query = none ∧ ¬ c.UnderWay query := by
  rw [enter_eq]
  cases c.answer? query with
  | some a => simp
  | none => by_cases underWay : c.UnderWay query <;> simp [underWay]

theorem table_eq_empty (fetches : (c.enter .table).1 = .fetch) : c.table = .empty := by
  obtain ⟨absent, free⟩ := enter_eq_fetch_iff.1 fetches
  cases held : c.table with
  | empty => rfl
  | loading => exact absurd held free
  | ready table => exact nomatch absent.symm.trans ((c.stored_table table).2 held)

/-! ## Fetches that deliver nothing -/

theorem single_leave_of_failed (failed : outcome.value? = none) :
    (c.leave query outcome).single = c.single := by
  cases outcome with
  | value a => cases failed
  | failure | unwound => cases query <;> rfl

theorem table_leave_of_failed (failed : outcome.value? = none) :
    (c.leave query outcome).table = if query = .table then .empty else c.table := by
  cases outcome with
  | value a => cases failed
  | failure | unwound => cases query <;> rfl

theorem stored_leave_of_failed (failed : outcome.value? = none) (underWay : c.UnderWay query)
    (other : LabelQuery) : (c.leave query outcome).stored other = c.stored other := by
  by_cases same : other = query
  · rw [same, stored_leave_self underWay, failed, Option.none_or]
  · exact stored_leave_of_ne c same outcome

end LabelCache

/-! ## Marks -/

/-- The same fetches are under way before and after. -/
structure SameMarks (before after : LabelCache) : Prop where
  table : after.table = .loading ↔ before.table = .loading
  pending : after.pending = before.pending

namespace SameMarks

variable {c inner later : LabelCache} {query : LabelQuery} {ε : Type}

theorem refl (c : LabelCache) : SameMarks c c := ⟨Iff.rfl, rfl⟩

theorem trans (h : SameMarks c inner) (further : SameMarks inner later) : SameMarks c later :=
  ⟨further.table.trans h.table, further.pending.trans h.pending⟩

theorem underWay_iff (h : SameMarks c inner) (query : LabelQuery) :
    inner.UnderWay query ↔ c.UnderWay query := by
  cases query with
  | table => exact h.table
  | label key => simp only [LabelCache.UnderWay, h.pending]

theorem of_clear (c : LabelCache) : SameMarks c c.clear where
  table := c.underWay_clear .table
  pending := rfl

/-- A fetch whose calls leave the marks as they were takes its own mark away and no other. -/
theorem of_leave (free : ¬ c.UnderWay query) (kept : SameMarks (c.mark query) inner)
    (outcome : Outcome ε query.Answer) : SameMarks c (inner.leave query outcome) := by
  cases query with
  | table =>
    have idle : c.table ≠ .loading := free
    refine ⟨iff_of_false ?_ idle, ?_⟩
    · cases outcome <;> simp [LabelCache.leave]
    · cases outcome <;> exact kept.pending
  | label key =>
    have table : (inner.leave (.label key) outcome).table = inner.table := by cases outcome <;> rfl
    have pending : (inner.leave (.label key) outcome).pending = inner.pending.filter (· ≠ key) := by
      cases outcome <;> rfl
    refine ⟨?_, ?_⟩
    · rw [table]
      exact kept.table
    · have absent : key ∉ c.pending := free
      have others : ∀ other ∈ c.pending, other ≠ key :=
        fun other mem => ne_of_mem_of_not_mem mem absent
      rw [pending, kept.pending]
      simpa [LabelCache.mark] using others

/-- A query leaves the marks as they were if the calls of its fetch do. -/
theorem of_ask {fetch : StateM LabelCache (Outcome ε query.Answer)}
    (kept : ∀ c, SameMarks c (fetch.run c).2) (c : LabelCache) :
    SameMarks c ((LabelCache.ask query fetch).run c).2 := by
  rw [LabelCache.run_ask]
  cases c.answer? query with
  | some a => exact .refl c
  | none =>
    by_cases underWay : c.UnderWay query
    · rw [if_pos underWay]
      exact .refl c
    · rw [if_neg underWay]
      exact of_leave underWay (kept (c.mark query)) _

end SameMarks

/-- A fetch that calls nothing and delivers nothing leaves the cache as it was. -/
theorem LabelCache.leave_mark_of_failed {c : LabelCache} {query : LabelQuery} {ε : Type}
    {outcome : Outcome ε query.Answer} (fetches : (c.enter query).1 = .fetch)
    (failed : outcome.value? = none) : (c.mark query).leave query outcome = c := by
  obtain ⟨-, free⟩ := enter_eq_fetch_iff.1 fetches
  have marks := SameMarks.of_leave free (.refl (c.mark query)) outcome
  generalize ended : (c.mark query).leave query outcome = after at marks
  have table := ended ▸ table_leave_of_failed failed
  have single := ended ▸ single_leave_of_failed failed
  have parts : after = ⟨after.table, after.single, after.pending⟩ := rfl
  rw [parts, table, single, marks.pending]
  cases query with
  | table => rw [if_pos rfl, ← table_eq_empty fetches]; rfl
  | label key => rfl

/-! ## Scripts -/

namespace CacheCall

variable {query : LabelQuery} {during : List CacheCall} {outcome : Outcome String query.Answer}

/-- A fetch that makes some calls on the cache and then ends. -/
def fetch (during : List CacheCall) (outcome : Outcome String query.Answer) :
    StateM LabelCache (Outcome String query.Answer) := fun c => (outcome, (runAll c during).2)

/-- A query of a script asks the cache, with the calls nested in it as its fetch. -/
theorem run_ask (c : LabelCache) :
    (run c (.ask query during outcome)).2 = ((LabelCache.ask query (fetch during outcome)).run c).2 := by
  rw [run, LabelCache.run_ask, LabelCache.enter_eq]
  cases c.answer? query with
  | some a => rfl
  | none =>
    by_cases underWay : c.UnderWay query
    · rw [if_pos underWay, if_pos underWay]
      rfl
    · rw [if_neg underWay, if_neg underWay]
      rfl

mutual

/-- A call leaves the marks as they were, to whatever depth calls are nested in it. -/
theorem sameMarks_run (c : LabelCache) : ∀ call : CacheCall, SameMarks c (run c call).2
  | .inspect => .refl c
  | .clear => .of_clear c
  | .get key => .refl c
  | .ask query during outcome => by
    have nested : ∀ c, SameMarks c ((fetch during outcome).run c).2 := fun c =>
      sameMarks_runAll c during
    rw [run_ask]
    exact .of_ask nested c

theorem sameMarks_runAll (c : LabelCache) : ∀ calls : List CacheCall, SameMarks c (runAll c calls).2
  | [] => .refl c
  | call :: calls => (sameMarks_run c call).trans (sameMarks_runAll (run c call).2 calls)

end

/-- A query that has to fetch leaves the cache that the nested calls have left. -/
theorem run_ask_of_fetch {c : LabelCache} (fetches : (c.enter query).1 = .fetch) :
    ((LabelCache.ask query (fetch during outcome)).run c).2 =
      (runAll (c.mark query) during).2.leave query outcome := by
  obtain ⟨absent, free⟩ := LabelCache.enter_eq_fetch_iff.1 fetches
  rw [LabelCache.run_ask, absent]
  dsimp only
  rw [if_neg free]
  rfl

theorem run_ask_of_ne_fetch {c : LabelCache} (held : (c.enter query).1 ≠ .fetch) :
    ((LabelCache.ask query (fetch during outcome)).run c).2 = c := by
  rw [ne_eq, LabelCache.enter_eq_fetch_iff] at held
  rw [LabelCache.run_ask]
  cases answer : c.answer? query with
  | some a => rfl
  | none =>
    have underWay : c.UnderWay query := not_not.1 fun free => held ⟨answer, free⟩
    rw [if_pos underWay]
    rfl

/-- A fetch that delivers nothing releases its own mark and nothing else. Whatever calls were nested in
it, the marks are those from before the query, the labels and the table are what the nested calls have
left, and a table that was loaded is no longer so. Without nested calls nothing has changed, and who
asks next fetches again. A query that is answered or would have to wait changes nothing either. -/
theorem failed_fetch_releases_only_its_mark (c : LabelCache) (query : LabelQuery)
    (during : List CacheCall) (outcome : Outcome String query.Answer) (failed : outcome.value? = none) :
    let left := (runAll (c.mark query) during).2
    let after := ((LabelCache.ask query (fetch during outcome)).run c).2
    after.pending = c.pending ∧
    (∀ other, after.UnderWay other ↔ c.UnderWay other) ∧
    ((c.enter query).1 = .fetch →
      after.single = left.single ∧
      after.table = (if query = .table then .empty else left.table) ∧
      (∀ other, after.stored other = left.stored other) ∧
      (during = [] → after = c ∧ (after.enter query).1 = .fetch)) ∧
    ((c.enter query).1 ≠ .fetch → after = c) := by
  intro left after
  have nested : ∀ c, SameMarks c ((fetch during outcome).run c).2 :=
    fun c => sameMarks_runAll c during
  have marks : SameMarks c after := .of_ask nested c
  refine ⟨marks.pending, marks.underWay_iff, ?_, run_ask_of_ne_fetch⟩
  intro fetches
  have ended : after = left.leave query outcome := run_ask_of_fetch fetches
  have single : after.single = left.single := ended ▸ LabelCache.single_leave_of_failed failed
  have table : after.table = if query = .table then .empty else left.table :=
    ended ▸ LabelCache.table_leave_of_failed failed
  refine ⟨single, table, ?_, ?_⟩
  · have underWay : left.UnderWay query :=
      ((sameMarks_runAll (c.mark query) during).underWay_iff query).2
        ((LabelCache.underWay_mark c query query).2 (.inl rfl))
    rw [ended]
    exact LabelCache.stored_leave_of_failed failed underWay
  · rintro rfl
    have same : after = c := ended.trans (LabelCache.leave_mark_of_failed fetches failed)
    exact ⟨same, same ▸ fetches⟩

/-- While a title is being fetched, a label is asked for, and its fetch fails after it has asked for
the table. The fetch of the table is cut short after it has stored a label of its own and cleared the
others, and in it the first label cannot be asked for again. -/
theorem failed_fetch_releases_only_its_mark_around_table :
    let c : LabelCache := ⟨.empty, ⟨[("hide", "Hide")]⟩, ["title"]⟩
    let during : List CacheCall :=
      [.ask .table [.ask (.label "save") [.clear] (.value "Save"),
        .ask (.label "show") [] (.value "Show")] (.unwound "out of memory"), .get "hide"]
    let after := ((LabelCache.ask (.label "show") (fetch during (.failure "offline"))).run c).2
    after.pending = ["title"] ∧ after.single = ⟨[("save", "Save")]⟩ ∧ after.table = .empty ∧
      ∀ other, after.UnderWay other ↔ other = .label "title" := by
  intro c during after
  obtain ⟨pending, marks, fetched, -⟩ :=
    failed_fetch_releases_only_its_mark c (.label "show") during (.failure "offline") rfl
  obtain ⟨single, table, -, -⟩ := fetched rfl
  refine ⟨pending, single, table, ?_⟩
  intro other
  rw [marks]
  cases other <;> simp [c, LabelCache.UnderWay]

end CacheCall

end DraftDesk
