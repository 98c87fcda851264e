import DraftDesk.Proofs.Flights

/-!
# Where answers come from

What a cache holds can be read off the history: for each query it is what the last fetch of it
that delivered anything since the last clear delivered (`delivered`). So an answer without a fetch
is always the delivery of some fetch, of the query itself or of the table, that ended after the
last clear.
-/

namespace DraftDesk

/-- What the last fetch of a query that delivered anything since the last clear delivered. -/
def delivered (query : LabelQuery) : List CallerEvent → Option query.Answer
  | [] => none
  | .cleared _ :: _ => none
  | .finished _ ended outcome :: past =>
    if same : ended = query then (same ▸ outcome.value?).or (delivered query past)
    else delivered query past
  | _ :: past => delivered query past

theorem delivered_finished (who : Nat) (query : LabelQuery) (outcome : Outcome String query.Answer)
    (past : List CallerEvent) :
    delivered query (.finished who query outcome :: past) = outcome.value?.or (delivered query past) := by
  simp [delivered]

theorem delivered_finished_of_ne {ended query : LabelQuery} (differs : query ≠ ended) (who : Nat)
    (outcome : Outcome String ended.Answer) (past : List CallerEvent) :
    delivered query (.finished who ended outcome :: past) = delivered query past := by
  simp [delivered, Ne.symm differs]

/-- What was delivered since a clear was delivered by a fetch that ended since. -/
theorem exists_finished_of_delivered {query : LabelQuery} {a : query.Answer} {who : Nat}
    {recent before : List CallerEvent}
    (h : delivered query (recent ++ .cleared who :: before) = some a) :
    ∃ other later past, recent = later ++ .finished other query (.value a) :: past := by
  induction recent with
  | nil => simp [delivered] at h
  | cons event recent ih =>
    have earlier (h : delivered query (recent ++ .cleared who :: before) = some a) :
        ∃ other later past, event :: recent = later ++ .finished other query (.value a) :: past := by
      obtain ⟨other, later, past, rfl⟩ := ih h
      exact ⟨other, event :: later, past, rfl⟩
    cases event with
    | cleared other => simp [delivered] at h
    | finished other ended outcome =>
      by_cases same : query = ended
      · subst same
        rw [List.cons_append, delivered_finished] at h
        cases outcome with
        | value b =>
          rw [Outcome.value?, Option.some_or, Option.some.injEq] at h
          exact ⟨other, [], recent, by rw [h, List.nil_append]⟩
        | failure e => exact earlier h
        | unwound reason => exact earlier h
      · rw [List.cons_append, delivered_finished_of_ne same] at h
        exact earlier h
    | _ => exact earlier h

/-- What an answer to one query has to say to another: a table answers for the labels in it. -/
def LabelQuery.supply : (ended : LabelQuery) → ended.Answer → (query : LabelQuery) → Option query.Answer
  | .table, whole, .table => some whole
  | .table, whole, .label key => whole.find? key
  | .label fetched, text, .label key => if key = fetched then some text else none
  | .label _, _, .table => none

theorem LabelQuery.supply_self (query : LabelQuery) (a : query.Answer) : query.supply a query = some a := by
  cases query <;> simp [supply]

/-- Some table answers a query. -/
theorem LabelQuery.exists_table (query : LabelQuery) :
    ∃ (table : LabelTable) (a : query.Answer), supply .table table query = some a := by
  cases query with
  | table => exact ⟨.empty, .empty, rfl⟩
  | label key => exact ⟨LabelTable.empty.insert key "", "", by simp [supply]⟩

/-- A table answers once it is there, where no label is stored by itself. -/
theorem LabelCache.answer?_leave_table {c : LabelCache} {query : LabelQuery} {a : query.Answer}
    {table : LabelTable} (unstored : ∀ key, c.stored (.label key) = none)
    (supplies : LabelQuery.supply .table table query = some a) :
    (c.leave .table (Outcome.value table : Outcome String LabelTable)).answer? query = some a := by
  cases query with
  | table => exact supplies
  | label key =>
    have own : (c.leave .table (Outcome.value table : Outcome String LabelTable)).stored (.label key) =
        none := unstored key
    rw [answer?_label, own, Option.none_or]
    exact supplies

namespace World

variable {w w' : World} {who : Nat} {event : CallerEvent}

/-- The cache holds what its history says was delivered. -/
def Recorded (w : World) : Prop := ∀ query, w.cache.stored query = delivered query w.history

theorem Recorded.step (single : SingleFlight w) (recorded : Recorded w) (step : Step w who event w') :
    Recorded w' := by
  intro query
  cases step with
  | answered present asks answer => exact recorded query
  | slept present asks absent underWay => exact recorded query
  | started present asks absent free =>
    exact (LabelCache.stored_mark absent query).trans (recorded query)
  | looked key present busy => exact recorded query
  | inspected present busy => exact recorded query
  | cleared present busy => exact LabelCache.stored_clear w.cache query
  | @finished ended flights outcome present =>
    have running : ended ∈ w.flights who := by
      rw [World.flights, flightsOf_of_present present]
      exact List.mem_cons_self
    have underWay := (single.marked ended).2 ⟨who, running⟩
    by_cases same : query = ended
    · subst same
      rw [delivered_finished, ← recorded query]
      exact LabelCache.stored_leave_self underWay outcome
    · rw [delivered_finished_of_ne same, ← recorded query]
      exact LabelCache.stored_leave_of_ne w.cache same outcome
  | notified present notifying => exact recorded query

theorem Reachable.recorded (reached : w.Reachable) : Recorded w := by
  have both : SingleFlight w ∧ Recorded w := by
    refine reached.induction (fun w => SingleFlight w ∧ Recorded w) ?_ ?_
    · intro count
      exact ⟨singleFlight_start count, LabelCache.stored_empty⟩
    · rintro w who event w' ⟨single, recorded⟩ step
      exact ⟨single.step step, recorded.step single step⟩
  exact both.2

/-- An answer is the delivery of a fetch that ended after the last clear. -/
theorem Recorded.exists_supply (recorded : Recorded w) {recent before : List CallerEvent}
    (happened : w.history = recent ++ .cleared who :: before) {query : LabelQuery} {a : query.Answer}
    (answer : w.cache.answer? query = some a) :
    ∃ other, ∃ ended : LabelQuery, ∃ b : ended.Answer, ∃ later past,
      recent = later ++ .finished other ended (.value b) :: past ∧ ended.supply b query = some a := by
  have source (ended : LabelQuery) (b : ended.Answer) (held : w.cache.stored ended = some b)
      (supplies : ended.supply b query = some a) :
      ∃ other, ∃ ended : LabelQuery, ∃ b : ended.Answer, ∃ later past,
        recent = later ++ .finished other ended (.value b) :: past ∧ ended.supply b query = some a := by
    rw [recorded ended, happened] at held
    obtain ⟨other, later, past, split⟩ := exists_finished_of_delivered held
    exact ⟨other, ended, b, later, past, split, supplies⟩
  cases query with
  | table => exact source .table a answer (LabelQuery.supply_self .table a)
  | label key =>
    rw [LabelCache.answer?_label, Option.or_eq_some_iff] at answer
    rcases answer with own | ⟨-, whole⟩
    · exact source (.label key) a own (LabelQuery.supply_self (.label key) a)
    · obtain ⟨table, held, found⟩ := Option.bind_eq_some_iff.1 whole
      exact source .table table held found

end World

end DraftDesk
