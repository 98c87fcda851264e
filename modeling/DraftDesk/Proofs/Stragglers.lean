import DraftDesk.Proofs.Deliveries

/-!
# Fetches that outlast a clear

After a clear nothing is stored, but fetches may be under way. If every caller that runs one waits
for another of them, and the table is among them, then none of these callers ever moves on, for
nothing that is delivered can answer it (`Frozen`). Otherwise one of them can come to where it ends
its innermost fetch (`exists_ready`): a sleeper whose query nobody fetches may fetch it itself, and
while nobody fetches the table, a caller that is free may fetch one that answers any sleeper.
-/

namespace DraftDesk.World

/-- A caller waits for a fetch that is under way, and so is a fetch of the table. -/
def Stuck (w : World) (caller : Caller) : Prop :=
  w.cache.UnderWay .table ∧
    ∃ query notified, caller.activity = .asleep query notified ∧ w.cache.UnderWay query

/-- Every caller that is in a fetch is stuck. -/
def Deadlocked (w : World) : Prop := ∀ caller ∈ w.callers, caller.flights ≠ [] → w.Stuck caller

variable {w w' w'' : World} {who : Nat} {event : CallerEvent}

/-! ## Callers that never move on -/

/-- The callers that were in a fetch in the first world wait in the second one for what was being
fetched in the first, and that is being fetched still. -/
structure Frozen (w w' : World) : Prop where
  waiting : ∀ i, w.flights i ≠ [] → ∃ query notified,
    w'.callers[i]? = some ⟨w.flights i, .asleep query notified⟩ ∧ w.cache.UnderWay query
  marked : ∀ query, w.cache.UnderWay query → w'.cache.UnderWay query
  unstored : ∀ query, w.cache.UnderWay query → w'.cache.stored query = none

theorem Deadlocked.stuck (deadlocked : Deadlocked w) {i : Nat} (running : w.flights i ≠ []) :
    ∃ activity, w.callers[i]? = some ⟨w.flights i, activity⟩ ∧ w.Stuck ⟨w.flights i, activity⟩ := by
  cases present : w.callers[i]? with
  | none => simp [flights, flightsOf, present] at running
  | some caller =>
    have own : w.flights i = caller.flights := flightsOf_of_present present
    rw [own] at running ⊢
    exact ⟨caller.activity, rfl, deadlocked caller (List.mem_of_getElem? present) running⟩

theorem Deadlocked.frozen (deadlocked : Deadlocked w)
    (unstored : ∀ query, w.cache.stored query = none) : Frozen w w := by
  refine ⟨?_, fun _ underWay => underWay, fun query _ => unstored query⟩
  intro i running
  obtain ⟨activity, present, -, query, notified, asleep, underWay⟩ := deadlocked.stuck running
  obtain rfl : activity = .asleep query notified := asleep
  exact ⟨query, notified, present, underWay⟩

theorem Deadlocked.table_underWay (deadlocked : Deadlocked w) {i : Nat} (running : w.flights i ≠ []) :
    w.cache.UnderWay .table := by
  obtain ⟨activity, present, table, -⟩ := deadlocked.stuck running
  exact table

theorem Frozen.idle_of_busy (frozen : Frozen w w') {flights : List LabelQuery}
    (present : w'.callers[who]? = some ⟨flights, .busy⟩) : w.flights who = [] := by
  by_contra running
  obtain ⟨_, _, asleep, -⟩ := frozen.waiting who running
  rw [present, Option.some.injEq, Caller.mk.injEq] at asleep
  cases asleep.2

/-- A caller that was in a fetch can only fall asleep again. -/
theorem Frozen.slept (frozen : Frozen w w') (table : w.cache.UnderWay .table)
    (running : w.flights who ≠ []) (step : Step w' who event w'') :
    ∃ query, w.cache.UnderWay query ∧
      w'' = ⟨w'.cache, w'.callers.set who ⟨w.flights who, .asleep query false⟩,
        .slept who query :: w'.history⟩ := by
  obtain ⟨waited, notified, asleep, underWay⟩ := frozen.waiting who running
  have absent : w'.cache.answer? waited = none :=
    LabelCache.answer?_eq_none (frozen.unstored waited underWay) (frozen.unstored .table table)
  have same {caller : Caller} (present : w'.callers[who]? = some caller) :
      caller = ⟨w.flights who, .asleep waited notified⟩ :=
    Option.some.inj (present.symm.trans asleep)
  have awake {caller : Caller} (present : w'.callers[who]? = some caller) :
      caller.activity ≠ .busy := by
    rw [same present]
    exact Activity.noConfusion
  have asked {caller : Caller} {query : LabelQuery} (present : w'.callers[who]? = some caller)
      (asks : Asks caller query) : query = waited := by
    rcases asks with busy | ⟨_, asleep⟩
    · exact absurd busy (awake present)
    · rw [same present] at asleep
      cases asleep
      rfl
  cases step with
  | answered present asks answer =>
    cases asked present asks
    rw [absent] at answer
    cases answer
  | slept present asks _ _ =>
    cases asked present asks
    rw [same present]
    exact ⟨waited, underWay, rfl⟩
  | started present asks _ free =>
    cases asked present asks
    exact absurd (frozen.marked waited underWay) free
  | looked key present busy => exact absurd busy (awake present)
  | inspected present busy => exact absurd busy (awake present)
  | cleared present busy => exact absurd busy (awake present)
  | finished outcome present => exact absurd rfl (awake present)
  | notified present notifying =>
    rw [same present] at notifying
    cases notifying

/-- Another caller leaves those that wait asleep. -/
theorem Frozen.still_waiting (frozen : Frozen w w') (idle : w.flights who = [])
    (step : Step w' who event w'') {i : Nat} (running : w.flights i ≠ []) :
    ∃ query notified,
      w''.callers[i]? = some ⟨w.flights i, .asleep query notified⟩ ∧ w.cache.UnderWay query := by
  obtain ⟨query, notified, asleep, underWay⟩ := frozen.waiting i running
  have other : who ≠ i := fun same => running (same ▸ idle)
  have set_other (caller : Caller) : (w'.callers.set who caller)[i]? =
      some ⟨w.flights i, .asleep query notified⟩ := by
    rw [List.getElem?_set_ne other, asleep]
  cases step with
  | notified present notifying =>
    refine ⟨query, true, ?_, underWay⟩
    rw [List.getElem?_set_ne other, List.getElem?_map, asleep]
    rfl
  | answered => exact ⟨query, notified, set_other _, underWay⟩
  | slept => exact ⟨query, notified, set_other _, underWay⟩
  | started => exact ⟨query, notified, set_other _, underWay⟩
  | finished => exact ⟨query, notified, set_other _, underWay⟩
  | looked | inspected | cleared => exact ⟨query, notified, asleep, underWay⟩

/-- Another caller ends no fetch that was under way in the first world. -/
theorem Frozen.still_underWay (frozen : Frozen w w') (single : SingleFlight w)
    (single' : SingleFlight w') (idle : w.flights who = []) (step : Step w' who event w'')
    {query : LabelQuery} (underWay : w.cache.UnderWay query) :
    w''.cache.UnderWay query ∧ w''.cache.stored query = none := by
  have marked := frozen.marked query underWay
  have unstored := frozen.unstored query underWay
  cases step with
  | answered | slept | looked | inspected | notified => exact ⟨marked, unstored⟩
  | started present asks absent free =>
    refine ⟨(LabelCache.underWay_mark _ _ _).2 (.inr marked), ?_⟩
    rw [LabelCache.stored_mark absent, unstored]
  | cleared => exact ⟨(LabelCache.underWay_clear _ _).2 marked, LabelCache.stored_clear _ _⟩
  | @finished ended flights outcome present =>
    have differs : query ≠ ended := by
      rintro rfl
      obtain ⟨i, running⟩ := (single.marked query).1 underWay
      obtain ⟨_, _, asleep, -⟩ := frozen.waiting i (List.ne_nil_of_mem running)
      have own : query ∈ w'.flights who := by
        rw [World.flights, flightsOf_of_present present]
        exact List.mem_cons_self
      have waiter : query ∈ w'.flights i := by
        rw [World.flights, flightsOf_of_present asleep]
        exact running
      have same : i = who := single'.alone who i query own waiter
      rw [same, idle] at running
      exact absurd running List.not_mem_nil
    refine ⟨(LabelCache.underWay_leave _ _ _ _).2 ⟨differs, marked⟩, ?_⟩
    rw [LabelCache.stored_leave_of_ne _ differs, unstored]

theorem Frozen.step (frozen : Frozen w w') (deadlocked : Deadlocked w) (single : SingleFlight w)
    (single' : SingleFlight w') (step : Step w' who event w'') : Frozen w w'' := by
  by_cases idle : w.flights who = []
  · refine ⟨?_, ?_, ?_⟩
    · intro i running
      exact frozen.still_waiting idle step running
    · intro query underWay
      exact (frozen.still_underWay single single' idle step underWay).1
    · intro query underWay
      exact (frozen.still_underWay single single' idle step underWay).2
  · obtain ⟨query, underWay, rfl⟩ := frozen.slept (deadlocked.table_underWay idle) idle step
    refine ⟨?_, frozen.marked, frozen.unstored⟩
    intro i running
    by_cases same : who = i
    · subst same
      obtain ⟨_, _, asleep, -⟩ := frozen.waiting who running
      exact ⟨query, false, present_set asleep _, underWay⟩
    · obtain ⟨waited, notified, asleep, underWay⟩ := frozen.waiting i running
      exact ⟨waited, notified, by rw [List.getElem?_set_ne same, asleep], underWay⟩

/-- Callers that wait for one another's fetches do so in every run. -/
theorem Deadlocked.frozen_of_leads (deadlocked : Deadlocked w) (reached : w.Reachable)
    (unstored : ∀ query, w.cache.stored query = none) {recent : List CallerEvent}
    (leads : Leads w recent w') : Frozen w w' := by
  obtain ⟨⟨moves, run⟩, -⟩ := leads
  have both : SingleFlight w' ∧ Frozen w w' := by
    refine run?_induction (fun w' => SingleFlight w' ∧ Frozen w w') run
      ⟨reached.singleFlight, deadlocked.frozen unstored⟩ ?_
    rintro next who event last ⟨single, frozen⟩ step
    exact ⟨single.step step, frozen.step deadlocked reached.singleFlight single step⟩
  exact both.2

/-! ## Callers that can move on -/

/-- A caller may end its innermost fetch, and it was in that fetch from the first world on. -/
def Ready (w : World) (i : Nat) (flights : List LabelQuery) (recent : List CallerEvent)
    (w' : World) : Prop :=
  Leads w recent w' ∧ w'.callers[i]? = some ⟨flights, .busy⟩ ∧ flightsIn i recent = []

variable {i : Nat} {flights own : List LabelQuery} {query : LabelQuery} {notified : Bool}

theorem ready_of_notifying (present : w.callers[i]? = some ⟨flights, .notifying⟩) :
    ∃ recent w', Ready w i flights recent w' :=
  ⟨_, _, (Leads.refl w).step (.notified present rfl), present_set_notify present _, rfl⟩

/-- A sleeper whose query is not being fetched wakes up, fetches in vain and goes on. -/
theorem ready_of_free (present : w.callers[i]? = some ⟨flights, .asleep query notified⟩)
    (absent : w.cache.answer? query = none) (free : ¬ w.cache.UnderWay query) :
    ∃ recent w', Ready w i flights recent w' := by
  have fetching := (Leads.refl w).step (.started present (.inr ⟨_, rfl⟩) absent free)
  have running := present_set present ⟨query :: flights, .busy⟩
  have failed := fetching.step (.finished (.failure "") running)
  have ended := present_set running ⟨flights, .notifying⟩
  refine ⟨_, _, failed.step (.notified ended rfl), present_set_notify ended _, ?_⟩
  simp [flightsIn, CallerEvent.flights]

/-- A sleeper wakes up once another caller has fetched a table that answers it. -/
theorem ready_of_table (present : w.callers[i]? = some ⟨flights, .asleep query notified⟩)
    (helper : w.callers[who]? = some ⟨own, .busy⟩) (unstored : ∀ query, w.cache.stored query = none)
    (free : ¬ w.cache.UnderWay .table) : ∃ recent w', Ready w i flights recent w' := by
  have other : who ≠ i := by
    rintro rfl
    rw [helper] at present
    cases present
  have absent : w.cache.answer? .table = none := unstored .table
  obtain ⟨table, a, supplies⟩ := query.exists_table
  have fetching := (Leads.refl w).step (.started helper (.inl rfl) absent free)
  have running := present_set helper ⟨.table :: own, .busy⟩
  have loaded := fetching.step (.finished (.value table) running)
  have waiting : ((w.callers.set who ⟨.table :: own, .busy⟩).set who ⟨own, .notifying⟩)[i]? =
      some ⟨flights, .asleep query notified⟩ := by
    rw [List.getElem?_set_ne other, List.getElem?_set_ne other, present]
  have labels (key : String) : (w.cache.mark .table).stored (.label key) = none :=
    (LabelCache.stored_mark absent (.label key)).trans (unstored (.label key))
  have answer := LabelCache.answer?_leave_table labels supplies
  refine ⟨_, _, loaded.step (.answered waiting (.inr ⟨_, rfl⟩) answer), present_set waiting _, ?_⟩
  simp [flightsIn, CallerEvent.flights, other]

/-- A caller that is not stuck can come to where it ends its innermost fetch. -/
theorem exists_ready {caller : Caller} (present : w.callers[i]? = some caller)
    (helper : w.callers[who]? = some ⟨own, .busy⟩) (unstored : ∀ query, w.cache.stored query = none)
    (moves : ¬ w.Stuck caller) : ∃ recent w', Ready w i caller.flights recent w' := by
  obtain ⟨flights, activity⟩ := caller
  cases activity with
  | busy => exact ⟨[], w, Leads.refl w, present, rfl⟩
  | notifying => exact ready_of_notifying present
  | asleep query notified =>
    by_cases underWay : w.cache.UnderWay query
    · have free : ¬ w.cache.UnderWay .table := by
        intro table
        exact moves ⟨table, query, notified, rfl, underWay⟩
      exact ready_of_table present helper unstored free
    · have absent := LabelCache.answer?_eq_none (unstored query) (unstored .table)
      exact ready_of_free present absent underWay

end DraftDesk.World
