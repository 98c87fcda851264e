import DraftDesk.Proofs.CallerSteps
import Mathlib.Data.List.Nodup

/-!
# Fetches under way

A caller runs its fetches one inside another, so which of them it is in can be read off the
history: each start puts one on top and each end takes the top one away (`flightsIn`). In every
world that is reached no two callers run a fetch of the same query, no caller runs one twice, and
the marks of the cache are those of the fetches that are run (`SingleFlight`). Taken over all
callers, the fetches that are run are all different (`one_flight_for_each_query`).
-/

namespace DraftDesk

/-- The fetches of a caller after an event, innermost first. -/
def CallerEvent.flights (who : Nat) (fetches : List LabelQuery) : CallerEvent → List LabelQuery
  | .started other query => if other = who then query :: fetches else fetches
  | .finished other _ _ => if other = who then fetches.tail else fetches
  | _ => fetches

/-- The fetches that a caller began in some events and has not ended in them. -/
def flightsIn (who : Nat) : List CallerEvent → List LabelQuery
  | [] => []
  | event :: past => event.flights who (flightsIn who past)

/-- Events before which a caller was in no fetch do not count. -/
theorem flightsIn_append {who : Nat} {before : List CallerEvent} (none : flightsIn who before = [])
    (recent : List CallerEvent) : flightsIn who (recent ++ before) = flightsIn who recent := by
  induction recent with
  | nil => exact none
  | cons event recent ih => rw [List.cons_append, flightsIn, flightsIn, ih]

/-- The fetches that one of some callers is in, innermost first. -/
def flightsOf (callers : List Caller) (who : Nat) : List LabelQuery :=
  match callers[who]? with
  | some caller => caller.flights
  | none => []

section
variable {callers : List Caller} {who : Nat} {caller : Caller}

theorem present_set (present : callers[who]? = some caller) (new : Caller) :
    (callers.set who new)[who]? = some new :=
  List.getElem?_set_self (List.getElem?_eq_some_iff.1 present).1

theorem present_notify (present : callers[who]? = some caller) :
    (callers.map Caller.notify)[who]? = some caller.notify := by
  rw [List.getElem?_map, present, Option.map_some]

theorem present_set_notify (present : callers[who]? = some caller) (new : Caller) :
    ((callers.map Caller.notify).set who new)[who]? = some new :=
  present_set (present_notify present) new

/-- Who is present after one caller has changed: that one, or another as before. -/
theorem present_of_set {i : Nat} {new : Caller}
    (present : (callers.set who new)[i]? = some caller) :
    i = who ∧ caller = new ∨ i ≠ who ∧ callers[i]? = some caller := by
  by_cases same : i = who
  · subst same
    have inside := (List.getElem?_eq_some_iff.1 present).1
    rw [List.length_set] at inside
    rw [List.getElem?_set_self inside, Option.some.injEq] at present
    exact .inl ⟨rfl, present.symm⟩
  · rw [List.getElem?_set_ne (Ne.symm same)] at present
    exact .inr ⟨same, present⟩

theorem present_of_set_notify {i : Nat} {new : Caller}
    (present : ((callers.map Caller.notify).set who new)[i]? = some caller) :
    i = who ∧ caller = new ∨
      i ≠ who ∧ ∃ before, callers[i]? = some before ∧ before.notify = caller := by
  rcases present_of_set present with mine | ⟨differs, woken⟩
  · exact .inl mine
  · rw [List.getElem?_map, Option.map_eq_some_iff] at woken
    exact .inr ⟨differs, woken⟩

theorem present_of_start {count : Nat} (present : (World.start count).callers[who]? = some caller) :
    caller = .fresh := by
  obtain ⟨_, rfl⟩ := List.getElem?_eq_some_iff.1 present
  simp [World.start]

theorem flightsOf_of_present (present : callers[who]? = some caller) :
    flightsOf callers who = caller.flights := by
  rw [flightsOf, present]

theorem flightsOf_set (present : callers[who]? = some caller) (new : Caller) (other : Nat) :
    flightsOf (callers.set who new) other = if other = who then new.flights else flightsOf callers other := by
  by_cases same : other = who
  · rw [same, if_pos rfl, flightsOf, present_set present]
  · rw [if_neg same, flightsOf, List.getElem?_set_ne (Ne.symm same), ← flightsOf]

theorem flightsOf_set_activity (present : callers[who]? = some caller) (activity : Activity) (other : Nat) :
    flightsOf (callers.set who { caller with activity := activity }) other = flightsOf callers other := by
  rw [flightsOf_set present]
  by_cases same : other = who
  · rw [if_pos same, same, flightsOf_of_present present]
  · rw [if_neg same]

theorem flights_notify (caller : Caller) : caller.notify.flights = caller.flights := by
  unfold Caller.notify
  split <;> rfl

theorem flightsOf_notify (callers : List Caller) (other : Nat) :
    flightsOf (callers.map Caller.notify) other = flightsOf callers other := by
  unfold flightsOf
  rw [List.getElem?_map]
  cases callers[other]? with
  | none => rfl
  | some caller => exact flights_notify caller

theorem flightsOf_replicate (count other : Nat) : flightsOf (List.replicate count .fresh) other = [] := by
  by_cases inside : other < count
  · simp [flightsOf, inside, Caller.fresh]
  · simp [flightsOf, inside]

end

namespace World

/-- The fetches that a caller is in, innermost first. -/
def flights (w : World) (who : Nat) : List LabelQuery := flightsOf w.callers who

variable {w w' : World} {who : Nat} {event : CallerEvent}

theorem present_of_mem_flights {query : LabelQuery} (running : query ∈ w.flights who) :
    ∃ caller, w.callers[who]? = some caller ∧ query ∈ caller.flights := by
  cases present : w.callers[who]? with
  | none => simp [flights, flightsOf, present] at running
  | some caller =>
    rw [flights, flightsOf_of_present present] at running
    exact ⟨caller, rfl, running⟩

/-! ## What a step does to the fetches -/

/-- A step begins one fetch, ends one or leaves all of them alone, and the marks go with them. -/
inductive Fetching (w : World) (who : Nat) (w' : World) : CallerEvent → Prop where
  | begins (query : LabelQuery) (free : ¬ w.cache.UnderWay query)
      (flights : ∀ other, w'.flights other = if other = who then query :: w.flights who else w.flights other)
      (marks : ∀ other, w'.cache.UnderWay other ↔ other = query ∨ w.cache.UnderWay other) :
      Fetching w who w' (.started who query)
  | ends (query : LabelQuery) (rest : List LabelQuery) (outcome : Outcome String query.Answer)
      (innermost : w.flights who = query :: rest)
      (flights : ∀ other, w'.flights other = if other = who then rest else w.flights other)
      (marks : ∀ other, w'.cache.UnderWay other ↔ other ≠ query ∧ w.cache.UnderWay other) :
      Fetching w who w' (.finished who query outcome)
  | leaves {event : CallerEvent} (neither : ∀ other fetches, event.flights other fetches = fetches)
      (flights : ∀ other, w'.flights other = w.flights other)
      (marks : ∀ other, w'.cache.UnderWay other ↔ w.cache.UnderWay other) :
      Fetching w who w' event

theorem Step.fetching (step : Step w who event w') : Fetching w who w' event := by
  cases step with
  | answered present asks answer =>
    exact .leaves (fun _ _ => rfl) (flightsOf_set_activity present _) fun _ => Iff.rfl
  | slept present asks absent underWay =>
    exact .leaves (fun _ _ => rfl) (flightsOf_set_activity present _) fun _ => Iff.rfl
  | started present asks absent free =>
    refine .begins _ free ?_ (LabelCache.underWay_mark _ _)
    intro other
    rw [flights, flightsOf_set present, flights, flightsOf_of_present present, flights]
  | looked key present busy => exact .leaves (fun _ _ => rfl) (fun _ => rfl) fun _ => Iff.rfl
  | inspected present busy => exact .leaves (fun _ _ => rfl) (fun _ => rfl) fun _ => Iff.rfl
  | cleared present busy =>
    exact .leaves (fun _ _ => rfl) (fun _ => rfl) (LabelCache.underWay_clear w.cache)
  | finished outcome present =>
    exact .ends _ _ outcome (flightsOf_of_present present) (flightsOf_set present _)
      (LabelCache.underWay_leave _ _ _)
  | notified present notifying =>
    refine .leaves (fun _ _ => rfl) ?_ fun _ => Iff.rfl
    intro other
    have kept := flightsOf_set_activity (present_notify present) .busy other
    rw [flights_notify] at kept
    exact kept.trans (flightsOf_notify w.callers other)

/-- The fetches of a caller can be read off the history. -/
theorem Reachable.flights_eq (reached : w.Reachable) (who : Nat) :
    w.flights who = flightsIn who w.history := by
  refine reached.induction (fun w => w.flights who = flightsIn who w.history) ?_ ?_
  · intro count
    exact flightsOf_replicate count who
  · intro w mover event w' before step
    rw [step.history_eq, flightsIn, ← before]
    cases step.fetching with
    | begins query free flights marks =>
      rw [flights, CallerEvent.flights]
      by_cases same : who = mover
      · rw [if_pos same, if_pos same.symm, same]
      · rw [if_neg same, if_neg (Ne.symm same)]
    | ends query rest outcome innermost flights marks =>
      rw [flights, CallerEvent.flights]
      by_cases same : who = mover
      · rw [if_pos same, if_pos same.symm, same, innermost, List.tail_cons]
      · rw [if_neg same, if_neg (Ne.symm same)]
    | leaves neither flights marks => rw [flights, neither]

/-! ## Single flight -/

/-- At most one fetch of each query is run, and the marks of the cache say which. -/
structure SingleFlight (w : World) : Prop where
  once : ∀ who, (w.flights who).Nodup
  alone : ∀ who other query, query ∈ w.flights who → query ∈ w.flights other → other = who
  marked : ∀ query, w.cache.UnderWay query ↔ ∃ who, query ∈ w.flights who

theorem singleFlight_start (count : Nat) : SingleFlight (start count) := by
  have none : ∀ who, (start count).flights who = [] := flightsOf_replicate count
  refine ⟨?_, ?_, ?_⟩
  · intro who
    rw [none who]
    exact List.nodup_nil
  · intro who other query running
    rw [none who] at running
    exact absurd running List.not_mem_nil
  · intro query
    refine ⟨fun marked => absurd marked (LabelCache.underWay_empty query), ?_⟩
    rintro ⟨who, running⟩
    rw [none who] at running
    exact absurd running List.not_mem_nil

private theorem SingleFlight.begins (inv : SingleFlight w) {query : LabelQuery}
    (free : ¬ w.cache.UnderWay query)
    (flights : ∀ i, w'.flights i = if i = who then query :: w.flights who else w.flights i)
    (marks : ∀ other, w'.cache.UnderWay other ↔ other = query ∨ w.cache.UnderWay other) :
    SingleFlight w' := by
  have new : ∀ i, query ∉ w.flights i := fun i running => free ((inv.marked query).2 ⟨i, running⟩)
  have mem : ∀ i other, other ∈ w'.flights i ↔ i = who ∧ other = query ∨ other ∈ w.flights i := by
    intro i other
    rw [flights]
    by_cases same : i = who
    · simp [same]
    · simp [same]
  refine ⟨?_, ?_, ?_⟩
  · intro i
    rw [flights]
    by_cases same : i = who
    · rw [if_pos same]
      exact List.nodup_cons.2 ⟨new who, inv.once who⟩
    · rw [if_neg same]
      exact inv.once i
  · intro i j other first second
    rw [mem] at first second
    rcases first with ⟨rfl, rfl⟩ | first
    · rcases second with ⟨rfl, -⟩ | second
      · rfl
      · exact absurd second (new j)
    · rcases second with ⟨rfl, rfl⟩ | second
      · exact absurd first (new i)
      · exact inv.alone i j other first second
  · intro other
    simp only [marks, mem, inv.marked]
    constructor
    · rintro (rfl | ⟨i, running⟩)
      · exact ⟨who, .inl ⟨rfl, rfl⟩⟩
      · exact ⟨i, .inr running⟩
    · rintro ⟨i, ⟨-, same⟩ | running⟩
      · exact .inl same
      · exact .inr ⟨i, running⟩

private theorem SingleFlight.ends (inv : SingleFlight w) {query : LabelQuery} {rest : List LabelQuery}
    (innermost : w.flights who = query :: rest)
    (flights : ∀ i, w'.flights i = if i = who then rest else w.flights i)
    (marks : ∀ other, w'.cache.UnderWay other ↔ other ≠ query ∧ w.cache.UnderWay other) :
    SingleFlight w' := by
  have distinct := inv.once who
  rw [innermost, List.nodup_cons] at distinct
  -- The fetch that ends was the only one of its query, so no other one loses its mark.
  have mem : ∀ i other, other ∈ w'.flights i ↔ other ≠ query ∧ other ∈ w.flights i := by
    intro i other
    rw [flights]
    by_cases same : i = who
    · subst same
      rw [if_pos rfl, innermost, List.mem_cons]
      constructor
      · intro running
        exact ⟨fun h => distinct.1 (h ▸ running), .inr running⟩
      · rintro ⟨differs, h | running⟩
        · exact absurd h differs
        · exact running
    · rw [if_neg same]
      constructor
      · intro running
        refine ⟨?_, running⟩
        rintro rfl
        exact same (inv.alone who i other (innermost ▸ List.mem_cons_self) running)
      · exact And.right
  refine ⟨?_, ?_, ?_⟩
  · intro i
    rw [flights]
    by_cases same : i = who
    · rw [if_pos same]
      exact distinct.2
    · rw [if_neg same]
      exact inv.once i
  · intro i j other first second
    exact inv.alone i j other ((mem i other).1 first).2 ((mem j other).1 second).2
  · intro other
    simp only [marks, mem, inv.marked, exists_and_left]

theorem SingleFlight.step (inv : SingleFlight w) (step : Step w who event w') : SingleFlight w' := by
  cases step.fetching with
  | begins query free flights marks => exact inv.begins free flights marks
  | ends query rest outcome innermost flights marks => exact inv.ends innermost flights marks
  | leaves neither flights marks =>
    refine ⟨?_, ?_, ?_⟩
    · intro i
      rw [flights]
      exact inv.once i
    · intro i j query first second
      rw [flights] at first second
      exact inv.alone i j query first second
    · intro query
      simp only [flights, marks, inv.marked]

theorem Reachable.singleFlight (reached : w.Reachable) : SingleFlight w :=
  reached.induction SingleFlight singleFlight_start fun inv step => inv.step step

theorem SingleFlight.underWay_of_present (inv : SingleFlight w) {query : LabelQuery}
    {flights : List LabelQuery} {activity : Activity}
    (present : w.callers[who]? = some ⟨query :: flights, activity⟩) : w.cache.UnderWay query := by
  refine (inv.marked query).2 ⟨who, ?_⟩
  rw [World.flights, flightsOf_of_present present]
  exact List.mem_cons_self

theorem SingleFlight.exists_fetcher (inv : SingleFlight w) {query : LabelQuery}
    (underWay : w.cache.UnderWay query) :
    ∃ (who : Nat) (caller : Caller), w.callers[who]? = some caller ∧ query ∈ caller.flights := by
  obtain ⟨who, running⟩ := (inv.marked query).1 underWay
  exact ⟨who, present_of_mem_flights running⟩

/-! ## The fetches of all callers -/

/-- The fetches that are being run, whoever runs them. -/
def running (w : World) : List LabelQuery := w.callers.flatMap Caller.flights

theorem mem_running (query : LabelQuery) : query ∈ w.running ↔ ∃ who, query ∈ w.flights who := by
  constructor
  · intro member
    obtain ⟨caller, present, inside⟩ := List.mem_flatMap.1 member
    obtain ⟨who, present⟩ := List.mem_iff_getElem?.1 present
    refine ⟨who, ?_⟩
    rw [flights, flightsOf_of_present present]
    exact inside
  · rintro ⟨who, running⟩
    obtain ⟨caller, present, inside⟩ := present_of_mem_flights running
    exact List.mem_flatMap.2 ⟨caller, List.mem_of_getElem? present, inside⟩

theorem SingleFlight.nodup_running (inv : SingleFlight w) : w.running.Nodup := by
  refine List.nodup_flatMap.2 ⟨?_, ?_⟩
  · intro caller member
    obtain ⟨who, present⟩ := List.mem_iff_getElem?.1 member
    have once := inv.once who
    rw [flights, flightsOf_of_present present] at once
    exact once
  · rw [List.pairwise_iff_getElem]
    intro i j inside inside' before query first second
    have same : j = i := by
      refine inv.alone i j query ?_ ?_
      · rw [flights, flightsOf_of_present (List.getElem?_eq_getElem inside)]
        exact first
      · rw [flights, flightsOf_of_present (List.getElem?_eq_getElem inside')]
        exact second
    omega

/-- At every moment at most one fetch of each query is run. The table is loading exactly while a
fetch of it is run, and a key is pending exactly while a fetch of its label is. -/
theorem one_flight_for_each_query (reached : w.Reachable) :
    (∀ query, w.running.count query ≤ 1) ∧
    (w.cache.table = .loading ↔ .table ∈ w.running) ∧
    (∀ key, key ∈ w.cache.pending ↔ .label key ∈ w.running) ∧
    (w.running = [] → w.cache.table ≠ .loading ∧ w.cache.pending = []) := by
  have single := reached.singleFlight
  have marked (query : LabelQuery) : w.cache.UnderWay query ↔ query ∈ w.running := by
    rw [single.marked, mem_running]
  refine ⟨List.nodup_iff_count_le_one.1 single.nodup_running, marked .table,
    fun key => marked (.label key), ?_⟩
  intro idle
  have unmarked (query : LabelQuery) : ¬ w.cache.UnderWay query := by
    rw [marked, idle]
    exact List.not_mem_nil
  exact ⟨unmarked .table, List.eq_nil_iff_forall_not_mem.2 fun key => unmarked (.label key)⟩

/-- A fetch of the table asks for a label, another caller clears and then waits for that label. -/
theorem one_flight_in_nested_fetches :
    let w : World := ⟨⟨.loading, .empty, ["hide"]⟩,
      [⟨[.label "hide", .table], .busy⟩, ⟨[], .asleep (.label "hide") false⟩],
      [.slept 1 (.label "hide"), .cleared 1, .started 0 (.label "hide"), .started 0 .table]⟩
    (∀ query, w.running.count query ≤ 1) ∧
    (w.cache.table = .loading ↔ .table ∈ w.running) ∧
    (∀ key, key ∈ w.cache.pending ↔ .label key ∈ w.running) ∧
    (w.running = [] → w.cache.table ≠ .loading ∧ w.cache.pending = []) :=
  one_flight_for_each_query ⟨2, [(0, .ask .table), (0, .ask (.label "hide")), (1, .clear),
    (1, .ask (.label "hide"))], rfl⟩

end World

end DraftDesk
