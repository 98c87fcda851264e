import DraftDesk.Proofs.Stragglers
import Mathlib.Data.Fintype.EquivFin

/-!
# What a clear forgets

A clear forgets if every answer that the cache gives to a call from then on is what a fetch
delivered that began from then on as well (`Forgets`). Whether it does depends on the fetches that
are under way at the clear: one of them that ends later stores what it delivers, and whoever comes
after that gets it. So a clear forgets exactly if none of them ever ends (`forgets_iff_deadlocked`),
which is to say that there is none or that those who run them wait for one another.
-/

namespace DraftDesk

/-! ## Who waits -/

/-- A caller that fell asleep and has not moved since. -/
def Waits (who : Nat) : List CallerEvent → Prop
  | [] => False
  | .slept other _ :: past => other = who ∨ Waits who past
  | event :: past => event.who ≠ who ∧ Waits who past

theorem waits_cons_of_ne {event : CallerEvent} {who : Nat} (other : event.who ≠ who)
    (past : List CallerEvent) : Waits who (event :: past) ↔ Waits who past := by
  cases event <;> simp_all [Waits, CallerEvent.who]

/-- One of some callers is asleep. -/
def Sleeps (callers : List Caller) (who : Nat) : Prop :=
  ∃ flights query notified, callers[who]? = some ⟨flights, .asleep query notified⟩

theorem sleeps_set {callers : List Caller} {who : Nat} {caller : Caller}
    (present : callers[who]? = some caller) (new : Caller) (other : Nat) :
    Sleeps (callers.set who new) other ↔
      if other = who then ∃ query notified, new.activity = .asleep query notified
      else Sleeps callers other := by
  obtain ⟨flights, activity⟩ := new
  by_cases same : other = who
  · subst same
    simp [Sleeps, present_set present]
  · simp [Sleeps, same, List.getElem?_set_ne (Ne.symm same)]

theorem sleeps_notify (callers : List Caller) (who : Nat) :
    Sleeps (callers.map Caller.notify) who ↔ Sleeps callers who := by
  unfold Sleeps
  rw [List.getElem?_map]
  cases callers[who]? with
  | none => simp
  | some caller =>
    obtain ⟨flights, activity⟩ := caller
    cases activity <;> simp [Caller.notify]

theorem not_sleeps_of_busy {callers : List Caller} {who : Nat} {caller : Caller}
    (present : callers[who]? = some caller) (busy : caller.activity = .busy) :
    ¬ Sleeps callers who := by
  rintro ⟨_, _, _, asleep⟩
  rw [present, Option.some.injEq] at asleep
  rw [asleep] at busy
  cases busy

namespace World
variable {w w' : World} {who : Nat} {event : CallerEvent}

private theorem Step.sleeps_iff_waits (step : Step w who event w') :
    Sleeps w'.callers who ↔ Waits who w'.history := by
  cases step with
  | answered present asks answer => simp [sleeps_set present, Waits, CallerEvent.who]
  | slept present asks absent underWay => simp [sleeps_set present, Waits]
  | started present asks absent free => simp [sleeps_set present, Waits, CallerEvent.who]
  | finished outcome present => simp [sleeps_set present, Waits, CallerEvent.who]
  | looked key present busy => simp [not_sleeps_of_busy present busy, Waits, CallerEvent.who]
  | inspected present busy => simp [not_sleeps_of_busy present busy, Waits, CallerEvent.who]
  | cleared present busy => simp [not_sleeps_of_busy present busy, Waits, CallerEvent.who]
  | notified present notifying =>
    simp [sleeps_set (present_notify present), Waits, CallerEvent.who]

private theorem Step.sleeps_of_ne (step : Step w who event w') {other : Nat} (differs : other ≠ who) :
    Sleeps w'.callers other ↔ Sleeps w.callers other := by
  cases step with
  | answered present asks answer => rw [sleeps_set present, if_neg differs]
  | slept present asks absent underWay => rw [sleeps_set present, if_neg differs]
  | started present asks absent free => rw [sleeps_set present, if_neg differs]
  | finished outcome present => rw [sleeps_set present, if_neg differs]
  | looked | inspected | cleared => exact Iff.rfl
  | notified present notifying =>
    rw [sleeps_set (present_notify present), if_neg differs, sleeps_notify]

/-- Who is asleep can be read off the history. -/
theorem Reachable.sleeps_iff (reached : w.Reachable) (who : Nat) :
    Sleeps w.callers who ↔ Waits who w.history := by
  refine reached.induction (fun w => Sleeps w.callers who ↔ Waits who w.history) ?_ ?_
  · intro count
    refine ⟨?_, False.elim⟩
    rintro ⟨_, _, _, asleep⟩
    obtain ⟨_, fresh⟩ := List.getElem?_eq_some_iff.1 asleep
    simp [start, Caller.fresh] at fresh
  · intro w mover event w' before step
    by_cases same : who = mover
    · subst same
      exact step.sleeps_iff_waits
    · have other : event.who ≠ who := by
        rw [step.who_eq]
        exact Ne.symm same
      rw [step.sleeps_of_ne same, before, step.history_eq, waits_cons_of_ne other]

end World

/-! ## Answers and where they come from -/

/-- An event that answers a caller from the cache. -/
inductive CallerEvent.Gives (who : Nat) :
    CallerEvent → (query : LabelQuery) → query.Answer → Prop where
  | answered (query : LabelQuery) (a : query.Answer) : Gives who (.answered who query a) query a
  | looked (key label : String) : Gives who (.looked who key (some label)) (.label key) label

/-- The call that a caller is in, or is about to make, did not begin before some events: at one
time since it was not waiting. -/
def CallSince (who : Nat) (events before : List CallerEvent) : Prop :=
  ∃ recent, recent <:+ events ∧ ¬ Waits who (recent ++ before)

/-- An answer was delivered by a fetch that began and ended in some events. -/
def Supplied (events : List CallerEvent) (query : LabelQuery) (a : query.Answer) : Prop :=
  ∃ who, ∃ ended : LabelQuery, ∃ b : ended.Answer, ∃ later past,
    events = later ++ .finished who ended (.value b) :: past ∧
      (flightsIn who past).head? = some ended ∧ ended.supply b query = some a

/-- What answers a query in what an event delivers. -/
def CallerEvent.supply (query : LabelQuery) : CallerEvent → Option query.Answer
  | .finished _ ended (.value b) => ended.supply b query
  | _ => none

instance (query : LabelQuery) : Infinite query.Answer :=
  match query with
  | .table => Infinite.of_injective LabelTable.mk fun _ _ => LabelTable.mk.inj
  | .label _ => inferInstanceAs (Infinite String)

/-- A fetch can deliver what no other one has delivered. -/
theorem exists_not_delivered (events : List CallerEvent) (query : LabelQuery) :
    ∃ a : query.Answer, ∀ event ∈ events, event.supply query ≠ some a := by
  classical
  obtain ⟨a, new⟩ :=
    Infinite.exists_notMem_finset (events.filterMap (CallerEvent.supply query)).toFinset
  refine ⟨a, ?_⟩
  intro event member supplies
  rw [List.mem_toFinset, List.mem_filterMap] at new
  exact new ⟨event, member, supplies⟩

/-- A fetch that had begun before some events does not count as a source among them. -/
theorem not_supplied {i : Nat} {query : LabelQuery} {a : query.Answer} {recent : List CallerEvent}
    (since : flightsIn i recent = []) (new : ∀ event ∈ recent, event.supply query ≠ some a) :
    ¬ Supplied (.notified i :: .finished i query (.value a) :: recent) query a := by
  rintro ⟨other, ended, b, later, past, split, began, supplies⟩
  cases later with
  | nil => cases split
  | cons newest later =>
    rw [List.cons_append, List.cons.injEq] at split
    cases later with
    | nil =>
      cases split.2
      rw [since] at began
      cases began
    | cons second later =>
      rw [List.cons_append, List.cons.injEq] at split
      refine new (.finished other ended (.value b)) ?_ supplies
      rw [split.2.2]
      exact List.mem_append_right later List.mem_cons_self

/-! ## Clears that forget -/

namespace World

/-- Calls that begin from here on are answered with what fetches that do so too deliver. -/
def Forgets (w : World) : Prop :=
  ∀ (w' : World) (later : List CallerEvent) (event : CallerEvent) (past : List CallerEvent)
    (who : Nat) (query : LabelQuery) (a : query.Answer), Leads w (later ++ event :: past) w' →
    event.Gives who query a → CallSince who past w.history → Supplied past query a

variable {w w' cleared : World} {who : Nat} {event : CallerEvent}

theorem Step.answer_of_gives {other : Nat} {query : LabelQuery} {a : query.Answer}
    (step : Step w who event w') (gives : event.Gives other query a) :
    w.cache.answer? query = some a := by
  cases step with
  | answered present asks answer =>
    cases gives
    exact answer
  | looked key present busy =>
    generalize found : w.cache.get? key = label at gives
    cases gives
    exact found
  | _ => cases gives

/-- Where all the callers in a fetch are stuck, a fetch that ends began later. -/
theorem Deadlocked.began_since (deadlocked : Deadlocked w) (reached : w.Reachable)
    (unstored : ∀ query, w.cache.stored query = none) {later past : List CallerEvent}
    {ended : LabelQuery} {outcome : Outcome String ended.Answer}
    (leads : Leads w (later ++ .finished who ended outcome :: past) w') :
    (flightsIn who past).head? = some ended := by
  obtain ⟨next, mover, after, run, step⟩ := leads.exists_step
  have frozen := deadlocked.frozen_of_leads reached unstored run
  cases step with
  | finished outcome present =>
    have before : flightsIn who w.history = [] := by
      rw [← reached.flights_eq, frozen.idle_of_busy present]
    have now := (reached.leads run).flights_eq who
    rw [run.2, flightsIn_append before, World.flights, flightsOf_of_present present] at now
    rw [← now, List.head?_cons]

theorem Deadlocked.forgets (deadlocked : Deadlocked w) (reached : w.Reachable)
    (unstored : ∀ query, w.cache.stored query = none) {before : List CallerEvent}
    (happened : w.history = .cleared who :: before) : w.Forgets := by
  intro w' later event past caller query a leads gives _
  obtain ⟨next, mover, after, run, step⟩ := leads.exists_step
  have answer := step.answer_of_gives gives
  have history : next.history = past ++ .cleared who :: before := by rw [run.2, happened]
  obtain ⟨other, ended, b, recent, old, split, supplies⟩ :=
    (reached.leads run).recorded.exists_supply history answer
  subst split
  exact ⟨other, ended, b, recent, old, rfl, deadlocked.began_since reached unstored run, supplies⟩

/-- What a fetch from before delivers is what its caller gets when it asks again. -/
theorem Ready.not_forgets {i : Nat} {ended : LabelQuery} {flights : List LabelQuery}
    {recent : List CallerEvent} (reached : w.Reachable)
    (ready : Ready w i (ended :: flights) recent w') : ¬ w.Forgets := by
  intro forgets
  obtain ⟨leads, present, since⟩ := ready
  have underWay := (reached.leads leads).singleFlight.underWay_of_present present
  -- A value that has not been delivered yet cannot come from any other fetch.
  obtain ⟨a, new⟩ := exists_not_delivered recent ended
  have finished := leads.step (.finished (.value a) present)
  have notifying := present_set present ⟨flights, .notifying⟩
  have notified := finished.step (.notified notifying rfl)
  have busy := present_set_notify notifying ⟨flights, .busy⟩
  have stored := LabelCache.stored_leave_self underWay (.value a : Outcome String ended.Answer)
  rw [Outcome.value?, Option.some_or] at stored
  have read := notified.step (.answered busy (.inl rfl) (LabelCache.answer?_of_stored stored))
  have since_call : CallSince i (.notified i :: .finished i ended (.value a) :: recent) w.history :=
    ⟨_, List.suffix_refl _, fun waits => waits.1 rfl⟩
  exact not_supplied since new (forgets _ [] _ _ i ended a read (.answered ended a) since_call)

/-- After a clear the cache forgets exactly if every caller that is in a fetch then is stuck. -/
theorem forgets_iff_deadlocked (reached : w.Reachable)
    (clear : w.move? who .clear = some cleared) : cleared.Forgets ↔ w.Deadlocked := by
  have reached' := reached.step_of_move? clear
  obtain ⟨own, helper, same⟩ := eq_of_move?_clear clear
  have callers : cleared.callers = w.callers := by rw [same]
  have history : cleared.history = .cleared who :: w.history := by rw [same]
  have unstored : ∀ query, cleared.cache.stored query = none := by
    rw [same]
    exact LabelCache.stored_clear w.cache
  have stuck (caller : Caller) : cleared.Stuck caller ↔ w.Stuck caller := by
    simp only [Stuck, same, LabelCache.underWay_clear]
  rw [← callers] at helper
  constructor
  · intro forgets caller member running
    rw [← stuck]
    by_contra moves
    rw [← callers] at member
    obtain ⟨i, present⟩ := List.mem_iff_getElem?.1 member
    obtain ⟨recent, w', ready⟩ := exists_ready present helper unstored moves
    obtain ⟨ended, flights, nested⟩ := List.exists_cons_of_ne_nil running
    rw [nested] at ready
    exact ready.not_forgets reached' forgets
  · intro deadlocked
    have still : Deadlocked cleared := by
      intro caller member running
      rw [callers] at member
      rw [stuck]
      exact deadlocked caller member running
    exact still.forgets reached' unstored history

/-- With no fetch under way a clear forgets what was fetched before. -/
theorem forgets_after_fetch :
    Forgets ⟨.empty, [⟨[], .busy⟩], [.cleared 0, .notified 0,
      .finished 0 (.label "hide") (.value "Hide"), .started 0 (.label "hide")]⟩ := by
  have fetched : (start 1).run? [(0, .ask (.label "hide")),
      (0, .finish (.label "hide") (.value "Hide")), (0, .notify)] =
      some ⟨⟨.empty, ⟨[("hide", "Hide")]⟩, []⟩, [⟨[], .busy⟩], [.notified 0,
        .finished 0 (.label "hide") (.value "Hide"), .started 0 (.label "hide")]⟩ := rfl
  refine (@forgets_iff_deadlocked _ _ 0 ⟨1, _, fetched⟩ rfl).2 ?_
  intro caller member running
  rw [List.mem_singleton.1 member] at running
  exact absurd rfl running

/-- A clear does not forget a label whose fetch is under way. -/
theorem not_forgets_label_under_way :
    ¬ ∀ (w cleared : World) (who : Nat), w.Reachable → w.move? who .clear = some cleared →
      cleared.Forgets := by
  intro forgets
  have asked : (start 1).run? [(0, .ask (.label "hide"))] =
      some ⟨⟨.empty, .empty, ["hide"]⟩, [⟨[.label "hide"], .busy⟩],
        [.started 0 (.label "hide")]⟩ := rfl
  have forgetful : Forgets ⟨⟨.empty, .empty, ["hide"]⟩, [⟨[.label "hide"], .busy⟩],
      [.cleared 0, .started 0 (.label "hide")]⟩ := forgets _ _ 0 ⟨1, _, asked⟩ rfl
  have delivered : World.run? ⟨⟨.empty, .empty, ["hide"]⟩, [⟨[.label "hide"], .busy⟩],
      [.cleared 0, .started 0 (.label "hide")]⟩
      [(0, .finish (.label "hide") (.value "Hide")), (0, .notify), (0, .look "hide")] =
      some ⟨⟨.empty, ⟨[("hide", "Hide")]⟩, []⟩, [⟨[], .busy⟩],
        [.looked 0 "hide" (some "Hide"), .notified 0, .finished 0 (.label "hide") (.value "Hide"),
          .cleared 0, .started 0 (.label "hide")]⟩ := rfl
  have supplied := forgetful _ [] _ [.notified 0, .finished 0 (.label "hide") (.value "Hide")] 0
    (.label "hide") "Hide" ⟨⟨_, delivered⟩, rfl⟩ (.looked "hide" "Hide")
    ⟨_, List.suffix_refl _, fun waits => waits.1 rfl⟩
  refine not_supplied rfl ?_ supplied
  intro event member
  exact absurd member List.not_mem_nil

end World

end DraftDesk
