import DraftDesk.Proofs.Flights

/-!
# Sleepers and those who wake them

A caller falls asleep only while a fetch that it waits for is under way, and the step that takes the
mark of a fetch away leaves its caller with the sleepers still to wake. So a sleeper that nobody has
notified waits for a fetch under way, or somebody has still to notify (`Attended`): a clear notifies
nobody, but it takes no mark away either. Where fetches do not use the cache, whoever runs one is
awake, and no sleeper is forgotten (`no_sleeper_forgotten`).
-/

namespace DraftDesk

/-- A caller is asleep, and nobody has notified it. -/
def Caller.Unnotified (caller : Caller) : Prop := ∃ query, caller.activity = .asleep query false

theorem not_unnotified_notify (caller : Caller) : ¬ caller.notify.Unnotified := by
  obtain ⟨flights, activity⟩ := caller
  cases activity <;> simp [Caller.Unnotified, Caller.notify]

namespace World
variable {w w' : World} {who : Nat} {event : CallerEvent}

/-- A caller has ended a fetch and has still to wake the sleepers. -/
def Notifies (w : World) (who : Nat) : Prop :=
  ∃ caller, w.callers[who]? = some caller ∧ caller.activity = .notifying

/-- Each sleeper that nobody has notified waits for a fetch that is under way, or somebody has
still to notify. -/
def Attended (w : World) : Prop :=
  ∀ (who : Nat) (caller : Caller) (query : LabelQuery), w.callers[who]? = some caller →
    caller.activity = .asleep query false → w.cache.UnderWay query ∨ ∃ other, w.Notifies other

theorem Asks.not_notifying {caller : Caller} {query : LabelQuery} (asks : Asks caller query) :
    caller.activity ≠ .notifying := by
  rcases asks with busy | ⟨_, asleep⟩
  · rw [busy]
    exact Activity.noConfusion
  · rw [asleep]
    exact Activity.noConfusion

/-- A step of a caller that had nobody to wake, and falls asleep at most for a fetch under way. -/
private theorem Attended.set (attended : Attended w) {caller new : Caller} {cache : LabelCache}
    {history : List CallerEvent} (present : w.callers[who]? = some caller)
    (quiet : caller.activity ≠ .notifying)
    (marks : ∀ query, w.cache.UnderWay query → cache.UnderWay query)
    (own : ∀ query, new.activity = .asleep query false → cache.UnderWay query) :
    Attended ⟨cache, w.callers.set who new, history⟩ := by
  intro i sleeper query found asleep
  rcases present_of_set found with ⟨-, rfl⟩ | ⟨-, before⟩
  · exact .inl (own query asleep)
  · rcases attended i sleeper query before asleep with underWay | ⟨other, notifier, found, notifying⟩
    · exact .inl (marks query underWay)
    · have differs : who ≠ other := by
        rintro rfl
        rw [present, Option.some.injEq] at found
        exact quiet (found ▸ notifying)
      refine .inr ⟨other, notifier, ?_, notifying⟩
      rw [List.getElem?_set_ne differs, found]

theorem Attended.step (attended : Attended w) (step : Step w who event w') : Attended w' := by
  cases step with
  | answered present asks answer =>
    exact attended.set present asks.not_notifying (fun _ => id) fun _ asleep => nomatch asleep
  | slept present asks absent underWay =>
    refine attended.set present asks.not_notifying (fun _ => id) ?_
    rintro query ⟨⟩
    exact underWay
  | started present asks absent free =>
    refine attended.set present asks.not_notifying ?_ fun _ asleep => nomatch asleep
    intro query underWay
    exact (LabelCache.underWay_mark _ _ _).2 (.inr underWay)
  | looked | inspected =>
    intro i sleeper query found asleep
    exact attended i sleeper query found asleep
  | cleared present busy =>
    intro i sleeper query found asleep
    rw [LabelCache.underWay_clear]
    exact attended i sleeper query found asleep
  | finished outcome present =>
    -- Whatever the sleepers wait for, the caller that has ended its fetch will notify them.
    intro i sleeper query found asleep
    exact .inr ⟨who, _, present_set present _, rfl⟩
  | notified present notifying =>
    intro i sleeper query found asleep
    rcases present_of_set_notify found with ⟨-, rfl⟩ | ⟨-, caller, -, rfl⟩
    · cases asleep
    · exact absurd ⟨query, asleep⟩ (not_unnotified_notify caller)

theorem Reachable.attended (reached : w.Reachable) : Attended w := by
  refine reached.induction Attended ?_ fun attended step => attended.step step
  intro count i caller query present asleep
  obtain rfl := present_of_start present
  cases asleep

/-! ## Fetches that do not use the cache -/

/-- The worlds that callers reach from a fresh cache if a caller in a fetch does nothing but end
it. -/
inductive ReachedDirectly (count : Nat) : World → Prop where
  | start : ReachedDirectly count (start count)
  | next {w w' : World} {who : Nat} {move : Move} (reached : ReachedDirectly count w)
      (direct : w.flights who = [] ∨ ∃ query outcome, move = .finish query outcome)
      (moved : w.move? who move = some w') : ReachedDirectly count w'

theorem ReachedDirectly.reachable {count : Nat} (reached : ReachedDirectly count w) : w.Reachable := by
  induction reached with
  | start => exact ⟨count, [], rfl⟩
  | next reached direct moved ih => exact ih.step_of_move? moved

/-- Whoever is in a fetch runs that one alone, and is awake. -/
def Flat (w : World) : Prop :=
  ∀ (who : Nat) (caller : Caller), w.callers[who]? = some caller →
    caller.flights = [] ∨ ∃ query, caller = ⟨[query], .busy⟩

private theorem Flat.set (flat : Flat w) {new : Caller} {cache : LabelCache}
    {history : List CallerEvent} (own : new.flights = [] ∨ ∃ query, new = ⟨[query], .busy⟩) :
    Flat ⟨cache, w.callers.set who new, history⟩ := by
  intro i caller found
  rcases present_of_set found with ⟨-, rfl⟩ | ⟨-, before⟩
  · exact own
  · exact flat i caller before

/-- A caller in no fetch stays flat by whatever it does. -/
theorem Flat.step_of_idle (flat : Flat w) (idle : w.flights who = []) (step : Step w who event w') :
    Flat w' := by
  have own {caller : Caller} (present : w.callers[who]? = some caller) : caller.flights = [] :=
    (flightsOf_of_present present).symm.trans idle
  cases step with
  | answered present asks answer =>
    have none := own present
    exact flat.set (.inl none)
  | slept present asks absent underWay =>
    have none := own present
    exact flat.set (.inl none)
  | @started caller query present asks absent free =>
    refine flat.set (.inr ⟨query, ?_⟩)
    rw [own present]
  | looked | inspected | cleared => exact flat
  | finished outcome present => exact absurd (own present) (List.cons_ne_nil _ _)
  | notified present notifying =>
    intro i caller found
    have none := own present
    rcases present_of_set_notify found with ⟨-, rfl⟩ | ⟨-, before, asItWas, rfl⟩
    · exact .inl none
    · rcases flat i before asItWas with none | ⟨query, rfl⟩
      · exact .inl ((flights_notify before).trans none)
      · exact .inr ⟨query, rfl⟩

theorem ReachedDirectly.flat {count : Nat} (reached : ReachedDirectly count w) : Flat w := by
  induction reached with
  | start =>
    intro i caller present
    obtain rfl := present_of_start present
    exact .inl rfl
  | @next w w' who move reached direct moved flat =>
    rcases direct with idle | ⟨query, outcome, rfl⟩
    · obtain ⟨event, step⟩ := step_of_move? moved
      exact flat.step_of_idle idle step
    · obtain ⟨flights, present, rfl⟩ := eq_of_move?_finish moved
      refine flat.set (.inl ?_)
      rcases flat who _ present with none | ⟨running, same⟩
      · exact absurd none (List.cons_ne_nil _ _)
      · rw [Caller.mk.injEq, List.cons.injEq] at same
        exact same.1.2

/-- Where fetches do not use the cache, a sleeper that has not been notified waits for a fetch that
another caller is running, or another caller has still to wake it. So the callers are never all
asleep or in no call while one of them sleeps. -/
theorem no_sleeper_forgotten {count : Nat} (reached : ReachedDirectly count w) :
    (∀ (who : Nat) (caller : Caller) (query : LabelQuery), w.callers[who]? = some caller →
      caller.activity = .asleep query false → ∃ other, other ≠ who ∧
        (w.callers[other]? = some ⟨[query], .busy⟩ ∨ w.callers[other]? = some ⟨[], .notifying⟩)) ∧
    ¬ ((∀ caller ∈ w.callers, caller.Unnotified ∨ caller = ⟨[], .busy⟩) ∧
      ∃ caller ∈ w.callers, caller.Unnotified) := by
  have flat := reached.flat
  have helper : ∀ (who : Nat) (caller : Caller) (query : LabelQuery), w.callers[who]? = some caller →
      caller.activity = .asleep query false → ∃ other, other ≠ who ∧
        (w.callers[other]? = some ⟨[query], .busy⟩ ∨ w.callers[other]? = some ⟨[], .notifying⟩) := by
    intro who sleeper query present asleep
    have differs {other : Nat} {caller : Caller} (found : w.callers[other]? = some caller)
        (awake : caller.activity ≠ .asleep query false) : other ≠ who := by
      rintro rfl
      rw [present, Option.some.injEq] at found
      exact awake (found ▸ asleep)
    rcases reached.reachable.attended who sleeper query present asleep with
      underWay | ⟨other, notifier, found, notifying⟩
    · obtain ⟨other, caller, found, inside⟩ := reached.reachable.singleFlight.exists_fetcher underWay
      rcases flat other caller found with none | ⟨fetched, rfl⟩
      · rw [none] at inside
        exact absurd inside List.not_mem_nil
      · obtain rfl := List.mem_singleton.1 inside
        exact ⟨other, differs found Activity.noConfusion, .inl found⟩
    · obtain ⟨flights, activity⟩ := notifier
      obtain rfl : activity = .notifying := notifying
      rcases flat other _ found with none | ⟨fetched, same⟩
      · obtain rfl : flights = [] := none
        exact ⟨other, differs found Activity.noConfusion, .inr found⟩
      · cases same
  refine ⟨helper, ?_⟩
  rintro ⟨resting, sleeper, member, query, asleep⟩
  obtain ⟨who, present⟩ := List.mem_iff_getElem?.1 member
  obtain ⟨other, -, found⟩ := helper who sleeper query present asleep
  rcases found with found | found
  · rcases resting _ (List.mem_of_getElem? found) with ⟨_, asleep⟩ | idle
    · cases asleep
    · cases idle
  · rcases resting _ (List.mem_of_getElem? found) with ⟨_, asleep⟩ | idle
    · cases asleep
    · cases idle

/-- A fetch has failed and another caller has cleared, but the one that slept meanwhile has not been
notified yet. -/
theorem no_sleeper_forgotten_after_failure :
    let w : World := ⟨.empty,
      [⟨[], .notifying⟩, ⟨[], .asleep (.label "hide") false⟩, ⟨[], .busy⟩],
      [.cleared 2, .finished 0 (.label "hide") (.failure "offline"), .slept 1 (.label "hide"),
        .started 0 (.label "hide")]⟩
    ReachedDirectly 3 w ∧
    (∀ (who : Nat) (caller : Caller) (query : LabelQuery), w.callers[who]? = some caller →
      caller.activity = .asleep query false → ∃ other, other ≠ who ∧
        (w.callers[other]? = some ⟨[query], .busy⟩ ∨ w.callers[other]? = some ⟨[], .notifying⟩)) ∧
    ¬ ((∀ caller ∈ w.callers, caller.Unnotified ∨ caller = ⟨[], .busy⟩) ∧
      ∃ caller ∈ w.callers, caller.Unnotified) := by
  intro w
  have started : ReachedDirectly 3 _ :=
    .next .start (.inl rfl) (rfl : (start 3).move? 0 (.ask (.label "hide")) = some _)
  have slept : ReachedDirectly 3 _ :=
    .next started (.inl rfl) (rfl : World.move? _ 1 (.ask (.label "hide")) = some _)
  have failed : ReachedDirectly 3 _ :=
    .next slept (.inr ⟨_, _, rfl⟩)
      (rfl : World.move? _ 0 (.finish (.label "hide") (.failure "offline")) = some _)
  have cleared : ReachedDirectly 3 w :=
    .next failed (.inl rfl) (rfl : World.move? _ 2 .clear = some _)
  exact ⟨cleared, no_sleeper_forgotten cleared⟩

/-- A fetch that does use the cache may sleep for good: here one waits for itself. -/
example : (start 1).run? [(0, .ask .table), (0, .ask .table)] =
    some ⟨⟨.loading, .empty, []⟩, [⟨[.table], .asleep .table false⟩],
      [.slept 0 .table, .started 0 .table]⟩ := rfl

end World

end DraftDesk
