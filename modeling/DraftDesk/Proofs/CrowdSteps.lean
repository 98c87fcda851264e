import DraftDesk.Crowd
import DraftDesk.Proofs.Wakeups

/-!
# Steps of a crowd

The callers of a crowd have their turns in any order, and a sleeper may stir between them without
having been notified (`Reaches`). Each caller is in one of five phases of its only call (`Phase`),
and `Step` lists what a turn can do in each of them. Nobody is left waiting: where nobody has a turn
any more, everybody has got a result (`Reaches.done_of_no_turn`).
-/

namespace DraftDesk.Crowd

/-- What a caller got for a query at an event. -/
def result (query : LabelQuery) : CallerEvent → Option (Nat × Outcome String query.Answer)
  | .answered who asked a => if same : asked = query then some (who, .value (same ▸ a)) else none
  | .finished who ended outcome => if same : ended = query then some (who, same ▸ outcome) else none
  | _ => none

/-- Who got what for a query, latest first. -/
def results (query : LabelQuery) (w : World) : List (Nat × Outcome String query.Answer) :=
  w.history.filterMap (result query)

/-- Those who got a result. -/
def resolved (query : LabelQuery) (w : World) : List Nat := (results query w).map Prod.fst

theorem result_answered (query : LabelQuery) (who : Nat) (a : query.Answer) :
    result query (.answered who query a) = some (who, .value a) := by
  simp [result]

theorem result_finished (query : LabelQuery) (who : Nat) (outcome : Outcome String query.Answer) :
    result query (.finished who query outcome) = some (who, outcome) := by
  simp [result]

theorem who_of_result {query : LabelQuery} {event : CallerEvent}
    {got : Nat × Outcome String query.Answer} (h : result query event = some got) :
    event.who = got.1 := by
  cases event <;> simp only [result, Option.dite_none_right_eq_some, Option.some.injEq, reduceCtorEq] at h
  · obtain ⟨_, rfl⟩ := h
    rfl
  · obtain ⟨_, rfl⟩ := h
    rfl

/-- Who got a result has been heard of. -/
theorem exists_event_of_mem_resolved {query : LabelQuery} {w : World} {who : Nat}
    (got : who ∈ resolved query w) : ∃ event ∈ w.history, event.who = who := by
  obtain ⟨entry, member, rfl⟩ := List.mem_map.1 got
  obtain ⟨event, inside, gave⟩ := List.mem_filterMap.1 member
  exact ⟨event, inside, who_of_result gave⟩

section
variable (query : LabelQuery) (ending : Nat → Outcome String query.Answer)

/-- The worlds that a crowd comes to, with the number of turns so far. -/
inductive Reaches (count : Nat) : Nat → World → Prop where
  | start : Reaches count 0 (World.start count)
  | turn {turns : Nat} {w w' : World} {who : Nat} (reaches : Reaches count turns w)
      (taken : turn? query ending w who = some w') : Reaches count (turns + 1) w'
  /-- A sleeper wakes up that nobody has notified. -/
  | stir {turns : Nat} {w w' : World} {who : Nat} {flights : List LabelQuery} {waited : LabelQuery}
      (reaches : Reaches count turns w)
      (asleep : w.callers[who]? = some ⟨flights, .asleep waited false⟩)
      (woken : w.move? who .wake = some w') : Reaches count turns w'

/-- How far a caller is with its call. -/
inductive Phase (w : World) (who : Nat) : Caller → Prop where
  | fresh (unheard : ∀ event ∈ w.history, event.who ≠ who) : Phase w who ⟨[], .busy⟩
  | asleep (notified : Bool) (without : who ∉ resolved query w) :
      Phase w who ⟨[], .asleep query notified⟩
  | fetching (without : who ∉ resolved query w) : Phase w who ⟨[query], .busy⟩
  | notifying (got : who ∈ resolved query w) : Phase w who ⟨[], .notifying⟩
  | done (got : who ∈ resolved query w) : Phase w who ⟨[], .busy⟩

/-- A caller that has not called yet, or sleeps. -/
def Waiting (w : World) (who : Nat) (activity : Activity) : Prop :=
  (activity = .busy ∧ ∀ event ∈ w.history, event.who ≠ who) ∨
    ∃ notified, activity = .asleep query notified ∧ who ∉ resolved query w

/-- What a turn can do, or a sleeper that stirs. -/
inductive Step (w : World) (who : Nat) : World → Prop where
  | answered {activity : Activity} {a : query.Answer}
      (present : w.callers[who]? = some ⟨[], activity⟩) (waiting : Waiting query w who activity)
      (answer : w.cache.answer? query = some a) :
      Step w who ⟨w.cache, w.callers.set who ⟨[], .busy⟩, .answered who query a :: w.history⟩
  | slept {activity : Activity}
      (present : w.callers[who]? = some ⟨[], activity⟩) (waiting : Waiting query w who activity)
      (absent : w.cache.answer? query = none) (underWay : w.cache.UnderWay query) :
      Step w who ⟨w.cache, w.callers.set who ⟨[], .asleep query false⟩, .slept who query :: w.history⟩
  | started {activity : Activity}
      (present : w.callers[who]? = some ⟨[], activity⟩) (waiting : Waiting query w who activity)
      (absent : w.cache.answer? query = none) (free : ¬ w.cache.UnderWay query) :
      Step w who ⟨w.cache.mark query, w.callers.set who ⟨[query], .busy⟩,
        .started who query :: w.history⟩
  | finished (present : w.callers[who]? = some ⟨[query], .busy⟩) (without : who ∉ resolved query w) :
      Step w who ⟨w.cache.leave query (ending (fetches w - 1)),
        w.callers.set who ⟨[], .notifying⟩,
        .finished who query (ending (fetches w - 1)) :: w.history⟩
  | notified (present : w.callers[who]? = some ⟨[], .notifying⟩) (got : who ∈ resolved query w) :
      Step w who ⟨w.cache, (w.callers.map Caller.notify).set who ⟨[], .busy⟩,
        .notified who :: w.history⟩

end

variable {query : LabelQuery} {ending : Nat → Outcome String query.Answer} {w w' : World} {who : Nat}

theorem Waiting.not_resolved {activity : Activity} (waiting : Waiting query w who activity) :
    who ∉ resolved query w := by
  rcases waiting with ⟨-, unheard⟩ | ⟨_, -, without⟩
  · intro got
    obtain ⟨event, inside, same⟩ := exists_event_of_mem_resolved got
    exact unheard event inside same
  · exact without

/-! ## Turns -/

theorem step_enter {activity : Activity} (present : w.callers[who]? = some ⟨[], activity⟩)
    (waiting : Waiting query w who activity) :
    Step query ending w who (w.enter who ⟨[], activity⟩ query) := by
  refine World.enter_cases w who ⟨[], activity⟩ query ?_ ?_ ?_
  · intro a answer
    exact .answered present waiting answer
  · intro absent underWay
    exact .slept present waiting absent underWay
  · intro absent free
    exact .started present waiting absent free

theorem turn?_fresh (present : w.callers[who]? = some ⟨[], .busy⟩)
    (unheard : ∀ event ∈ w.history, event.who ≠ who) :
    turn? query ending w who = some (w.enter who ⟨[], .busy⟩ query) := by
  have none : ¬ ∃ event ∈ w.history, event.who = who := by
    rintro ⟨event, inside, same⟩
    exact unheard event inside same
  simp [turn?, move, present, none, World.move?_ask present]

theorem turn?_notified {waited : LabelQuery}
    (present : w.callers[who]? = some ⟨[], .asleep waited true⟩) :
    turn? query ending w who = some (w.enter who ⟨[], .asleep waited true⟩ waited) := by
  simp [turn?, move, present, World.move?_wake present]

theorem turn?_fetching (present : w.callers[who]? = some ⟨[query], .busy⟩) :
    turn? query ending w who = some ⟨w.cache.leave query (ending (fetches w - 1)),
      w.callers.set who ⟨[], .notifying⟩,
      .finished who query (ending (fetches w - 1)) :: w.history⟩ := by
  simp [turn?, move, present, World.move?_finish present]

theorem turn?_notifying (present : w.callers[who]? = some ⟨[], .notifying⟩) :
    turn? query ending w who = some ⟨w.cache, (w.callers.map Caller.notify).set who ⟨[], .busy⟩,
      .notified who :: w.history⟩ := by
  simp [turn?, move, present, World.move?_notify present]

theorem turn?_done (present : w.callers[who]? = some ⟨[], .busy⟩) (got : who ∈ resolved query w) :
    turn? query ending w who = none := by
  obtain ⟨event, inside, same⟩ := exists_event_of_mem_resolved got
  have heard : ∃ event ∈ w.history, event.who = who := ⟨event, inside, same⟩
  simp [turn?, move, present, heard]

theorem present_of_turn? (taken : turn? query ending w who = some w') :
    ∃ caller, w.callers[who]? = some caller := by
  cases present : w.callers[who]? with
  | none => simp [turn?, move, present] at taken
  | some caller => exact ⟨caller, rfl⟩

/-- Where the callers are in their phases, a turn is a step. -/
theorem step_of_turn? (phases : ∀ who caller, w.callers[who]? = some caller → Phase query w who caller)
    (taken : turn? query ending w who = some w') : Step query ending w who w' := by
  obtain ⟨caller, present⟩ := present_of_turn? taken
  cases phases who caller present with
  | fresh unheard =>
    rw [turn?_fresh present unheard, Option.some.injEq] at taken
    exact taken ▸ step_enter present (.inl ⟨rfl, unheard⟩)
  | asleep notified without =>
    cases notified with
    | false => simp [turn?, move, present] at taken
    | true =>
      rw [turn?_notified present, Option.some.injEq] at taken
      exact taken ▸ step_enter present (.inr ⟨true, rfl, without⟩)
  | fetching without =>
    rw [turn?_fetching present, Option.some.injEq] at taken
    exact taken ▸ .finished present without
  | notifying got =>
    rw [turn?_notifying present, Option.some.injEq] at taken
    exact taken ▸ .notified present got
  | done got =>
    rw [turn?_done present got] at taken
    cases taken

theorem step_of_stir (phases : ∀ who caller, w.callers[who]? = some caller → Phase query w who caller)
    {flights : List LabelQuery} {waited : LabelQuery}
    (asleep : w.callers[who]? = some ⟨flights, .asleep waited false⟩)
    (woken : w.move? who .wake = some w') : Step query ending w who w' := by
  cases phases who _ asleep with
  | asleep _ without =>
    rw [World.move?_wake asleep, Option.some.injEq] at woken
    exact woken ▸ step_enter asleep (.inr ⟨false, rfl, without⟩)

/-! ## Phases -/

theorem results_silent {cache : LabelCache} {callers : List Caller} {event : CallerEvent}
    (silent : result query event = none) :
    results query ⟨cache, callers, event :: w.history⟩ = results query w := by
  simp [results, silent]

theorem results_answered (cache : LabelCache) (callers : List Caller) (a : query.Answer) :
    results query ⟨cache, callers, .answered who query a :: w.history⟩ =
      (who, .value a) :: results query w := by
  simp [results, result_answered]

theorem results_finished (cache : LabelCache) (callers : List Caller)
    (outcome : Outcome String query.Answer) :
    results query ⟨cache, callers, .finished who query outcome :: w.history⟩ =
      (who, outcome) :: results query w := by
  simp [results, result_finished]

/-- A caller is as far as before where an event is not its own. -/
theorem Phase.frame {caller : Caller} {event : CallerEvent} {i : Nat} (phase : Phase query w i caller)
    (happened : w'.history = event :: w.history) (other : event.who ≠ i) : Phase query w' i caller := by
  have same : i ∈ resolved query w' ↔ i ∈ resolved query w := by
    cases gave : result query event with
    | none => simp [resolved, results, happened, gave]
    | some got =>
      have differs : i ≠ got.1 := who_of_result gave ▸ Ne.symm other
      simp [resolved, results, happened, gave, differs]
  cases phase with
  | fresh unheard =>
    refine .fresh ?_
    rw [happened]
    exact List.forall_mem_cons.2 ⟨other, unheard⟩
  | asleep notified without => exact .asleep notified (mt same.1 without)
  | fetching without => exact .fetching (mt same.1 without)
  | notifying got => exact .notifying (same.2 got)
  | done got => exact .done (same.2 got)

theorem Phase.notify {caller : Caller} {i : Nat} (phase : Phase query w i caller) :
    Phase query w i caller.notify := by
  cases phase with
  | fresh unheard => exact .fresh unheard
  | asleep notified without => exact .asleep true without
  | fetching without => exact .fetching without
  | notifying got => exact .notifying got
  | done got => exact .done got

/-- The callers of a crowd, each of which gets at most one result. -/
structure Roster (query : LabelQuery) (count : Nat) (w : World) : Prop where
  size : w.callers.length = count
  phases : ∀ who caller, w.callers[who]? = some caller → Phase query w who caller
  once : (resolved query w).Nodup
  inside : ∀ who ∈ resolved query w, who < count

variable {count turns : Nat}

theorem Roster.lt (roster : Roster query count w) {caller : Caller}
    (present : w.callers[who]? = some caller) : who < count := by
  rw [← roster.size]
  exact (List.getElem?_eq_some_iff.1 present).1

/-- Where one caller moves, the others stay in their phases. -/
theorem Roster.phases_set (roster : Roster query count w) {cache : LabelCache} {new : Caller}
    {event : CallerEvent} (mine : event.who = who)
    (own : Phase query ⟨cache, w.callers.set who new, event :: w.history⟩ who new) :
    ∀ i caller, (w.callers.set who new)[i]? = some caller →
      Phase query ⟨cache, w.callers.set who new, event :: w.history⟩ i caller := by
  intro i caller found
  rcases present_of_set found with ⟨rfl, rfl⟩ | ⟨differs, before⟩
  · exact own
  · exact (roster.phases i caller before).frame rfl (mine ▸ Ne.symm differs)

theorem Step.phases (roster : Roster query count w) (step : Step query ending w who w') :
    ∀ i caller, w'.callers[i]? = some caller → Phase query w' i caller := by
  cases step with
  | answered present waiting answer =>
    refine roster.phases_set rfl (.done ?_)
    rw [resolved, results_answered]
    exact List.mem_cons_self
  | slept present waiting absent underWay =>
    refine roster.phases_set rfl (.asleep false ?_)
    rw [resolved, results_silent rfl]
    exact waiting.not_resolved
  | started present waiting absent free =>
    refine roster.phases_set rfl (.fetching ?_)
    rw [resolved, results_silent rfl]
    exact waiting.not_resolved
  | finished present without =>
    refine roster.phases_set rfl (.notifying ?_)
    rw [resolved, results_finished]
    exact List.mem_cons_self
  | notified present got =>
    intro i caller found
    rcases present_of_set_notify found with ⟨rfl, rfl⟩ | ⟨differs, before, asItWas, rfl⟩
    · refine .done ?_
      rw [resolved, results_silent rfl]
      exact got
    · exact (roster.phases i before asItWas).notify.frame rfl (Ne.symm differs)

/-- Nobody gets a second result. -/
theorem Step.resolved_cases (roster : Roster query count w) (step : Step query ending w who w') :
    resolved query w' = resolved query w ∨
      resolved query w' = who :: resolved query w ∧ who ∉ resolved query w ∧ who < count := by
  cases step with
  | answered present waiting answer =>
    refine .inr ⟨?_, waiting.not_resolved, roster.lt present⟩
    rw [resolved, results_answered, List.map_cons, resolved]
  | slept | started | notified =>
    refine .inl ?_
    rw [resolved, results_silent rfl, resolved]
  | finished present without =>
    refine .inr ⟨?_, without, roster.lt present⟩
    rw [resolved, results_finished, List.map_cons, resolved]

theorem Step.roster (roster : Roster query count w) (step : Step query ending w who w') :
    Roster query count w' := by
  have size : w'.callers.length = count := by
    rw [← roster.size]
    cases step <;> simp
  rcases step.resolved_cases roster with same | ⟨added, new, inside⟩
  · refine ⟨size, step.phases roster, ?_, ?_⟩
    · rw [same]
      exact roster.once
    · rw [same]
      exact roster.inside
  · refine ⟨size, step.phases roster, ?_, ?_⟩
    · rw [added]
      exact List.nodup_cons.2 ⟨new, roster.once⟩
    · rw [added]
      exact List.forall_mem_cons.2 ⟨inside, roster.inside⟩

theorem roster_start (query : LabelQuery) (count : Nat) : Roster query count (World.start count) := by
  refine ⟨by simp [World.start], ?_, List.nodup_nil, fun who got => absurd got List.not_mem_nil⟩
  intro who caller present
  obtain rfl := present_of_start present
  exact .fresh fun event inside => absurd inside List.not_mem_nil

/-! ## Runs -/

theorem Reaches.reachable (reaches : Reaches query ending count turns w) : w.Reachable := by
  induction reaches with
  | start => exact ⟨count, [], rfl⟩
  | turn reaches taken ih =>
    obtain ⟨next, -, moved⟩ := Option.bind_eq_some_iff.1 taken
    exact ih.step_of_move? moved
  | stir reaches asleep woken ih => exact ih.step_of_move? woken

theorem Reaches.roster (reaches : Reaches query ending count turns w) : Roster query count w := by
  induction reaches with
  | start => exact roster_start query count
  | turn reaches taken roster => exact (step_of_turn? roster.phases taken).roster roster
  | @stir _ before after mover _ _ reaches asleep woken roster =>
    have step : Step query ending before mover after := step_of_stir roster.phases asleep woken
    exact step.roster roster

/-- What every step of a crowd preserves holds of every world it comes to. -/
theorem Reaches.induction (holds : World → Prop) (reaches : Reaches query ending count turns w)
    (fresh : holds (World.start count))
    (step : ∀ {w who w'}, w.Reachable → Roster query count w → holds w →
      Step query ending w who w' → holds w') : holds w := by
  induction reaches with
  | start => exact fresh
  | turn reaches taken ih =>
    exact step reaches.reachable reaches.roster ih (step_of_turn? reaches.roster.phases taken)
  | stir reaches asleep woken ih =>
    exact step reaches.reachable reaches.roster ih (step_of_stir reaches.roster.phases asleep woken)

/-- Where nobody has a turn, everybody has got a result and is in no call any more. -/
theorem Reaches.done_of_no_turn (reaches : Reaches query ending count turns w)
    (rest : ∀ who, turn? query ending w who = none) {caller : Caller}
    (present : w.callers[who]? = some caller) :
    caller = ⟨[], .busy⟩ ∧ who ∈ resolved query w := by
  have stuck {i : Nat} {next : World} (taken : turn? query ending w i = some next) : False := by
    rw [rest i] at taken
    cases taken
  have phases := reaches.roster.phases
  cases phases who caller present with
  | fresh unheard => exact (stuck (turn?_fresh present unheard)).elim
  | asleep notified without =>
    cases notified with
    | true => exact (stuck (turn?_notified present)).elim
    | false =>
      -- Whoever fetches what the sleeper waits for has a turn, and so has whoever is to wake it.
      rcases reaches.reachable.attended who _ query present rfl with
        underWay | ⟨other, notifier, found, notifying⟩
      · obtain ⟨other, fetcher, found, inside⟩ :=
          reaches.reachable.singleFlight.exists_fetcher underWay
        cases phases other fetcher found with
        | fetching _ => exact (stuck (turn?_fetching found)).elim
        | fresh | asleep | notifying | done => exact absurd inside List.not_mem_nil
      · cases phases other notifier found with
        | notifying _ => exact (stuck (turn?_notifying found)).elim
        | fresh | asleep | fetching | done => cases notifying
  | fetching without => exact (stuck (turn?_fetching present)).elim
  | notifying got => exact (stuck (turn?_notifying present)).elim
  | done got => exact ⟨rfl, got⟩

end DraftDesk.Crowd
