import DraftDesk.Callers
import DraftDesk.Proofs.CacheContents
import Mathlib.Data.List.Induction

/-!
# Steps and runs of callers

`Step` lists what a move can do to a world, one constructor for each kind of event, with the
conditions under which it does so. Every move is such a step and adds one event to the history, so
an event of a history can be traced back to the world it happened in (`Leads.exists_step`), and
what every step preserves holds after every run (`run?_induction`).
-/

namespace DraftDesk.World

/-- A caller is entering the cache with a query, for the first time or after it has slept. -/
def Asks (caller : Caller) (query : LabelQuery) : Prop :=
  caller.activity = .busy ∨ ∃ notified, caller.activity = .asleep query notified

/-- A step of a world, with the event it adds to the history. -/
inductive Step (w : World) (who : Nat) : CallerEvent → World → Prop where
  | answered {caller : Caller} {query : LabelQuery} {a : query.Answer}
      (present : w.callers[who]? = some caller) (asks : Asks caller query)
      (answer : w.cache.answer? query = some a) :
      Step w who (.answered who query a)
        ⟨w.cache, w.callers.set who { caller with activity := .busy },
          .answered who query a :: w.history⟩
  | slept {caller : Caller} {query : LabelQuery}
      (present : w.callers[who]? = some caller) (asks : Asks caller query)
      (absent : w.cache.answer? query = none) (underWay : w.cache.UnderWay query) :
      Step w who (.slept who query)
        ⟨w.cache, w.callers.set who { caller with activity := .asleep query false },
          .slept who query :: w.history⟩
  | started {caller : Caller} {query : LabelQuery}
      (present : w.callers[who]? = some caller) (asks : Asks caller query)
      (absent : w.cache.answer? query = none) (free : ¬ w.cache.UnderWay query) :
      Step w who (.started who query)
        ⟨w.cache.mark query, w.callers.set who ⟨query :: caller.flights, .busy⟩,
          .started who query :: w.history⟩
  | looked {caller : Caller} (key : String)
      (present : w.callers[who]? = some caller) (busy : caller.activity = .busy) :
      Step w who (.looked who key (w.cache.get? key))
        { w with history := .looked who key (w.cache.get? key) :: w.history }
  | inspected {caller : Caller}
      (present : w.callers[who]? = some caller) (busy : caller.activity = .busy) :
      Step w who (.inspected who w.cache.table)
        { w with history := .inspected who w.cache.table :: w.history }
  | cleared {caller : Caller}
      (present : w.callers[who]? = some caller) (busy : caller.activity = .busy) :
      Step w who (.cleared who)
        { w with cache := w.cache.clear, history := .cleared who :: w.history }
  | finished {query : LabelQuery} {flights : List LabelQuery} (outcome : Outcome String query.Answer)
      (present : w.callers[who]? = some ⟨query :: flights, .busy⟩) :
      Step w who (.finished who query outcome)
        ⟨w.cache.leave query outcome, w.callers.set who ⟨flights, .notifying⟩,
          .finished who query outcome :: w.history⟩
  | notified {caller : Caller}
      (present : w.callers[who]? = some caller) (notifying : caller.activity = .notifying) :
      Step w who (.notified who)
        ⟨w.cache, (w.callers.map Caller.notify).set who { caller with activity := .busy },
          .notified who :: w.history⟩

variable {w w' : World} {who : Nat} {move : Move}

theorem eq_of_move?_clear (cleared : w.move? who .clear = some w') :
    ∃ flights, w.callers[who]? = some ⟨flights, .busy⟩ ∧
      w' = { w with cache := w.cache.clear, history := .cleared who :: w.history } := by
  unfold move? at cleared
  cases present : w.callers[who]? with
  | none => simp [present] at cleared
  | some caller =>
    obtain ⟨flights, activity⟩ := caller
    simp only [present, Option.bind_eq_bind, Option.bind_some] at cleared
    cases activity <;> simp only [Option.some.injEq, reduceCtorEq] at cleared
    exact ⟨flights, rfl, cleared.symm⟩

theorem eq_of_move?_finish {query : LabelQuery} {outcome : Outcome String query.Answer}
    (ended : w.move? who (.finish query outcome) = some w') :
    ∃ flights, w.callers[who]? = some ⟨query :: flights, .busy⟩ ∧
      w' = ⟨w.cache.leave query outcome, w.callers.set who ⟨flights, .notifying⟩,
        .finished who query outcome :: w.history⟩ := by
  unfold move? at ended
  cases present : w.callers[who]? with
  | none => simp [present] at ended
  | some caller =>
    obtain ⟨flights, activity⟩ := caller
    simp only [present, Option.bind_eq_bind, Option.bind_some] at ended
    cases activity with
    | busy =>
      cases flights with
      | nil => simp only [reduceCtorEq] at ended
      | cons flight flights =>
        simp only [Option.ite_none_right_eq_some, Option.some.injEq] at ended
        obtain ⟨rfl, rfl⟩ := ended
        exact ⟨flights, rfl, rfl⟩
    | asleep waited notified => simp only [reduceCtorEq] at ended
    | notifying => simp only [reduceCtorEq] at ended

/-- Who enters the cache is answered, falls asleep or begins a fetch. -/
@[elab_as_elim]
theorem enter_cases {motive : World → Prop} (w : World) (who : Nat) (caller : Caller) (query : LabelQuery)
    (answered : ∀ a, w.cache.answer? query = some a →
      motive ⟨w.cache, w.callers.set who { caller with activity := .busy },
        .answered who query a :: w.history⟩)
    (slept : w.cache.answer? query = none → w.cache.UnderWay query →
      motive ⟨w.cache, w.callers.set who { caller with activity := .asleep query false },
        .slept who query :: w.history⟩)
    (started : w.cache.answer? query = none → ¬ w.cache.UnderWay query →
      motive ⟨w.cache.mark query, w.callers.set who ⟨query :: caller.flights, .busy⟩,
        .started who query :: w.history⟩) : motive (w.enter who caller query) := by
  unfold enter
  rw [LabelCache.enter_eq]
  cases answer : w.cache.answer? query with
  | some a => exact answered a answer
  | none =>
    by_cases underWay : w.cache.UnderWay query
    · simp only [underWay, if_true]
      exact slept answer underWay
    · simp only [underWay, if_false]
      exact started answer underWay

theorem step_enter {caller : Caller} {query : LabelQuery}
    (present : w.callers[who]? = some caller) (asks : Asks caller query) :
    ∃ event, Step w who event (w.enter who caller query) :=
  enter_cases w who caller query
    (fun _ answer => ⟨_, .answered present asks answer⟩)
    (fun absent underWay => ⟨_, .slept present asks absent underWay⟩)
    fun absent free => ⟨_, .started present asks absent free⟩

/-- Every move is a step. -/
theorem step_of_move? (h : w.move? who move = some w') : ∃ event, Step w who event w' := by
  have moved := h
  unfold move? at h
  cases present : w.callers[who]? with
  | none => simp [present] at h
  | some caller =>
    obtain ⟨flights, activity⟩ := caller
    simp only [present, Option.bind_eq_bind, Option.bind_some] at h
    cases move with
    | ask query =>
      cases activity <;> simp only [Option.some.injEq, reduceCtorEq] at h
      rw [← h]
      exact step_enter present (.inl rfl)
    | wake =>
      cases activity <;> simp only [Option.some.injEq, reduceCtorEq] at h
      rw [← h]
      exact step_enter present (.inr ⟨_, rfl⟩)
    | look key =>
      cases activity <;> simp only [Option.some.injEq, reduceCtorEq] at h
      rw [← h]
      exact ⟨_, .looked key present rfl⟩
    | inspect =>
      cases activity <;> simp only [Option.some.injEq, reduceCtorEq] at h
      rw [← h]
      exact ⟨_, .inspected present rfl⟩
    | clear =>
      obtain ⟨_, busy, rfl⟩ := eq_of_move?_clear moved
      exact ⟨_, .cleared busy rfl⟩
    | finish query outcome =>
      obtain ⟨_, running, rfl⟩ := eq_of_move?_finish moved
      exact ⟨_, .finished outcome running⟩
    | notify =>
      cases activity <;> simp only [Option.some.injEq, reduceCtorEq] at h
      rw [← h]
      exact ⟨_, .notified present rfl⟩

variable {event : CallerEvent}

theorem Step.who_eq (step : Step w who event w') : event.who = who := by
  cases step <;> rfl

theorem Step.history_eq (step : Step w who event w') : w'.history = event :: w.history := by
  cases step <;> rfl

/-! ## Moves that a caller can make -/

theorem move?_finish {query : LabelQuery} {flights : List LabelQuery}
    (present : w.callers[who]? = some ⟨query :: flights, .busy⟩) (outcome : Outcome String query.Answer) :
    w.move? who (.finish query outcome) =
      some ⟨w.cache.leave query outcome, w.callers.set who ⟨flights, .notifying⟩,
        .finished who query outcome :: w.history⟩ := by
  simp [move?, present]

theorem move?_notify {flights : List LabelQuery}
    (present : w.callers[who]? = some ⟨flights, .notifying⟩) :
    w.move? who .notify =
      some ⟨w.cache, (w.callers.map Caller.notify).set who ⟨flights, .busy⟩,
        .notified who :: w.history⟩ := by
  simp [move?, present]

theorem move?_ask {flights : List LabelQuery} (present : w.callers[who]? = some ⟨flights, .busy⟩)
    (query : LabelQuery) :
    w.move? who (.ask query) = some (w.enter who ⟨flights, .busy⟩ query) := by
  simp [move?, present]

theorem move?_wake {flights : List LabelQuery} {query : LabelQuery} {notified : Bool}
    (present : w.callers[who]? = some ⟨flights, .asleep query notified⟩) :
    w.move? who .wake = some (w.enter who ⟨flights, .asleep query notified⟩ query) := by
  simp [move?, present]

theorem enter_of_answer {query : LabelQuery} {a : query.Answer} (who : Nat) (caller : Caller)
    (answer : w.cache.answer? query = some a) :
    w.enter who caller query =
      ⟨w.cache, w.callers.set who { caller with activity := .busy },
        .answered who query a :: w.history⟩ := by
  simp [enter, LabelCache.enter_eq, answer]

theorem enter_of_underWay {query : LabelQuery} (who : Nat) (caller : Caller)
    (absent : w.cache.answer? query = none) (underWay : w.cache.UnderWay query) :
    w.enter who caller query =
      ⟨w.cache, w.callers.set who { caller with activity := .asleep query false },
        .slept who query :: w.history⟩ := by
  simp [enter, LabelCache.enter_eq, absent, underWay]

theorem enter_of_free {query : LabelQuery} (who : Nat) (caller : Caller)
    (absent : w.cache.answer? query = none) (free : ¬ w.cache.UnderWay query) :
    w.enter who caller query =
      ⟨w.cache.mark query, w.callers.set who ⟨query :: caller.flights, .busy⟩,
        .started who query :: w.history⟩ := by
  simp [enter, LabelCache.enter_eq, absent, free]

theorem exists_move_enter {caller : Caller} {query : LabelQuery}
    (present : w.callers[who]? = some caller) (asks : Asks caller query) :
    ∃ move, w.move? who move = some (w.enter who caller query) := by
  obtain ⟨flights, activity⟩ := caller
  rcases asks with busy | ⟨notified, asleep⟩
  · obtain rfl : activity = .busy := busy
    exact ⟨_, move?_ask present query⟩
  · obtain rfl : activity = .asleep query notified := asleep
    exact ⟨_, move?_wake present⟩

/-- Every step is a move. -/
theorem Step.exists_move (step : Step w who event w') : ∃ move, w.move? who move = some w' := by
  cases step with
  | answered present asks answer =>
    exact enter_of_answer who _ answer ▸ exists_move_enter present asks
  | slept present asks absent underWay =>
    exact enter_of_underWay who _ absent underWay ▸ exists_move_enter present asks
  | started present asks absent free =>
    exact enter_of_free who _ absent free ▸ exists_move_enter present asks
  | looked key present busy => exact ⟨.look key, by simp [move?, present, busy]⟩
  | inspected present busy => exact ⟨.inspect, by simp [move?, present, busy]⟩
  | cleared present busy => exact ⟨.clear, by simp [move?, present, busy]⟩
  | finished outcome present => exact ⟨_, move?_finish present outcome⟩
  | notified present notifying => exact ⟨.notify, by simp [move?, present, notifying]⟩

/-! ## Runs -/

variable {moves : List (Nat × Move)}

@[simp] theorem run?_nil (w : World) : w.run? [] = some w := rfl

theorem run?_cons (w : World) (who : Nat) (move : Move) (moves : List (Nat × Move)) :
    w.run? ((who, move) :: moves) = (w.move? who move).bind fun next => next.run? moves := by
  simp [run?, List.foldlM_cons]

theorem run?_append (w : World) (first last : List (Nat × Move)) :
    w.run? (first ++ last) = (w.run? first).bind fun next => next.run? last := by
  simp [run?, List.foldlM_append]

/-- What every step preserves holds after every run. -/
theorem run?_induction (holds : World → Prop) (run : w.run? moves = some w') (start : holds w)
    (step : ∀ {w who event w'}, holds w → Step w who event w' → holds w') : holds w' := by
  induction moves generalizing w with
  | nil =>
    rw [run?_nil, Option.some.injEq] at run
    exact run ▸ start
  | cons first moves ih =>
    obtain ⟨who, move⟩ := first
    rw [run?_cons, Option.bind_eq_some_iff] at run
    obtain ⟨next, moved, rest⟩ := run
    obtain ⟨event, taken⟩ := step_of_move? moved
    exact ih rest (step start taken)

/-- A world that callers reach from a fresh cache. -/
def Reachable (w : World) : Prop := ∃ count moves, (start count).run? moves = some w

theorem Reachable.run (reached : w.Reachable) (run : w.run? moves = some w') :
    w'.Reachable := by
  obtain ⟨count, before, first⟩ := reached
  exact ⟨count, before ++ moves, by rw [run?_append, first, Option.bind_some, run]⟩

theorem Reachable.step_of_move? (reached : w.Reachable) (moved : w.move? who move = some w') :
    w'.Reachable := by
  have run : w.run? [(who, move)] = some w' := by rw [run?_cons, moved, Option.bind_some, run?_nil]
  exact reached.run run

/-- What holds at the start and is preserved by every step holds of every world reached. -/
theorem Reachable.induction (holds : World → Prop) (reached : w.Reachable)
    (fresh : ∀ count, holds (start count))
    (step : ∀ {w who event w'}, holds w → Step w who event w' → holds w') : holds w := by
  obtain ⟨count, moves, run⟩ := reached
  exact run?_induction holds run (fresh count) step

/-! ## Histories of runs -/

/-- A run from one world to another in which some events happened, latest first. -/
def Leads (w : World) (recent : List CallerEvent) (w' : World) : Prop :=
  (∃ moves, w.run? moves = some w') ∧ w'.history = recent ++ w.history

theorem Leads.refl (w : World) : Leads w [] w := ⟨⟨[], rfl⟩, rfl⟩

theorem Leads.trans {recent latest : List CallerEvent} {next : World} (leads : Leads w recent w')
    (onward : Leads w' latest next) : Leads w (latest ++ recent) next := by
  obtain ⟨⟨first, run⟩, happened⟩ := leads
  obtain ⟨⟨last, run'⟩, happened'⟩ := onward
  refine ⟨⟨first ++ last, ?_⟩, ?_⟩
  · rw [run?_append, run, Option.bind_some, run']
  · rw [happened', happened, List.append_assoc]

theorem Leads.step {recent : List CallerEvent} {next : World} (leads : Leads w recent w')
    (step : Step w' who event next) : Leads w (event :: recent) next := by
  obtain ⟨⟨moves, run⟩, happened⟩ := leads
  obtain ⟨move, moved⟩ := step.exists_move
  refine ⟨⟨moves ++ [(who, move)], ?_⟩, ?_⟩
  · rw [run?_append, run, Option.bind_some, run?_cons, moved, Option.bind_some, run?_nil]
  · rw [step.history_eq, happened, List.cons_append]

theorem Reachable.leads {recent : List CallerEvent} (reached : w.Reachable)
    (leads : Leads w recent w') : w'.Reachable := by
  obtain ⟨⟨moves, run⟩, -⟩ := leads
  exact reached.run run

/-- An event of a run happened in a world with just the events before it. -/
theorem Leads.exists_step {later past : List CallerEvent}
    (leads : Leads w (later ++ event :: past) w') :
    ∃ before who after, Leads w past before ∧ Step before who event after := by
  obtain ⟨⟨moves, run⟩, happened⟩ := leads
  rw [List.append_assoc, List.cons_append] at happened
  -- The last event of a run comes from its last move, any other one from the run without it.
  induction moves using List.reverseRecOn generalizing w' later with
  | nil =>
    rw [run?_nil, Option.some.injEq] at run
    have lengths := congrArg List.length (run ▸ happened)
    simp only [List.length_append, List.length_cons] at lengths
    omega
  | append_singleton moves last ih =>
    obtain ⟨who, move⟩ := last
    rw [run?_append, Option.bind_eq_some_iff] at run
    obtain ⟨next, first, rest⟩ := run
    rw [run?_cons, Option.bind_eq_some_iff] at rest
    obtain ⟨reached, moved, same⟩ := rest
    rw [run?_nil, Option.some.injEq] at same
    subst same
    obtain ⟨added, step⟩ := step_of_move? moved
    rw [step.history_eq] at happened
    cases later with
    | nil =>
      rw [List.nil_append, List.cons.injEq] at happened
      exact ⟨next, who, reached, ⟨⟨moves, first⟩, happened.2⟩, happened.1 ▸ step⟩
    | cons newest later =>
      rw [List.cons_append, List.cons.injEq] at happened
      exact ih happened.2 first

theorem Reachable.exists_step {later past : List CallerEvent} (reached : w.Reachable)
    (happened : w.history = later ++ event :: past) :
    ∃ before who after, before.Reachable ∧ before.history = past ∧ Step before who event after := by
  obtain ⟨count, moves, run⟩ := reached
  have leads : Leads (start count) (later ++ event :: past) w :=
    ⟨⟨moves, run⟩, happened.trans (List.append_nil _).symm⟩
  obtain ⟨before, who, after, earlier, step⟩ := leads.exists_step
  obtain ⟨⟨moves, run⟩, history⟩ := earlier
  exact ⟨before, who, after, ⟨count, moves, run⟩, history.trans (List.append_nil _), step⟩

end DraftDesk.World
