import DraftDesk.Sidebar
import DraftDesk.Proofs.Flights

/-!
# Programs of callers

A program asks the cache as if it were alone, and in a world the same calls are moves of a caller. What
such a call comes to beside other callers is what the program gives that begins where the call enters
the cache (`Calls.run_ask`): the others can change the cache before, or while the caller fetches, and
that is part of what its fetch leaves. And a program of queries is a run of its caller (`CarriesOut`),
whose events tell of each query what it came to (`Asked`).
-/

namespace DraftDesk

section
variable {m : Type → Type} [Monad m] [LawfulMonad m] {ε : Type}

theorem LabelCache.run_ask (query : LabelQuery) (fetch : StateT LabelCache m (Outcome ε query.Answer))
    (c : LabelCache) :
    (ask query fetch).run c =
      match c.answer? query with
      | some a => pure (some (.value a), c)
      | none =>
        if c.UnderWay query then pure (none, c)
        else (fun (outcome, after) => (some outcome, after.leave query outcome)) <$>
          fetch.run (c.mark query) := by
  have entered := enter_eq c query
  cases answer : c.answer? query with
  | some a =>
    rw [answer] at entered
    simp [ask, entered]
  | none =>
    rw [answer] at entered
    by_cases underWay : c.UnderWay query
    · simp [ask, entered, underWay]
    · simp [ask, entered, underWay]

/-- What a labelled toggle gives where the query for the label comes to `label`. -/
def Sidebar.toggledWith (s : Sidebar) (width : String) (label : Option (Outcome ε String)) :
    Option (Outcome ε (SidebarChange × String)) × Sidebar :=
  (label.map (Outcome.map fun text => ((s.toggle width).1, text)), (s.toggle width).2)

theorem Sidebar.run_toggleLabelled (width : String)
    (fetch : String → StateT LabelCache m (Outcome ε String)) (s : Sidebar) (c : LabelCache) :
    (s.toggleLabelled width fetch).run c =
      (fun (label, after) => (s.toggledWith width label, after)) <$>
        (LabelCache.ask (.label (s.toggle width).1.labelKey) (fetch (s.toggle width).1.labelKey)).run c := by
  simp [toggleLabelled, toggledWith]

end

namespace World
variable {w w' : World} {who : Nat}

/-! ## Calls beside other callers -/

/-- A caller calls for a query, from where it enters the cache on: what the call comes to, what happens
meanwhile, latest first, and the world after it. The caller is answered, or it falls asleep and calls
anew when it wakes up, or it fetches. Meanwhile any caller may move, and the fetch ends where its caller
is as it was when it began and the cache is as `fetch` leaves it. -/
inductive Calls (who : Nat) (query : LabelQuery) (fetch : StateM LabelCache (Outcome String query.Answer))
    (w : World) : Option (Outcome String query.Answer) → List CallerEvent → World → Prop where
  | answered {a : query.Answer} {w' : World} (step : Step w who (.answered who query a) w') :
      Calls who query fetch w (some (.value a)) [.answered who query a] w'
  | slept {w' : World} (step : Step w who (.slept who query) w') :
      Calls who query fetch w none [.slept who query] w'
  | fetched {outcome : Outcome String query.Answer} {during : List CallerEvent}
      {began fetching w' : World} (starts : Step w who (.started who query) began)
      (meanwhile : Leads began during fetching) (back : fetching.callers[who]? = began.callers[who]?)
      (ran : fetch.run began.cache = (outcome, fetching.cache))
      (ends : Step fetching who (.finished who query outcome) w') :
      Calls who query fetch w (some outcome)
        (.finished who query outcome :: (during ++ [.started who query])) w'

section
variable {query : LabelQuery} {fetch : StateM LabelCache (Outcome String query.Answer)}
  {result : Option (Outcome String query.Answer)} {recent : List CallerEvent}

theorem Calls.leads (calls : Calls who query fetch w result recent w') : Leads w recent w' := by
  cases calls with
  | answered step | slept step => exact (Leads.refl w).step step
  | fetched starts meanwhile back ran ends => exact (((Leads.refl w).step starts).trans meanwhile).step ends

/-- A call comes to what the program does that begins where the call enters the cache. -/
theorem Calls.run_ask (calls : Calls who query fetch w result recent w') :
    (LabelCache.ask query fetch).run w.cache = (result, w'.cache) := by
  rw [LabelCache.run_ask]
  cases calls with
  | answered step =>
    cases step with
    | answered present asks answer =>
      simp only [answer]
      rfl
  | slept step =>
    cases step with
    | slept present asks absent underWay =>
      simp only [absent, if_pos underWay]
      rfl
  | fetched starts meanwhile back ran ends =>
    cases starts with
    | started present asks absent free =>
      cases ends with
      | finished outcome running =>
        simp only [absent, if_neg free]
        rw [ran]
        rfl

end

/-! ## Programs of queries -/

/-- A busy caller carries out a program on the cache by moves of its own, after which it is busy with
the same fetches as before. What the program returns and what happens meanwhile, latest first, are
as `told` of the cache at the start. -/
def CarriesOut (who : Nat) {α : Type} (program : StateM LabelCache α)
    (told : LabelCache → α → List CallerEvent → Prop) : Prop :=
  ∀ (w : World) (flights : List LabelQuery), w.callers[who]? = some ⟨flights, .busy⟩ →
    ∃ recent w', Leads w recent w' ∧ (∀ event ∈ recent, event.who = who) ∧
      w'.callers[who]? = some ⟨flights, .busy⟩ ∧ w'.cache = (program.run w.cache).2 ∧
      told w.cache (program.run w.cache).1 recent

/-- What a query of a caller comes to and what happens meanwhile, where `fetching` tells the same of
its fetch. -/
inductive Asked (who : Nat) (query : LabelQuery)
    (fetching : LabelCache → Outcome String query.Answer → List CallerEvent → Prop) (c : LabelCache) :
    Option (Outcome String query.Answer) → List CallerEvent → Prop where
  | answered {a : query.Answer} (answer : c.answer? query = some a) :
      Asked who query fetching c (some (.value a)) [.answered who query a]
  /-- The query is under way, and alone the caller has nobody to wait for. -/
  | blocked (absent : c.answer? query = none) (underWay : c.UnderWay query) :
      Asked who query fetching c none []
  | fetched {outcome : Outcome String query.Answer} {during : List CallerEvent}
      (absent : c.answer? query = none) (free : ¬ c.UnderWay query)
      (fetch : fetching (c.mark query) outcome during) :
      Asked who query fetching c (some outcome)
        (.notified who :: .finished who query outcome :: (during ++ [.started who query]))

/-- A query that nothing answers and nobody fetches is fetched. -/
theorem Asked.fetches {query : LabelQuery} {c : LabelCache} {recent : List CallerEvent}
    {result : Option (Outcome String query.Answer)}
    {fetching : LabelCache → Outcome String query.Answer → List CallerEvent → Prop}
    (asked : Asked who query fetching c result recent) (absent : c.answer? query = none)
    (free : ¬ c.UnderWay query) : ∃ outcome during, result = some outcome ∧
      recent = .notified who :: .finished who query outcome :: (during ++ [.started who query]) ∧
      fetching (c.mark query) outcome during := by
  cases asked with
  | answered answer => exact nomatch absent.symm.trans answer
  | blocked _ underWay => exact absurd underWay free
  | fetched _ _ fetch => exact ⟨_, _, rfl, rfl, fetch⟩

theorem carriesOut_pure {α : Type} (a : α) :
    CarriesOut who (pure a) fun _ result recent => result = a ∧ recent = [] :=
  fun w _ present => ⟨[], w, Leads.refl w, nofun, present, rfl, rfl, rfl⟩

theorem CarriesOut.bind {α β : Type} {program : StateM LabelCache α} {further : α → StateM LabelCache β}
    {told : LabelCache → α → List CallerEvent → Prop}
    {toldFurther : α → LabelCache → β → List CallerEvent → Prop}
    (first : CarriesOut who program told) (next : ∀ a, CarriesOut who (further a) (toldFurther a)) :
    CarriesOut who (program >>= further) fun c b recent =>
      ∃ a between early late, told c a early ∧ toldFurther a between b late ∧ recent = late ++ early := by
  intro w flights present
  obtain ⟨early, middle, leads, own, busy, cache, happened⟩ := first w flights present
  obtain ⟨late, w', onward, own', busy', cache', happened'⟩ :=
    next (program.run w.cache).1 middle flights busy
  rw [cache] at cache' happened'
  refine ⟨late ++ early, w', leads.trans onward, ?_, busy', cache', _, _, early, late, happened,
    happened', rfl⟩
  intro event member
  exact (List.mem_append.1 member).elim (own' event) (own event)

/-- A query is one call of a caller, whatever the caller does while it fetches. -/
theorem carriesOut_ask {query : LabelQuery} {fetch : StateM LabelCache (Outcome String query.Answer)}
    {fetching : LabelCache → Outcome String query.Answer → List CallerEvent → Prop}
    (fetches : CarriesOut who fetch fetching) :
    CarriesOut who (LabelCache.ask query fetch) (Asked who query fetching) := by
  intro w flights present
  rw [LabelCache.run_ask]
  cases answer : w.cache.answer? query with
  | some a =>
    refine ⟨_, _, (Leads.refl w).step (.answered present (.inl rfl) answer), ?_, present_set present _,
      rfl, .answered answer⟩
    intro event member
    rw [List.mem_singleton.1 member]
    rfl
  | none =>
    by_cases underWay : w.cache.UnderWay query
    · rw [if_pos underWay]
      exact ⟨[], w, Leads.refl w, nofun, present, rfl, .blocked answer underWay⟩
    · rw [if_neg underWay]
      have began := (Leads.refl w).step (.started present (.inl rfl) answer underWay)
      obtain ⟨during, next, leads, own, running, cache, happened⟩ :=
        fetches ⟨w.cache.mark query, w.callers.set who ⟨query :: flights, .busy⟩,
          .started who query :: w.history⟩ (query :: flights) (present_set present _)
      have ended := (began.trans leads).step (.finished (fetch.run (w.cache.mark query)).1 running)
      have notifying := present_set running ⟨flights, .notifying⟩
      refine ⟨_, _, ended.step (.notified notifying rfl), ?_, present_set_notify notifying _, ?_,
        .fetched answer underWay happened⟩
      · simp only [List.forall_mem_cons, List.forall_mem_append, List.not_mem_nil]
        exact ⟨rfl, rfl, own, rfl, nofun⟩
      · rw [cache]
        rfl

/-- A labelled toggle is a query for the label, whatever the caller does while it fetches. -/
theorem carriesOut_toggleLabelled (width : String)
    {fetch : String → StateM LabelCache (Outcome String String)} (s : Sidebar)
    {fetching : LabelCache → Outcome String String → List CallerEvent → Prop}
    (fetches : CarriesOut who (fetch (s.toggle width).1.labelKey) fetching) :
    CarriesOut who (s.toggleLabelled width fetch) fun c ended recent =>
      ∃ label, ended = s.toggledWith width label ∧
        Asked who (.label (s.toggle width).1.labelKey) fetching c label recent := by
  have asking : CarriesOut who (LabelCache.ask (.label (s.toggle width).1.labelKey) _) _ :=
    carriesOut_ask fetches
  intro w flights present
  obtain ⟨recent, w', leads, own, busy, cache, asked⟩ := asking w flights present
  rw [Sidebar.run_toggleLabelled]
  exact ⟨recent, w', leads, own, busy, cache, _, rfl, asked⟩

end World

end DraftDesk
