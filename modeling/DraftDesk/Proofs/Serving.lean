import DraftDesk.Proofs.CallerPrograms
import DraftDesk.Proofs.Deliveries

/-!
# What is served

A query whose fetch is under way has nothing stored of its own (`Reachable.unstored_of_underWay`).
So where a fetch delivers something, nothing that an earlier fetch of the same query delivered is
left, which only a clear can have seen to. And since the cache holds what was delivered since the
last clear, the history says what each query is answered with (`served`): a label with the latest
delivery of its own, else with the one in the table that was delivered.

A sidebar that is toggled with its label asks the cache for that label and otherwise leaves it alone.
So its calls are calls in the run of a world like any other, and what holds of runs holds of them.
-/

namespace DraftDesk

/-- What a query is answered with after some events: what its own fetch delivered last since the
last clear, and for a label without such a delivery what the delivered table has for it. -/
def served : (query : LabelQuery) → List CallerEvent → Option query.Answer
  | .table, past => delivered .table past
  | .label key, past =>
    (delivered (.label key) past).or ((delivered .table past).bind fun table => table.find? key)

/-- Where nothing is left of a delivery, a clear came after it. -/
theorem exists_cleared_of_delivered_eq_none {query : LabelQuery} {a : query.Answer} {who : Nat}
    {between past : List CallerEvent}
    (nothing : delivered query (between ++ .finished who query (.value a) :: past) = none) :
    ∃ other, .cleared other ∈ between := by
  induction between with
  | nil => simp [delivered_finished, Outcome.value?] at nothing
  | cons event between ih =>
    have later (nothing : delivered query (between ++ .finished who query (.value a) :: past) = none) :
        ∃ other, .cleared other ∈ event :: between := by
      obtain ⟨other, member⟩ := ih nothing
      exact ⟨other, List.mem_cons_of_mem event member⟩
    cases event with
    | cleared other => exact ⟨other, List.mem_cons_self⟩
    | finished other ended outcome =>
      by_cases same : query = ended
      · subst same
        rw [List.cons_append, delivered_finished, Option.or_eq_none_iff] at nothing
        exact later nothing.2
      · rw [List.cons_append, delivered_finished_of_ne same] at nothing
        exact later nothing
    | _ => exact later nothing

namespace World
variable {w w' : World} {who : Nat} {event : CallerEvent}

/-- Nothing is stored of its own for a query whose fetch is under way. -/
def Unstored (w : World) : Prop := ∀ query, w.cache.UnderWay query → w.cache.stored query = none

theorem Unstored.step (unstored : Unstored w) (step : Step w who event w') : Unstored w' := by
  intro other underWay
  cases step with
  | answered | slept | looked | inspected | notified => exact unstored other underWay
  | started present asks absent free =>
    rw [LabelCache.stored_mark absent]
    rcases (LabelCache.underWay_mark _ _ _).1 underWay with rfl | before
    · exact LabelCache.stored_eq_none absent
    · exact unstored other before
  | cleared present busy => exact LabelCache.stored_clear w.cache other
  | finished outcome present =>
    obtain ⟨differs, before⟩ := (LabelCache.underWay_leave _ _ _ _).1 underWay
    rw [LabelCache.stored_leave_of_ne w.cache differs]
    exact unstored other before

theorem Reachable.unstored_of_underWay (reached : w.Reachable) : Unstored w :=
  reached.induction Unstored (fun _ query _ => LabelCache.stored_empty query)
    fun unstored step => unstored.step step

theorem Recorded.answer?_eq_served (recorded : Recorded w) (query : LabelQuery) :
    w.cache.answer? query = served query w.history := by
  cases query with
  | table => exact recorded .table
  | label key => rw [LabelCache.answer?_label, recorded, recorded, served]

/-- A label is fetched only where neither a label of its own nor the table has it. -/
theorem Step.absent_of_started {key : String} (step : Step w who (.started who (.label key)) w') :
    w.cache.single.find? key = none ∧ ∀ table, w.cache.table = .ready table → table.find? key = none := by
  cases step with
  | started present asks absent free =>
    rw [LabelCache.answer?_label, Option.or_eq_none_iff] at absent
    refine ⟨absent.1, ?_⟩
    intro table ready
    rw [(LabelCache.stored_table _ _).2 ready, Option.bind_some] at absent
    exact absent.2

theorem Recorded.served_of_answered (recorded : Recorded w) {query : LabelQuery} {a : query.Answer}
    (step : Step w who (.answered who query a) w') : served query w.history = some a := by
  cases step with
  | answered present asks answer => rw [← recorded.answer?_eq_served, answer]

theorem Recorded.served_of_looked (recorded : Recorded w) {key : String} {found : Option String}
    (step : Step w who (.looked who key found) w') : served (.label key) w.history = found := by
  cases step with
  | looked key present busy => exact (recorded.answer?_eq_served (.label key)).symm

/-- Two deliveries of one query have a clear between them. -/
theorem Reachable.cleared_between (reached : w.Reachable) {query : LabelQuery} {a b : query.Answer}
    {first second : Nat} {later between past : List CallerEvent}
    (happened : w.history = later ++ .finished second query (.value b) ::
      (between ++ .finished first query (.value a) :: past)) :
    ∃ other, .cleared other ∈ between := by
  obtain ⟨before, mover, after, reached, history, step⟩ := reached.exists_step happened
  cases step with
  | finished outcome present =>
    have underWay := reached.singleFlight.underWay_of_present present
    have nothing := reached.unstored_of_underWay query underWay
    rw [reached.recorded, history] at nothing
    exact exists_cleared_of_delivered_eq_none nothing

/-- In every run two deliveries of one query have a clear between them, a label is fetched only where
neither a label of its own nor the table has it, and who is answered without a fetch gets what is
served. A sidebar that is toggled with its label asks the cache for that label and does nothing else
to it. So it is answered by the same rule, and beside other callers it is a call in their run, which
comes to what the toggle gives with the label. And a program of one caller that queries the cache, by
itself or for a sidebar, is a run of that caller, in which each query is answered, or its fetch begins,
ends with the outcome that the query comes to, and wakes the sleepers. -/
theorem fetched_once_and_served (reached : w.Reachable) :
    (∀ (query : LabelQuery) (a b : query.Answer) (first second : Nat)
        (later between past : List CallerEvent),
      w.history = later ++ .finished second query (.value b) ::
        (between ++ .finished first query (.value a) :: past) →
      ∃ other, .cleared other ∈ between) ∧
    (∀ (who : Nat) (move : Move) (w' : World), w.move? who move = some w' →
      (∀ key, w'.history = .started who (.label key) :: w.history →
        w.cache.single.find? key = none ∧
          ∀ table, w.cache.table = .ready table → table.find? key = none) ∧
      (∀ (query : LabelQuery) (a : query.Answer), w'.history = .answered who query a :: w.history →
        served query w.history = some a) ∧
      (∀ key found, w'.history = .looked who key found :: w.history →
        served (.label key) w.history = found)) ∧
    (∀ (m : Type → Type) [Monad m] [LawfulMonad m] (ε : Type) (s : Sidebar) (width : String)
        (fetch : String → StateT LabelCache m (Outcome ε String)) (c : LabelCache),
      let key := (s.toggle width).1.labelKey
      (s.toggleLabelled width fetch).run c =
        (fun (label, after) => (s.toggledWith width label, after)) <$>
          (LabelCache.ask (.label key) (fetch key)).run c) ∧
    (∀ (who : Nat) (query : LabelQuery) (fetch : StateM LabelCache (Outcome String query.Answer))
        (fetching : LabelCache → Outcome String query.Answer → List CallerEvent → Prop),
      CarriesOut who fetch fetching →
        CarriesOut who (LabelCache.ask query fetch) (Asked who query fetching)) ∧
    (∀ (s : Sidebar) (width : String) (fetch : String → StateM LabelCache (Outcome String String)),
      let key := (s.toggle width).1.labelKey
      (∀ text, served (.label key) w.history = some text →
        (s.toggleLabelled width fetch).run w.cache =
          ((some (.value ((s.toggle width).1, text)), (s.toggle width).2), w.cache)) ∧
      (∀ who label recent w', Calls who (.label key) (fetch key) w label recent w' →
        Leads w recent w' ∧
        (s.toggleLabelled width fetch).run w.cache = (s.toggledWith width label, w'.cache)) ∧
      ∀ who fetching, CarriesOut who (fetch key) fetching →
        CarriesOut who (s.toggleLabelled width fetch) fun c ended recent =>
          ∃ label, ended = s.toggledWith width label ∧
            Asked who (.label key) fetching c label recent) := by
  have recorded := reached.recorded
  refine ⟨?_, ?_, ?_, ?_, ?_⟩
  · intro query a b first second later between past happened
    exact reached.cleared_between happened
  · intro who move w' moved
    obtain ⟨event, step⟩ := step_of_move? moved
    have newest {other : CallerEvent} (added : w'.history = other :: w.history) :
        Step w who other w' := by
      rw [step.history_eq, List.cons.injEq] at added
      exact added.1 ▸ step
    refine ⟨?_, ?_, ?_⟩
    · intro key added
      exact (newest added).absent_of_started
    · intro query a added
      exact recorded.served_of_answered (newest added)
    · intro key found added
      exact recorded.served_of_looked (newest added)
  · intro m _ _ ε s width fetch c
    exact s.run_toggleLabelled width fetch c
  · intro who query fetch fetching fetches
    exact carriesOut_ask fetches
  · intro s width fetch key
    refine ⟨?_, ?_, fun who fetching fetches => carriesOut_toggleLabelled width s fetches⟩
    · intro text found
      rw [Sidebar.run_toggleLabelled, LabelCache.run_ask, recorded.answer?_eq_served, found]
      rfl
    · intro who label recent w' calls
      refine ⟨calls.leads, ?_⟩
      rw [Sidebar.run_toggleLabelled, calls.run_ask]
      rfl

/-- A label is fetched, forgotten and fetched again, and a sidebar that expands then shows the label
that was fetched last. When it collapses again, its label is fetched: once while another caller clears
the cache, and once with a fetch of the table inside. -/
theorem fetched_once_and_served_across_clear :
    let w : World := ⟨⟨.empty, ⟨[("hide", "Ausblenden")]⟩, []⟩, [⟨[], .busy⟩, ⟨[], .busy⟩],
      [.notified 0, .finished 0 (.label "hide") (.value "Ausblenden"), .started 0 (.label "hide"),
        .cleared 0, .notified 0, .finished 0 (.label "hide") (.value "Hide"),
        .started 0 (.label "hide")]⟩
    let whole : LabelTable := ⟨[("table", "Tabelle")]⟩
    let cleared (_ : String) : StateM LabelCache (Outcome String String) := do
      modify LabelCache.clear
      return .value "Einblenden"
    let nested (_ : String) : StateM LabelCache (Outcome String String) := do
      let _ ← LabelCache.ask .table (pure (.value whole : Outcome String LabelTable))
      return .value "Einblenden"
    w.Reachable ∧
    (∃ other, CallerEvent.cleared other ∈ [.started 0 (.label "hide"), .cleared 0, .notified 0]) ∧
    (Sidebar.toggleLabelled "10px" nested ⟨true, "300px", "10px"⟩).run w.cache =
      ((some (.value (⟨"300px", "hide"⟩, "Ausblenden")), ⟨false, "300px", "10px"⟩), w.cache) ∧
    (∃ w', Leads w [.finished 0 (.label "show") (.value "Einblenden"), .cleared 1,
        .started 0 (.label "show")] w' ∧
      w'.cache = ⟨.empty, ⟨[("show", "Einblenden")]⟩, []⟩ ∧
      (Sidebar.toggleLabelled "300px" cleared ⟨false, "300px", "10px"⟩).run w.cache =
        ((some (.value (⟨"10px", "show"⟩, "Einblenden")), ⟨true, "300px", "10px"⟩), w'.cache)) ∧
    ∃ w', Leads w [.notified 0, .finished 0 (.label "show") (.value "Einblenden"), .notified 0,
        .finished 0 .table (.value whole), .started 0 .table, .started 0 (.label "show")] w' ∧
      w'.cache = ⟨.ready whole, ⟨[("hide", "Ausblenden"), ("show", "Einblenden")]⟩, []⟩ := by
  intro w whole cleared nested
  have reached : w.Reachable :=
    ⟨2, [(0, .ask (.label "hide")), (0, .finish (.label "hide") (.value "Hide")), (0, .notify),
      (0, .clear), (0, .ask (.label "hide")), (0, .finish (.label "hide") (.value "Ausblenden")),
      (0, .notify)], rfl⟩
  obtain ⟨between, -, -, asking, toggling⟩ := fetched_once_and_served reached
  refine ⟨reached, ?_, ?_, ?_, ?_⟩
  · exact between (.label "hide") "Hide" "Ausblenden" 0 0 [.notified 0] _
      [.started 0 (.label "hide")] rfl
  · exact (toggling ⟨true, "300px", "10px"⟩ "10px" nested).1 "Ausblenden" rfl
  · let began : World := ⟨w.cache.mark (.label "show"), w.callers.set 0 ⟨[.label "show"], .busy⟩,
      .started 0 (.label "show") :: w.history⟩
    let fetching : World := ⟨began.cache.clear, began.callers, .cleared 1 :: began.history⟩
    have present : w.callers[0]? = some ⟨[], .busy⟩ := rfl
    have free : ¬ w.cache.UnderWay (.label "show") := nofun
    have starts : Step w 0 (.started 0 (.label "show")) began := .started present (.inl rfl) rfl free
    have clears : Step began 1 (.cleared 1) fetching := .cleared rfl rfl
    have ends : Step fetching 0 (.finished 0 (.label "show") (.value "Einblenden")) _ := .finished _ rfl
    have calls : Calls 0 (.label "show") (cleared "show") w _ _ _ :=
      .fetched starts ((Leads.refl began).step clears) rfl rfl ends
    obtain ⟨leads, toggled⟩ :=
      (toggling ⟨false, "300px", "10px"⟩ "300px" cleared).2.1 0 _ _ _ calls
    exact ⟨_, leads, rfl, toggled⟩
  · have fetches : CarriesOut 0 (nested "show") _ :=
      (asking 0 .table _ _ (carriesOut_pure _)).bind fun _ => carriesOut_pure _
    obtain ⟨recent, w', leads, -, -, cache, label, -, asked⟩ :=
      (toggling ⟨false, "300px", "10px"⟩ "300px" nested).2.2 0 _ fetches w [] rfl
    obtain ⟨_, _, -, rfl, _, _, _, _, table, ⟨rfl, rfl⟩, rfl⟩ := asked.fetches rfl nofun
    obtain ⟨_, _, -, rfl, rfl, rfl⟩ := table.fetches rfl nofun
    exact ⟨w', leads, cache⟩

end World

end DraftDesk
