import DraftDesk.Proofs.CallerPrograms

/-!
# Runs of the sidebar

A sidebar is toggled with or without the label of its button. It is toggled before the label is
looked for, and so a call that finds no label has toggled it all the same: what a call does to the
sidebar depends on the width that it is given and on nothing else (`run_snd`). Hence an expanding
call gives the width that was passed to the call just before it, whether or not that one succeeded.
-/

namespace DraftDesk

/-- A call on a sidebar. -/
inductive SidebarCall where
  | toggle (width : String)
  /-- Toggles with the label; the cache is as it stands at the call. -/
  | toggleLabelled (width : String) (cache : LabelCache)
    (fetch : String → StateM LabelCache (Outcome String String))

namespace SidebarCall

/-- The width that is passed. -/
def width : SidebarCall → String
  | .toggle width => width
  | .toggleLabelled width _ _ => width

/-- What the view is told, if the call succeeds, and the sidebar after the call. -/
def run (s : Sidebar) : SidebarCall → Option SidebarChange × Sidebar
  | .toggle width => (some (s.toggle width).1, (s.toggle width).2)
  | .toggleLabelled width cache fetch =>
    let ((outcome, after), _) := (s.toggleLabelled width fetch).run cache
    ((outcome.bind Outcome.value?).map Prod.fst, after)

end SidebarCall

/-- A call that was made. -/
structure SidebarEvent where
  width : String
  /-- The sidebar was hidden, so that the call was to expand it. -/
  expanding : Bool
  /-- What the view was told, if the call succeeded. -/
  told : Option SidebarChange
  deriving DecidableEq, Repr

/-- A sidebar and the calls that were made on it, latest first. -/
structure SidebarRun where
  sidebar : Sidebar
  history : List SidebarEvent

namespace SidebarRun

/-- A new sidebar, which collapses to a width. -/
def start (collapsed : String) : SidebarRun := ⟨.ofCollapsedWidth collapsed, []⟩

def call (r : SidebarRun) (c : SidebarCall) : SidebarRun :=
  ⟨(c.run r.sidebar).2, ⟨c.width, r.sidebar.hidden, (c.run r.sidebar).1⟩ :: r.history⟩

def calls (r : SidebarRun) (cs : List SidebarCall) : SidebarRun := cs.foldl call r

end SidebarRun

/-- The width that was passed to the last collapsing call that succeeded. -/
def lastCollapsed (history : List SidebarEvent) : Option String :=
  (history.find? fun event => !event.expanding && event.told.isSome).map SidebarEvent.width

theorem lastCollapsed_cons_of_collapsing {event : SidebarEvent} (collapsing : event.expanding = false)
    (earlier : List SidebarEvent) :
    lastCollapsed (event :: earlier) =
      if event.told.isSome then some event.width else lastCollapsed earlier := by
  cases told : event.told <;> simp [lastCollapsed, collapsing, told]

/-! ## Single calls -/

theorem Outcome.map_eq_failure {ε α β : Type} (f : α → β) (outcome : Outcome ε α) (e : ε) :
    outcome.map f = .failure e ↔ outcome = .failure e := by
  cases outcome <;> simp [Outcome.map]

/-- A query of a caller alone for a label fails exactly if nothing is stored for it, no fetch of it is
under way and its own fetch fails. -/
theorem LabelCache.ask_label_eq_failure_iff (key : String)
    (fetch : StateM LabelCache (Outcome String String)) (c : LabelCache) (e : String) :
    ((ask (.label key) fetch).run c).1 = some (.failure e) ↔
      c.get? key = none ∧ key ∉ c.pending ∧ (fetch.run (c.mark (.label key))).1 = .failure e := by
  rw [run_ask]
  show _ ↔ c.answer? (.label key) = none ∧ ¬ c.UnderWay (.label key) ∧ _
  cases answer : c.answer? (.label key) with
  | some text =>
    refine iff_of_false (fun answered => ?_) (fun failed => nomatch failed.1)
    exact nomatch Option.some.inj answered
  | none =>
    by_cases underWay : c.UnderWay (.label key)
    · rw [if_pos underWay]
      exact iff_of_false (fun waits => nomatch waits) (fun failed => failed.2.1 underWay)
    · rw [if_neg underWay]
      refine ⟨fun fails => ⟨rfl, underWay, Option.some.inj fails⟩, ?_⟩
      rintro ⟨-, -, fails⟩
      exact congrArg some fails

namespace Sidebar

variable (s : Sidebar) (width : String)

theorem hidden_toggle : (s.toggle width).2.hidden = !s.hidden := by
  cases hidden : s.hidden <;> simp [toggle, hidden]

theorem savedWidth_toggle :
    (s.toggle width).2.savedWidth = if s.hidden then s.savedWidth else width := by
  cases hidden : s.hidden <;> simp [toggle, hidden]

theorem width_toggle_of_hidden {s : Sidebar} (hidden : s.hidden = true) :
    (s.toggle width).1.width = s.savedWidth := by
  simp [toggle, hidden]

variable (cache : LabelCache) (fetch : String → StateM LabelCache (Outcome String String))

theorem run_toggleLabelled_fst :
    ((s.toggleLabelled width fetch).run cache).1 =
      (((LabelCache.ask (.label (s.toggle width).1.labelKey)
        (fetch (s.toggle width).1.labelKey)).run cache).1.map
          (Outcome.map fun text => ((s.toggle width).1, text)), (s.toggle width).2) := by
  rw [run_toggleLabelled]
  rfl

/-- A toggle with the label, by a caller alone, fails exactly if the label has to be fetched and its
fetch fails. -/
theorem toggleLabelled_eq_failure_iff (e : String) :
    ((s.toggleLabelled width fetch).run cache).1.1 = some (.failure e) ↔
      cache.get? (s.toggle width).1.labelKey = none ∧
      (s.toggle width).1.labelKey ∉ cache.pending ∧
      ((fetch (s.toggle width).1.labelKey).run
        (cache.mark (.label (s.toggle width).1.labelKey))).1 = .failure e := by
  rw [run_toggleLabelled_fst, Option.map_eq_some_iff]
  simp only [Outcome.map_eq_failure, exists_eq_right]
  exact LabelCache.ask_label_eq_failure_iff _ _ cache e

/-- A toggle with the label that succeeds tells the view what a toggle tells it. -/
theorem eq_toggle_of_toggleLabelled {change : SidebarChange} {text : String}
    (succeeded : ((s.toggleLabelled width fetch).run cache).1.1 = some (.value (change, text))) :
    change = (s.toggle width).1 := by
  rw [run_toggleLabelled_fst] at succeeded
  obtain ⟨outcome, -, mapped⟩ := Option.map_eq_some_iff.1 succeeded
  cases outcome with
  | value found =>
    simp only [Outcome.map, Outcome.value.injEq, Prod.mk.injEq] at mapped
    exact mapped.1.symm
  | failure e => cases mapped
  | unwound reason => cases mapped

end Sidebar

namespace SidebarCall

/-- A call toggles the sidebar, whether or not it finds the label. -/
theorem run_snd (c : SidebarCall) (s : Sidebar) : (c.run s).2 = (s.toggle c.width).2 := by
  cases c with
  | toggle width => rfl
  | toggleLabelled width cache fetch =>
    exact congrArg Prod.snd (s.run_toggleLabelled_fst width cache fetch)

theorem eq_toggle_of_told {c : SidebarCall} {s : Sidebar} {change : SidebarChange}
    (told : (c.run s).1 = some change) : change = (s.toggle c.width).1 := by
  cases c with
  | toggle width => exact (Option.some.inj told).symm
  | toggleLabelled width cache fetch =>
    obtain ⟨⟨change', text⟩, delivered, rfl⟩ := Option.map_eq_some_iff.1 told
    obtain ⟨outcome, ended, value⟩ := Option.bind_eq_some_iff.1 delivered
    cases outcome with
    | value found =>
      obtain rfl := Option.some.inj value
      exact s.eq_toggle_of_toggleLabelled width cache fetch ended
    | failure e => cases value
    | unwound reason => cases value

end SidebarCall

/-! ## Runs -/

namespace SidebarRun

/-- A hidden sidebar was collapsed by the latest call and remembers the width passed to it. -/
def RemembersLatest (r : SidebarRun) : Prop :=
  r.sidebar.hidden = true →
    ∃ latest before, r.history = latest :: before ∧ latest.expanding = false ∧
      r.sidebar.savedWidth = latest.width

theorem RemembersLatest.call {r : SidebarRun} (c : SidebarCall) : RemembersLatest (r.call c) := by
  intro hidden
  simp only [SidebarRun.call, c.run_snd, Sidebar.hidden_toggle, Bool.not_eq_true'] at hidden
  refine ⟨⟨c.width, r.sidebar.hidden, (c.run r.sidebar).1⟩, r.history, rfl, hidden, ?_⟩
  simp [SidebarRun.call, c.run_snd, Sidebar.savedWidth_toggle, hidden]

theorem remembersLatest_calls (collapsed : String) (cs : List SidebarCall) :
    RemembersLatest ((start collapsed).calls cs) := by
  induction cs using List.reverseRecOn with
  | nil => exact fun hidden => nomatch hidden
  | append_singleton cs c ih =>
    rw [calls, List.foldl_append]
    exact RemembersLatest.call c

/-- A labelled toggle of a caller alone fails exactly if the label is neither stored nor being fetched
and its fetch fails. (Beside other callers it may also wait for the fetch of one of them, and where
that fails it fetches by itself and may fail as well.) But the sidebar is toggled however the call
ends. In a run an expanding call that succeeds gives the width that was passed to the call just before
it, a collapsing one. This is the width that was passed to the last collapsing call that succeeded
exactly if the call just before did succeed, or was passed that width as well. -/
theorem toggled_whether_or_not_failed (s : Sidebar) (width : String) (cache : LabelCache)
    (fetch : String → StateM LabelCache (Outcome String String)) (collapsed : String)
    (cs : List SidebarCall) (c : SidebarCall) (change : SidebarChange) :
    let key := (s.toggle width).1.labelKey
    let ended := ((s.toggleLabelled width fetch).run cache).1
    let r := (start collapsed).calls cs
    (∀ e, ended.1 = some (.failure e) ↔
      cache.get? key = none ∧ key ∉ cache.pending ∧
      ((fetch key).run (cache.mark (.label key))).1 = .failure e) ∧
    (ended.2.hidden = !s.hidden ∧ ended.2.savedWidth = if s.hidden then s.savedWidth else width) ∧
    (r.sidebar.hidden = true → (c.run r.sidebar).1 = some change →
      ∃ latest before, r.history = latest :: before ∧ latest.expanding = false ∧
        change.width = latest.width ∧
        (lastCollapsed r.history = some change.width ↔
          latest.told.isSome = true ∨ lastCollapsed before = some latest.width)) := by
  intro key ended r
  refine ⟨s.toggleLabelled_eq_failure_iff width cache fetch, ?_, ?_⟩
  · have toggled : ended.2 = (s.toggle width).2 :=
      congrArg Prod.snd (s.run_toggleLabelled_fst width cache fetch)
    rw [toggled]
    exact ⟨s.hidden_toggle width, s.savedWidth_toggle width⟩
  · intro hidden told
    obtain ⟨latest, before, history, collapsing, saved⟩ := remembersLatest_calls collapsed cs hidden
    have expands : change.width = latest.width := by
      rw [SidebarCall.eq_toggle_of_told told, Sidebar.width_toggle_of_hidden _ hidden, saved]
    refine ⟨latest, before, history, collapsing, expands, ?_⟩
    have law := lastCollapsed_cons_of_collapsing collapsing before
    rw [history, law, expands]
    by_cases succeeded : latest.told.isSome = true
    · simp [succeeded]
    · simp [succeeded]

/-- The server is away while the sidebar is collapsed with its label. The call fails, and the next
toggle expands to the width that was passed to it. -/
theorem toggled_though_failed :
    let failing : String → StateM LabelCache (Outcome String String) := fun _ =>
      pure (.failure "offline")
    let r := (start "10px").calls
      [.toggle "240px", .toggle "10px", .toggleLabelled "300px" .empty failing]
    r.sidebar.hidden = true ∧
    ∃ latest before, r.history = latest :: before ∧ latest.expanding = false ∧
      "300px" = latest.width ∧
      (lastCollapsed r.history = some "300px" ↔
        latest.told.isSome = true ∨ lastCollapsed before = some latest.width) := by
  intro failing r
  have law := toggled_whether_or_not_failed ⟨false, "240px", "10px"⟩ "300px" .empty failing "10px"
    [.toggle "240px", .toggle "10px", .toggleLabelled "300px" .empty failing] (.toggle "10px")
    ⟨"300px", "hide"⟩
  exact ⟨rfl, law.2.2 rfl rfl⟩

/-- A labelled toggle that fails does toggle the sidebar, and in a run an expanding call need not give
the width that was passed to the last collapsing call that succeeded. -/
theorem not_unchanged_by_failed_toggle :
    ¬ (∀ (s : Sidebar) (width : String) (cache : LabelCache)
        (fetch : String → StateM LabelCache (Outcome String String)) (e : String),
      ((s.toggleLabelled width fetch).run cache).1.1 = some (.failure e) →
      ((s.toggleLabelled width fetch).run cache).1.2.hidden = s.hidden ∧
      ((s.toggleLabelled width fetch).run cache).1.2.savedWidth = s.savedWidth) ∧
    ¬ (∀ (collapsed : String) (cs : List SidebarCall) (c : SidebarCall) (change : SidebarChange),
      let r := (start collapsed).calls cs
      r.sidebar.hidden = true → (c.run r.sidebar).1 = some change →
      lastCollapsed r.history = some change.width) := by
  refine ⟨fun unchanged => ?_, fun agrees => ?_⟩
  · have kept := unchanged ⟨true, "240px", "10px"⟩ "10px" .empty (fun _ => pure (.failure "offline"))
      "offline" rfl
    exact absurd kept.1 (by decide)
  · have same := agrees "10px"
      [.toggle "240px", .toggle "10px",
        .toggleLabelled "300px" .empty fun _ => pure (.failure "offline")]
      (.toggle "10px") ⟨"300px", "hide"⟩ rfl rfl
    exact absurd same (by decide)

end SidebarRun

end DraftDesk
