import DraftDesk.Proofs.CrowdSteps
import DraftDesk.Proofs.Serving
import Mathlib.Algebra.Order.BigOperators.Group.Finset

/-!
# What comes out of a crowd

Where the first fetches of a crowd fail and the next one delivers, each failure goes to the caller
that ran the fetch, and everybody else gets what was delivered (`Account`). Every turn uses up some
of what the callers may still do (`weight`): waking the sleepers costs a caller as much as they can
gain by it. So whatever the order of the turns, they come to an end, and what has come out then
depends on the number of callers and of failures alone (`outcome_of_crowd`).
-/

namespace DraftDesk.Crowd

variable {query : LabelQuery} {ending : Nat → Outcome String query.Answer} {w w' : World}
  {who count turns : Nat}

/-! ## What was delivered -/

/-- Nothing is stored but what was fetched for the query of the crowd. -/
def Dedicated (query : LabelQuery) (w : World) : Prop :=
  ∀ other, other ≠ query → w.cache.stored other = none

theorem Dedicated.answer? (dedicated : Dedicated query w) :
    w.cache.answer? query = w.cache.stored query := by
  cases query with
  | table => rfl
  | label key =>
    rw [LabelCache.answer?_label, dedicated .table LabelQuery.noConfusion, Option.bind_none,
      Option.or_none]

theorem Dedicated.step (dedicated : Dedicated query w) (step : Step query ending w who w') :
    Dedicated query w' := by
  intro other differs
  have before := dedicated other differs
  cases step with
  | answered | slept | notified => exact before
  | started present waiting absent free => rwa [LabelCache.stored_mark absent]
  | finished present without => rwa [LabelCache.stored_leave_of_ne _ differs]

/-- How far the fetches of a crowd are: some have failed, or all that do fail and then one has
delivered, which others were given as well. -/
inductive Account (ending : Nat → Outcome String query.Answer) (fails : Nat) (a : query.Answer)
    (w : World) : Prop where
  | failing (failed : Nat) (few : failed ≤ fails)
      (outcomes : (results query w).map Prod.snd = ((List.range failed).map ending).reverse)
      (stored : w.cache.stored query = none)
      (begun : fetches w = if w.cache.UnderWay query then failed + 1 else failed)
  | delivered (given : Nat)
      (outcomes : (results query w).map Prod.snd =
        List.replicate (given + 1) (.value a) ++ ((List.range fails).map ending).reverse)
      (stored : w.cache.stored query = some a) (begun : fetches w = fails + 1)

theorem fetches_started (cache : LabelCache) (callers : List Caller) :
    fetches ⟨cache, callers, .started who query :: w.history⟩ = fetches w + 1 := by
  simp [fetches]

variable {fails : Nat} {a : query.Answer}

/-- Steps that neither begin nor end a fetch and give nobody a result leave the account alone. -/
private theorem Account.frame (account : Account ending fails a w) (cache : w'.cache = w.cache)
    (same : results query w' = results query w) (begun : fetches w' = fetches w) :
    Account ending fails a w' := by
  cases account with
  | failing failed few outcomes stored number =>
    exact .failing failed few (by rw [same, outcomes]) (by rw [cache, stored])
      (by rw [begun, number, cache])
  | delivered given outcomes stored number =>
    exact .delivered given (by rw [same, outcomes]) (by rw [cache, stored]) (by rw [begun, number])

theorem Account.step (failing : ∀ k < fails, (ending k).value? = none)
    (delivers : ending fails = .value a) (reached : w.Reachable) (dedicated : Dedicated query w)
    (account : Account ending fails a w) (step : Step query ending w who w') :
    Account ending fails a w' := by
  have answers := dedicated.answer?
  cases step with
  | @answered _ b present waiting answer =>
    rw [answers] at answer
    cases account with
    | failing failed few outcomes stored begun =>
      rw [stored] at answer
      cases answer
    | delivered given outcomes stored begun =>
      rw [stored, Option.some.injEq] at answer
      subst answer
      refine .delivered (given + 1) ?_ stored ?_
      · rw [results_answered, List.map_cons, outcomes]
        rfl
      · simpa [fetches] using begun
  | slept present waiting absent underWay =>
    exact account.frame rfl (results_silent rfl) (by simp [fetches])
  | started present waiting absent free =>
    cases account with
    | failing failed few outcomes stored begun =>
      refine .failing failed few ?_ ?_ ?_
      · rw [results_silent rfl, outcomes]
      · rw [LabelCache.stored_mark absent, stored]
      · rw [if_neg free] at begun
        rw [fetches_started, begun, if_pos ((LabelCache.underWay_mark _ _ _).2 (.inl rfl))]
    | delivered given outcomes stored begun =>
      rw [answers, stored] at absent
      cases absent
  | finished present without =>
    have underWay := reached.singleFlight.underWay_of_present present
    cases account with
    | failing failed few outcomes stored begun =>
      rw [if_pos underWay] at begun
      have number : fetches w - 1 = failed := by omega
      rw [number]
      have left := LabelCache.stored_leave_self underWay (ending failed)
      rw [stored, Option.or_none] at left
      by_cases last : failed = fails
      · subst last
        rw [delivers] at left ⊢
        refine .delivered 0 ?_ left ?_
        · rw [results_finished, List.map_cons, outcomes]
          rfl
        · simpa [fetches] using begun
      · have before : failed < fails := Nat.lt_of_le_of_ne few last
        refine .failing (failed + 1) before ?_ ?_ ?_
        · rw [results_finished, List.map_cons, outcomes, List.range_succ, List.map_append,
            List.reverse_append]
          rfl
        · rw [left, failing failed before]
        · have free := LabelCache.underWay_leave w.cache query (ending failed) query
          rw [if_neg (by simp [free])]
          simpa [fetches] using begun
    | delivered given outcomes stored begun =>
      rw [reached.unstored_of_underWay query underWay] at stored
      cases stored
  | notified present got => exact account.frame rfl (results_silent rfl) (by simp [fetches])

theorem Reaches.account (failing : ∀ k < fails, (ending k).value? = none)
    (delivers : ending fails = .value a) (reaches : Reaches query ending count turns w) :
    Dedicated query w ∧ Account ending fails a w := by
  refine reaches.induction (fun w => Dedicated query w ∧ Account ending fails a w) ?_ ?_
  · refine ⟨fun other _ => LabelCache.stored_empty other, ?_⟩
    exact .failing 0 (Nat.zero_le fails) rfl (LabelCache.stored_empty query)
      (if_neg (LabelCache.underWay_empty query)).symm
  · rintro w who w' reached roster ⟨dedicated, account⟩ step
    exact ⟨dedicated.step step, account.step failing delivers reached dedicated step⟩

/-! ## Turns come to an end -/

/-- How much a caller may still do in a crowd of a size. -/
def callerWeight (count : Nat) (heard : Bool) : Caller → Nat
  | ⟨_, .notifying⟩ => count
  | ⟨_, .asleep _ notified⟩ => count + 2 + notified.toNat
  | ⟨_ :: _, .busy⟩ => count + 1
  | ⟨[], .busy⟩ => if heard then 0 else count + 3

def weight (count : Nat) (w : World) (who : Nat) : Nat :=
  (w.callers[who]?).elim 0 (callerWeight count (w.history.any (·.who == who)))

/-- How much the callers of a crowd may still do. -/
def potential (count : Nat) (w : World) : Nat := ∑ who ∈ Finset.range count, weight count w who

/-- A sleeper that nobody has notified may stir for nothing. -/
def allowance (w : World) (who : Nat) : Nat :=
  match w.callers[who]? with
  | some ⟨_, .asleep _ false⟩ => 1
  | _ => 0

theorem weight_of_present {caller : Caller} (present : w.callers[who]? = some caller) :
    weight count w who = callerWeight count (w.history.any (·.who == who)) caller := by
  rw [weight, present, Option.elim_some]

theorem Waiting.weight_le (count : Nat) {activity : Activity} (present : w.callers[who]? = some ⟨[], activity⟩)
    (waiting : Waiting query w who activity) : count + 3 ≤ weight count w who + allowance w who := by
  rw [weight_of_present present, allowance, present]
  rcases waiting with ⟨rfl, unheard⟩ | ⟨notified, rfl, -⟩
  · have none : w.history.any (·.who == who) = false := by simpa using unheard
    simp [callerWeight, none]
  · cases notified <;> simp [callerWeight]

/-- The weight of the caller that has moved. -/
theorem weight_set_self {cache : LabelCache} {callers : List Caller} {history : List CallerEvent}
    {caller new : Caller} {event : CallerEvent} (present : callers[who]? = some caller)
    (mine : event.who = who) :
    weight count ⟨cache, callers.set who new, event :: history⟩ who = callerWeight count true new := by
  rw [weight_of_present (present_set present new)]
  simp [mine]

theorem weight_set_of_ne {w : World} (cache : LabelCache) (new : Caller) (event : CallerEvent) {i : Nat}
    (other : i ≠ event.who) :
    weight count ⟨cache, w.callers.set event.who new, event :: w.history⟩ i = weight count w i := by
  have differs : (event.who == i) = false := beq_eq_false_iff_ne.2 (Ne.symm other)
  simp [weight, List.getElem?_set_ne (Ne.symm other), differs]

theorem callerWeight_notify_le (heard : Bool) (caller : Caller) :
    callerWeight count heard caller.notify ≤ callerWeight count heard caller + 1 := by
  obtain ⟨flights, activity⟩ := caller
  cases activity with
  | asleep waited notified => cases notified <;> simp [Caller.notify, callerWeight]
  | busy => exact Nat.le_succ _
  | notifying => exact Nat.le_succ _

theorem weight_notify_le (cache : LabelCache) (callers : List Caller) (history : List CallerEvent) (i : Nat) :
    weight count ⟨cache, callers.map Caller.notify, history⟩ i ≤ weight count ⟨cache, callers, history⟩ i + 1 := by
  simp only [weight, List.getElem?_map]
  cases callers[i]? with
  | none => exact Nat.zero_le _
  | some caller => exact callerWeight_notify_le _ caller

/-- A sum goes down if one part loses more than the others gain. -/
theorem sum_add_one_le {size gain spare : Nat} {f g : Nat → Nat} (inside : who < size)
    (others : ∀ i, i ≠ who → g i ≤ f i + gain) (own : g who + gain * (size - 1) + 1 ≤ f who + spare) :
    ∑ i ∈ Finset.range size, g i + 1 ≤ ∑ i ∈ Finset.range size, f i + spare := by
  have member : who ∈ Finset.range size := Finset.mem_range.2 inside
  have rest : ∑ i ∈ (Finset.range size).erase who, g i ≤
      ∑ i ∈ (Finset.range size).erase who, f i + gain * (size - 1) :=
    calc ∑ i ∈ (Finset.range size).erase who, g i
        ≤ ∑ i ∈ (Finset.range size).erase who, (f i + gain) :=
          Finset.sum_le_sum fun i erased => others i (Finset.ne_of_mem_erase erased)
      _ = ∑ i ∈ (Finset.range size).erase who, f i + gain * (size - 1) := by
          rw [Finset.sum_add_distrib, Finset.sum_const, Finset.card_erase_of_mem member,
            Finset.card_range, Nat.nsmul_eq_mul, Nat.mul_comm]
  rw [← Finset.add_sum_erase _ g member, ← Finset.add_sum_erase _ f member]
  omega

theorem potential_set {cache : LabelCache} {caller new : Caller} {event : CallerEvent} {spare : Nat}
    (roster : Roster query count w) (present : w.callers[who]? = some caller) (mine : event.who = who)
    (own : callerWeight count true new + 1 ≤ weight count w who + spare) :
    potential count ⟨cache, w.callers.set who new, event :: w.history⟩ + 1 ≤
      potential count w + spare := by
  have others (i : Nat) (other : i ≠ who) :
      weight count ⟨cache, w.callers.set who new, event :: w.history⟩ i ≤ weight count w i + 0 := by
    subst mine
    exact (weight_set_of_ne cache new event other).le
  refine sum_add_one_le (roster.lt present) others ?_
  rwa [weight_set_self present mine, Nat.zero_mul, Nat.add_zero]

/-- Every step uses up something, but for a sleeper that stirs. -/
theorem Step.potential_lt (roster : Roster query count w) (step : Step query ending w who w') :
    potential count w' + 1 ≤ potential count w + allowance w who := by
  cases step with
  | answered present waiting answer =>
    have before := waiting.weight_le count present
    refine potential_set roster present rfl ?_
    simp only [callerWeight, if_true]
    omega
  | slept present waiting absent underWay =>
    have before := waiting.weight_le count present
    refine potential_set roster present rfl ?_
    simp only [callerWeight, Bool.toNat_false]
    omega
  | started present waiting absent free =>
    have before := waiting.weight_le count present
    refine potential_set roster present rfl ?_
    simp only [callerWeight]
    omega
  | finished present without =>
    refine potential_set roster present rfl ?_
    rw [weight_of_present present]
    exact Nat.le_add_right _ _
  | notified present got =>
    have before : weight count w who = count := weight_of_present present
    have inside := roster.lt present
    have others (i : Nat) (other : i ≠ who) :
        weight count ⟨w.cache, (w.callers.map Caller.notify).set who ⟨[], .busy⟩,
          .notified who :: w.history⟩ i ≤ weight count w i + 1 :=
      calc _ = weight count ⟨w.cache, w.callers.map Caller.notify, w.history⟩ i :=
            weight_set_of_ne w.cache ⟨[], .busy⟩ (.notified who) other
        _ ≤ weight count w i + 1 := weight_notify_le w.cache w.callers w.history i
    -- The notifier gives up as much as all the others and the step itself need.
    have own : weight count ⟨w.cache, (w.callers.map Caller.notify).set who ⟨[], .busy⟩,
        .notified who :: w.history⟩ who = 0 :=
      weight_set_self (present_notify present) rfl
    refine sum_add_one_le inside others ?_
    rw [own, before]
    omega

theorem potential_start (count : Nat) : potential count (World.start count) = count * (count + 3) := by
  have fresh : ∀ who ∈ Finset.range count, weight count (World.start count) who = count + 3 := by
    intro who member
    have present : (World.start count).callers[who]? = some Caller.fresh :=
      List.getElem?_replicate_of_lt (Finset.mem_range.1 member)
    rw [weight_of_present present]
    rfl
  rw [potential, Finset.sum_congr rfl fresh, Finset.sum_const, Finset.card_range, Nat.nsmul_eq_mul]

theorem allowance_of_turn? (taken : turn? query ending w who = some w') : allowance w who = 0 := by
  obtain ⟨⟨flights, activity⟩, present⟩ := present_of_turn? taken
  rw [allowance, present]
  cases activity with
  | asleep waited notified =>
    cases notified with
    | true => rfl
    | false => simp [turn?, move, present] at taken
  | busy | notifying => rfl

/-- Whatever the order of the turns, there are not more than these. -/
theorem Reaches.turns_le (reaches : Reaches query ending count turns w) :
    turns + potential count w ≤ count * (count + 3) := by
  induction reaches with
  | start => rw [potential_start, Nat.zero_add]
  | turn reaches taken bound =>
    have less := (step_of_turn? reaches.roster.phases taken).potential_lt reaches.roster
    rw [allowance_of_turn? taken] at less
    omega
  | @stir _ before after mover _ _ reaches asleep woken bound =>
    have step : Step query ending before mover after := step_of_stir reaches.roster.phases asleep woken
    have less := step.potential_lt reaches.roster
    have spare : allowance before mover = 1 := by rw [allowance, asleep]
    omega

/-! ## The end -/

/-- When nobody has a turn any more, each caller has got one result. -/
theorem Reaches.resolved_perm (reaches : Reaches query ending count turns w)
    (rest : ∀ who, turn? query ending w who = none) : (resolved query w).Perm (List.range count) := by
  refine (List.perm_ext_iff_of_nodup reaches.roster.once List.nodup_range).2 fun who => ?_
  refine ⟨fun got => List.mem_range.2 (reaches.roster.inside who got), fun inside => ?_⟩
  rw [List.mem_range, ← reaches.roster.size] at inside
  exact (reaches.done_of_no_turn rest (List.getElem?_eq_getElem inside)).2

theorem Reaches.not_underWay (reaches : Reaches query ending count turns w)
    (rest : ∀ who, turn? query ending w who = none) : ¬ w.cache.UnderWay query := by
  intro underWay
  obtain ⟨who, caller, present, inside⟩ := reaches.reachable.singleFlight.exists_fetcher underWay
  rw [(reaches.done_of_no_turn rest present).1] at inside
  exact List.not_mem_nil inside

/-- What has come out at the end, latest first. -/
theorem Reaches.outcome (failing : ∀ k < fails, (ending k).value? = none)
    (delivers : ending fails = .value a) (reaches : Reaches query ending count turns w)
    (rest : ∀ who, turn? query ending w who = none) :
    (results query w).map Prod.snd =
        List.replicate (count - fails) (.value a) ++ ((List.range (min count fails)).map ending).reverse ∧
      fetches w = min count (fails + 1) ∧
      w.cache.stored query = if fails < count then some a else none := by
  have everybody : ((results query w).map Prod.snd).length = count := by
    rw [List.length_map, ← List.length_map Prod.fst, ← List.length_range (n := count)]
    exact (reaches.resolved_perm rest).length_eq
  cases (reaches.account failing delivers).2 with
  | failing failed few outcomes stored begun =>
    rw [if_neg (reaches.not_underWay rest)] at begun
    obtain rfl : failed = count := by simpa [outcomes] using everybody
    refine ⟨?_, ?_, ?_⟩
    · rw [outcomes, Nat.sub_eq_zero_of_le few, Nat.min_eq_left few, List.replicate_zero, List.nil_append]
    · rw [begun, Nat.min_eq_left (Nat.le_succ_of_le few)]
    · rw [stored, if_neg (Nat.not_lt.2 few)]
  | delivered given outcomes stored begun =>
    obtain rfl : given + 1 + fails = count := by simpa [outcomes] using everybody
    refine ⟨?_, ?_, ?_⟩
    · rw [outcomes, Nat.add_sub_cancel, Nat.min_eq_right (Nat.le_add_left _ _)]
    · rw [begun, Nat.min_eq_right (by omega)]
    · rw [stored, if_pos (by omega)]

/-- The fetches of which the first ones fail. -/
def endings (fails : Nat) (failure : Nat → String) (value : Nat → query.Answer) (k : Nat) :
    Outcome String query.Answer :=
  if k < fails then .failure (failure k) else .value (value k)

/-- However the turns of a crowd are ordered, they come to an end. Then each caller has got one result:
each failure has gone to one of them, the others have got what the next fetch has delivered, and no
other fetch has run. -/
theorem outcome_of_crowd {failure : Nat → String} {value : Nat → query.Answer}
    (reaches : Reaches query (endings fails failure value) count turns w) :
    turns ≤ count * (count + 3) ∧
      ((∀ who, turn? query (endings fails failure value) w who = none) →
        ((results query w).map Prod.fst).Perm (List.range count) ∧
        (results query w).map Prod.snd = List.replicate (count - fails) (.value (value fails)) ++
          ((List.range (min count fails)).map fun k => .failure (failure k)).reverse ∧
        fetches w = min count (fails + 1) ∧
        ((∃ table, w.cache.table = .ready table) ↔ query = .table ∧ fails < count)) := by
  refine ⟨Nat.le_of_add_right_le reaches.turns_le, fun rest => ?_⟩
  have failing : ∀ k < fails, (endings fails failure value k).value? = none := by
    intro k early
    rw [endings, if_pos early]
    rfl
  have delivers : endings fails failure value fails = .value (value fails) := if_neg (Nat.lt_irrefl _)
  obtain ⟨outcomes, begun, stored⟩ := reaches.outcome failing delivers rest
  refine ⟨reaches.resolved_perm rest, ?_, begun, ?_⟩
  · rw [outcomes]
    congr 2
    refine List.map_congr_left fun k member => if_pos ?_
    exact Nat.lt_of_lt_of_le (List.mem_range.1 member) (Nat.min_le_right _ _)
  · simp only [← LabelCache.stored_table]
    cases query with
    | table =>
      rw [stored]
      by_cases enough : fails < count <;> simp [enough]
    | label key => simp [(reaches.account failing delivers).1 .table LabelQuery.noConfusion]

/-- The first of two callers fails, and the second one, which has stirred meanwhile, fetches again. -/
theorem outcome_of_crowd_of_two :
    let hide : LabelQuery := .label "hide"
    let ending : Nat → Outcome String hide.Answer := endings 1 (fun _ => "offline") fun _ => "Hide"
    let w : World := ⟨⟨.empty, ⟨[("hide", "Hide")]⟩, []⟩, [⟨[], .busy⟩, ⟨[], .busy⟩],
      [.notified 1, .finished 1 hide (.value "Hide"), .started 1 hide, .notified 0,
        .finished 0 hide (.failure "offline"), .slept 1 hide, .slept 1 hide, .started 0 hide]⟩
    Reaches hide ending 2 7 w ∧ (∀ who, turn? hide ending w who = none) ∧
      ((results hide w).map Prod.fst).Perm [0, 1] ∧
      (results hide w).map Prod.snd = [.value "Hide", .failure "offline"] ∧ fetches w = 2 ∧
      ¬ ∃ table, w.cache.table = .ready table := by
  intro hide ending w
  have asked : Reaches hide ending 2 1 _ :=
    .turn .start (rfl : turn? hide ending (World.start 2) 0 = some _)
  have slept : Reaches hide ending 2 2 _ := .turn asked (rfl : turn? hide ending _ 1 = some _)
  have stirred : Reaches hide ending 2 2 _ := .stir slept rfl (rfl : World.move? _ 1 .wake = some _)
  have failed : Reaches hide ending 2 3 ⟨.empty, [⟨[], .notifying⟩, ⟨[], .asleep hide false⟩],
      [.finished 0 hide (.failure "offline"), .slept 1 hide, .slept 1 hide, .started 0 hide]⟩ :=
    .turn stirred (rfl : turn? hide ending _ 0 = some _)
  have woken : Reaches hide ending 2 4 _ := .turn failed (rfl : turn? hide ending _ 0 = some _)
  have again : Reaches hide ending 2 5 _ := .turn woken (rfl : turn? hide ending _ 1 = some _)
  have fetched : Reaches hide ending 2 6 _ := .turn again (rfl : turn? hide ending _ 1 = some _)
  have reaches : Reaches hide ending 2 7 w := .turn fetched (rfl : turn? hide ending _ 1 = some _)
  have rest (who : Nat) : turn? hide ending w who = none :=
    match who with
    | 0 | 1 | _ + 2 => rfl
  obtain ⟨each, outcomes, begun, ready⟩ := (outcome_of_crowd reaches).2 rest
  exact ⟨reaches, rest, each, outcomes, begun, fun ended => LabelQuery.noConfusion (ready.1 ended).1⟩

end DraftDesk.Crowd
