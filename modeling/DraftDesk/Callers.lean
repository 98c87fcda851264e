import DraftDesk.LabelCache

/-!
# Callers at the same time

Any number of callers use one label cache. Each moves by single steps: it asks, looks, clears,
ends its innermost fetch, wakes the sleepers after a fetch, or wakes up itself. A caller that is
told to wait falls asleep in the same step. What a fetch delivers and the waking of the sleepers
are two steps, between which others may move. A sleeper that wakes up asks again; it may wake up
without having been notified.

A run is any list of moves that the callers can make, and the history of a world holds what
happened in it.
-/

namespace DraftDesk

inductive Activity where
  /-- Runs code of its own or of its innermost fetch. -/
  | busy
  /-- Waits until the query may be answered. -/
  | asleep (query : LabelQuery) (notified : Bool)
  /-- Has ended a fetch and has still to wake the sleepers. -/
  | notifying
  deriving DecidableEq, Repr, Inhabited

structure Caller where
  /-- The fetches that the caller is running, innermost first. -/
  flights : List LabelQuery
  activity : Activity
  deriving DecidableEq, Repr, Inhabited

namespace Caller

/-- A caller that has not done anything. -/
def fresh : Caller := ⟨[], .busy⟩

/-- A sleeper becomes notified. -/
def notify (c : Caller) : Caller :=
  match c.activity with
  | .asleep query _ => { c with activity := .asleep query true }
  | _ => c

end Caller

/-- What a caller can do. -/
inductive Move where
  | ask (query : LabelQuery)
  | look (key : String)
  | inspect
  | clear
  | finish (query : LabelQuery) (outcome : Outcome String query.Answer)
  | notify
  | wake

/-- What happened. -/
inductive CallerEvent where
  /-- A query was answered without a fetch. -/
  | answered (who : Nat) (query : LabelQuery) (answer : query.Answer)
  | slept (who : Nat) (query : LabelQuery)
  | started (who : Nat) (query : LabelQuery)
  | finished (who : Nat) (query : LabelQuery) (outcome : Outcome String query.Answer)
  | looked (who : Nat) (key : String) (found : Option String)
  | inspected (who : Nat) (table : TableState)
  | cleared (who : Nat)
  | notified (who : Nat)

def CallerEvent.who : CallerEvent → Nat
  | .answered who _ _ | .slept who _ | .started who _ | .finished who _ _
  | .looked who _ _ | .inspected who _ | .cleared who | .notified who => who

/-- A cache, those who use it, and what happened so far, latest first. -/
structure World where
  cache : LabelCache
  callers : List Caller
  history : List CallerEvent

namespace World

/-- A fresh cache and a number of callers. -/
def start (count : Nat) : World := ⟨.empty, List.replicate count .fresh, []⟩

/-- A caller enters the cache with a query. -/
def enter (w : World) (who : Nat) (caller : Caller) (query : LabelQuery) : World :=
  match w.cache.enter query with
  | (.answer a, cache) =>
    ⟨cache, w.callers.set who { caller with activity := .busy }, .answered who query a :: w.history⟩
  | (.wait, cache) =>
    ⟨cache, w.callers.set who { caller with activity := .asleep query false },
      .slept who query :: w.history⟩
  | (.fetch, cache) =>
    ⟨cache, w.callers.set who ⟨query :: caller.flights, .busy⟩, .started who query :: w.history⟩

/-- The world after a move of a caller, if the caller can make it. -/
def move? (w : World) (who : Nat) (move : Move) : Option World := do
  let caller ← w.callers[who]?
  match move, caller.activity, caller.flights with
  | .ask query, .busy, _ | .wake, .asleep query _, _ => some (w.enter who caller query)
  | .look key, .busy, _ =>
    some { w with history := .looked who key (w.cache.get? key) :: w.history }
  | .inspect, .busy, _ => some { w with history := .inspected who w.cache.table :: w.history }
  | .clear, .busy, _ => some { w with cache := w.cache.clear, history := .cleared who :: w.history }
  | .finish query outcome, .busy, flight :: flights =>
    if flight = query then
      some ⟨w.cache.leave query outcome, w.callers.set who ⟨flights, .notifying⟩,
        .finished who query outcome :: w.history⟩
    else none
  | .notify, .notifying, _ =>
    some ⟨w.cache, (w.callers.map Caller.notify).set who { caller with activity := .busy },
      .notified who :: w.history⟩
  | _, _, _ => none

/-- The world after a run. -/
def run? (w : World) (moves : List (Nat × Move)) : Option World :=
  moves.foldlM (fun w move => w.move? move.1 move.2) w

end World

end DraftDesk
