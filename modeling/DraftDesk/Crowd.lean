import DraftDesk.Callers

/-!
# Crowds

A crowd is a number of callers that each ask a fresh cache the same query once. How the fetches
end is fixed by their number, counted from 0 over all callers. In every state a caller then has at
most one move, and a run is a list of those whose turn it is.
-/

namespace DraftDesk.Crowd

/-- The number of fetches that have begun. -/
def fetches (w : World) : Nat :=
  w.history.countP fun
    | .started .. => true
    | _ => false

variable (query : LabelQuery) (ending : Nat → Outcome String query.Answer)

/-- The only move that a caller can make, if there is one. Only the fetch that began last can be
under way, since all ask for the same. -/
def move (w : World) (who : Nat) : Option Move := do
  let caller ← w.callers[who]?
  match caller.activity, caller.flights with
  | .busy, _ :: _ => some (.finish query (ending (fetches w - 1)))
  | .busy, [] => if w.history.any (·.who == who) then none else some (.ask query)
  | .asleep _ true, _ => some .wake
  | .asleep _ false, _ => none
  | .notifying, _ => some .notify

/-- One caller has its turn. -/
def turn? (w : World) (who : Nat) : Option World := do
  w.move? who (← move query ending w who)

/-- Each caller that can move has one turn. -/
def sweep (w : World) : World :=
  (List.range w.callers.length).foldl (fun w who => (turn? query ending w who).getD w) w

/-- The end of the run in which the callers take turns in order. -/
def settle (count : Nat) : World :=
  (List.range (4 * count + 4)).foldl (fun w _ => sweep query ending w) (World.start count)

end DraftDesk.Crowd
