import DraftDesk.LabelTable

/-!
# The label cache

Labels come from the server one at a time or as a whole table, and the cache sees to it that each
is fetched by one caller at a time: `enter` answers a query from what is stored, tells the caller
to wait for a fetch that is under way, or marks a new fetch as under way; `leave` takes the mark
away and stores what a successful fetch delivered. Both are single steps that nothing interrupts.
Callers that run at the same time interleave these steps, and a fetch may itself ask the cache.

A single label counts before the table. Clearing forgets what is stored but leaves the marks, and
so what the fetches under way deliver is stored all the same.
-/

namespace DraftDesk

/-- What a caller wants to have. -/
inductive LabelQuery where
  | table
  | label (key : String)
  deriving DecidableEq, Repr, Inhabited

/-- What answers a query. -/
abbrev LabelQuery.Answer : LabelQuery → Type
  | .table => LabelTable
  | .label _ => String

/-- How a fetch ends. -/
inductive Outcome (ε α : Type) where
  | value (a : α)
  | failure (e : ε)
  /-- The fetch was cut short and delivered nothing. -/
  | unwound (reason : String)
  deriving DecidableEq, Repr

def Outcome.map {ε α β : Type} (f : α → β) : Outcome ε α → Outcome ε β
  | .value a => .value (f a)
  | .failure e => .failure e
  | .unwound reason => .unwound reason

/-- What the cache says to a query. -/
inductive Admission (α : Type) where
  | answer (a : α)
  /-- A fetch that may answer the query is under way. -/
  | wait
  /-- The caller has to fetch; the fetch counts as under way from now on. -/
  | fetch
  deriving DecidableEq, Repr

/-- The state of the table. -/
inductive TableState where
  | empty
  | loading
  | ready (table : LabelTable)
  deriving DecidableEq, Repr, Inhabited

def TableState.name : TableState → String
  | .empty => "empty"
  | .loading => "loading"
  | .ready _ => "ready"

structure LabelCache where
  table : TableState
  /-- The labels that were fetched one at a time. -/
  single : LabelTable
  /-- The keys whose fetches are under way. -/
  pending : List String
  deriving DecidableEq, Repr

namespace LabelCache

def empty : LabelCache := ⟨.empty, .empty, []⟩

instance : Inhabited LabelCache := ⟨empty⟩

/-- The label of a key as far as it is stored. -/
def get? (c : LabelCache) (key : String) : Option String :=
  match c.single.find? key, c.table with
  | some label, _ => some label
  | none, .ready table => table.find? key
  | none, _ => none

/-- Forgets what is stored. -/
def clear (c : LabelCache) : LabelCache :=
  { c with
    table := match c.table with
      | .loading => .loading
      | _ => .empty
    single := .empty }

/-- A cleared cache holds no label, also while the table is under way. -/
@[simp] theorem get?_clear (c : LabelCache) (key : String) : c.clear.get? key = none := by
  obtain ⟨table, single, pending⟩ := c
  cases table <;> rfl

/-! ## Entering and leaving -/

/-- Begins to answer a query. -/
def enter (c : LabelCache) : (query : LabelQuery) → Admission query.Answer × LabelCache
  | .table =>
    match c.table with
    | .ready table => (.answer table, c)
    | .loading => (.wait, c)
    | .empty => (.fetch, { c with table := .loading })
  | .label key =>
    match c.get? key with
    | some label => (.answer label, c)
    | none =>
      if key ∈ c.pending then (.wait, c)
      else (.fetch, { c with pending := key :: c.pending })

/-- Ends a fetch. -/
def leave {ε : Type} (c : LabelCache) : (query : LabelQuery) → Outcome ε query.Answer → LabelCache
  | .table, .value table => { c with table := .ready table }
  | .table, _ => { c with table := .empty }
  | .label key, outcome =>
    let c := { c with pending := c.pending.filter (· ≠ key) }
    match outcome with
    | .value label => { c with single := c.single.insert key label }
    | _ => c

/-! ## One caller -/

variable {m : Type → Type} [Monad m] {ε : Type}

/-- Answers a query from the cache or else by a fetch, which may use the cache as well. There is
no outcome where the caller would have to wait: alone, it would wait for itself. -/
def ask (query : LabelQuery) (fetch : StateT LabelCache m (Outcome ε query.Answer)) :
    StateT LabelCache m (Option (Outcome ε query.Answer)) := do
  match ← modifyGet (enter · query) with
  | .answer a => return some (.value a)
  | .wait => return none
  | .fetch =>
    let outcome ← fetch
    modify (leave · query outcome)
    return some outcome

end LabelCache

end DraftDesk
