/-!
# Label tables

Localized labels by key. A key has at most one label: putting a second one in replaces the first.
-/

namespace DraftDesk

structure LabelTable where
  entries : List (String × String)
  deriving DecidableEq, Repr, Inhabited

namespace LabelTable

def empty : LabelTable := ⟨[]⟩

/-- The label of a key. -/
def find? (t : LabelTable) (key : String) : Option String := t.entries.lookup key

/-- Puts a label where the key has one, or at the end. -/
def put (key label : String) : List (String × String) → List (String × String)
  | [] => [(key, label)]
  | entry :: entries =>
    if entry.1 = key then (key, label) :: entries else entry :: put key label entries

def insert (t : LabelTable) (key label : String) : LabelTable := ⟨put key label t.entries⟩

/-- The table of some entries; of two with one key the later counts. -/
def ofList (entries : List (String × String)) : LabelTable :=
  entries.foldl (fun t entry => t.insert entry.1 entry.2) empty

@[simp] theorem find?_empty (key : String) : empty.find? key = none := rfl

theorem lookup_entry (key : String) (entry : String × String) (entries : List (String × String)) :
    (entry :: entries).lookup key = if key = entry.1 then some entry.2 else entries.lookup key := by
  obtain ⟨first, label⟩ := entry
  by_cases h : key = first
  · simp [h]
  · have differs : (key == first) = false := by simpa using h
    simp [List.lookup_cons, h, differs]

theorem lookup_put (key label other : String) (entries : List (String × String)) :
    (put key label entries).lookup other =
      if other = key then some label else entries.lookup other := by
  induction entries with
  | nil => simp [put]
  | cons entry entries ih =>
    by_cases same : entry.1 = key
    · by_cases h : other = key <;> simp [put, lookup_entry, same, h]
    · by_cases first : other = entry.1
      · simp [put, lookup_entry, same, first]
      · simp [put, lookup_entry, same, first, ih]

@[simp] theorem find?_insert (t : LabelTable) (key label other : String) :
    (t.insert key label).find? other = if other = key then some label else t.find? other :=
  lookup_put key label other t.entries

end LabelTable

end DraftDesk
