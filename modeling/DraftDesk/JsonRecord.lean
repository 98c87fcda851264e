import DraftDesk.JsonReader
import DraftDesk.Selection

/-!
# Records in JSON

A record is written as an object or as an array of its fields in order. In an object a field may
stand once and other members are skipped, but each key must be a text; in an array the last
fields may be missing.
-/

namespace DraftDesk

namespace Json

def text? : Json → Option String
  | .string text => text
  | _ => none

/-- A text, or null for none. -/
def optionalText? : Json → Option (Option String)
  | .null => some none
  | value => value.text?.map some

def bool? : Json → Option Bool
  | .bool b => some b
  | _ => none

/-- A natural number of at most 64 bits. -/
def size? : Json → Option Nat
  | .integer n => if 0 ≤ n ∧ n < UInt64.size then some n.toNat else none
  | _ => none

/-- The value of a member, if there is one; fails if there are more. -/
def member? (members : List (Option String × Json)) (name : String) : Option (Option Json) :=
  match members.filter fun member => member.1 = some name with
  | [] => some none
  | [(_, value)] => some (some value)
  | _ => none

/-- The values of the fields of a record, each of which may be missing. -/
def fields? (names : List String) : Json → Option (List (Option Json))
  | .array items =>
    if items.length ≤ names.length then
      some (items.map some ++ List.replicate (names.length - items.length) none)
    else none
  | .object members =>
    if members.all fun member => member.1.isSome then names.mapM (member? members) else none
  | _ => none

/-- Reads a text and then its value. -/
def decode? {α : Type} (ofJson? : Json → Option α) (text : String) : Option α :=
  (read? text.toList).bind ofJson?

end Json

/-! ## Selections -/

/-- A direction is its name, or an object with the name as its only key and null as its value. -/
def Direction.ofJson? : Json → Option Direction
  | .string (some name) | .object [(some name, .null)] =>
    Direction.all.find? fun direction => direction.name = name
  | _ => none

/-- The bounds are kept as they are written, in whichever order. -/
def Selection.ofJson? (value : Json) : Option Selection :=
  match value.fields? ["start", "end", "direction"] with
  | some [some start, some stop, some direction] => do
    return ⟨← start.size?, ← stop.size?, ← Direction.ofJson? direction⟩
  | _ => none

end DraftDesk
