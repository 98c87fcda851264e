import DraftDesk.Decimal
import DraftDesk.Hexadecimal

/-!
# JSON values

The values of JSON and their text. A string whose escapes name half of a surrogate pair is
well-formed but holds no text, so strings and keys are optional texts. A number is an integer if
it is written without fraction, exponent and minus zero; any other number is kept as written.

`Layout` says which white space is written; `compact` writes none and `indented` puts each item
on a line of its own.
-/

namespace DraftDesk

inductive Json where
  | null
  | bool (value : Bool)
  | integer (value : Int)
  | decimal (literal : String)
  | string (text : Option String)
  | array (items : List Json)
  | object (members : List (Option String × Json))
  deriving Repr, Inhabited

namespace Json

/-- A string that holds a text. -/
def text (s : String) : Json := .string (some s)

/-- A natural number. -/
def nat (n : Nat) : Json := .integer n

/-- An object whose keys are texts. -/
def record (members : List (String × Json)) : Json :=
  .object (members.map fun (key, value) => (some key, value))

/-! ## Text of strings and numbers -/

/-- One character inside a string: quote, backslash and control characters are escaped. -/
def escape (c : Char) : List Char :=
  if c = '"' then ['\\', '"']
  else if c = '\\' then ['\\', '\\']
  else if c = '\x08' then ['\\', 'b']
  else if c = '\x0c' then ['\\', 'f']
  else if c = '\n' then ['\\', 'n']
  else if c = '\r' then ['\\', 'r']
  else if c = '\t' then ['\\', 't']
  else if c.toNat < 0x20 then
    ['\\', 'u', '0', '0', Hexadecimal.lower (c.toNat / 16), Hexadecimal.lower (c.toNat % 16)]
  else [c]

/-- The text of a string; one without a text is written as half of a pair. -/
def quote : Option String → List Char
  | some s => '"' :: s.toList.flatMap escape ++ ['"']
  | none => "\"\\ud800\"".toList

/-! ## Layouts -/

/-- The white space of a written value. -/
structure Layout where
  /-- Before an item or a closing bracket that stands at a depth. -/
  line : Nat → List Char
  /-- After the colon of a member. -/
  afterColon : List Char

def Layout.compact : Layout := ⟨fun _ => [], []⟩

/-- Each item on its own line, two blanks for each level. -/
def Layout.indented : Layout := ⟨fun depth => '\n' :: List.replicate (2 * depth) ' ', [' ']⟩

mutual

/-- Writes a value whose first line stands at a depth. -/
def write (layout : Layout) (depth : Nat) : Json → List Char
  | .null => "null".toList
  | .bool true => "true".toList
  | .bool false => "false".toList
  | .integer n => Decimal.ofInt n
  | .decimal literal => literal.toList
  | .string s => quote s
  | .array [] => ['[', ']']
  | .array (item :: items) =>
    '[' :: layout.line (depth + 1) ++ write layout (depth + 1) item ++
      writeItems layout (depth + 1) items ++ layout.line depth ++ [']']
  | .object [] => ['{', '}']
  | .object ((key, value) :: members) =>
    '{' :: layout.line (depth + 1) ++ quote key ++ ':' :: layout.afterColon ++
      write layout (depth + 1) value ++ writeMembers layout (depth + 1) members ++
      layout.line depth ++ ['}']

/-- Writes the items after the first. -/
def writeItems (layout : Layout) (depth : Nat) : List Json → List Char
  | [] => []
  | item :: items =>
    ',' :: layout.line depth ++ write layout depth item ++ writeItems layout depth items

/-- Writes the members after the first. -/
def writeMembers (layout : Layout) (depth : Nat) : List (Option String × Json) → List Char
  | [] => []
  | (key, value) :: members =>
    ',' :: layout.line depth ++ quote key ++ ':' :: layout.afterColon ++
      write layout depth value ++ writeMembers layout depth members

end

/-- The text of a value on one line without white space. -/
def compact (value : Json) : String := String.ofList (value.write .compact 0)

/-- The text of a value with an item a line. -/
def indented (value : Json) : String := String.ofList (value.write .indented 0)

end Json

end DraftDesk
