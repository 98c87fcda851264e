/-!
# Paths

What the text of a path says by itself: its last name, the extension of that name, and the path
that leads to it. Slashes and single dots at the end of a path say nothing.
-/

namespace DraftDesk.Paths

/-- Drops slashes and single dots from the end of a path that is given from its end. -/
def trim : List Char → List Char
  | '/' :: cs => trim cs
  | '.' :: '/' :: cs => trim ('/' :: cs)
  | cs => cs

/-- The last name of a path and the path before it, both from their ends. -/
def last (path : String) : List Char × List Char :=
  let reversed := trim path.toList.reverse
  (reversed.takeWhile (· != '/'), reversed.dropWhile (· != '/'))

/-- The last name of a path; a path that ends in dots has none. -/
def fileName? (path : String) : Option String :=
  let name := (last path).1.reverse
  if name = [] ∨ name = ['.'] ∨ name = ['.', '.'] then none else some (String.ofList name)

/-- What follows the last dot of the last name, unless the name begins with that dot. -/
def extension? (path : String) : Option String := do
  let reversed := (← fileName? path).toList.reverse
  match reversed.dropWhile (· != '.') with
  | '.' :: _ :: _ => some (String.ofList (reversed.takeWhile (· != '.')).reverse)
  | _ => none

/-- The path that leads to the last name; the empty path and the root have none. -/
def parent? (path : String) : Option String :=
  match last path with
  | ([], _) => none
  | (_, before) =>
    match trim before, before with
    | [], _ :: _ => some "/"
    | trimmed, _ => some (String.ofList trimmed.reverse)

/-- A relative path below another path. -/
def join (base path : String) : String :=
  if base = "" ∨ base.toList.getLast? = some '/' then base ++ path else base ++ "/" ++ path

end DraftDesk.Paths
