import DraftDesk.Pieces
import DraftDesk.Storage

/-!
# File trees

A file tree holds files and directories at locations, which are lists of names from the root. A
path is followed name by name from the root or from the working directory, and each name but the
last must be that of a directory.
-/

namespace DraftDesk

inductive FileEntry where
  | file (bytes : List UInt8)
  | directory
  deriving DecidableEq, Repr

/-- The names that lead to a place from the root. -/
abbrev Location := List String

structure FileTree where
  holds : Location → Option FileEntry
  workingDirectory : Location

namespace FileTree

/-- Only the working directory and what is above it. -/
def empty (workingDirectory : Location) : FileTree where
  holds location := if location.isPrefixOf workingDirectory then some .directory else none
  workingDirectory

/-- Puts something at a location, or takes away what is there. -/
def set (t : FileTree) (location : Location) (entry : Option FileEntry) : FileTree :=
  { t with holds := fun other => if other = location then entry else t.holds other }

@[simp] theorem holds_set (t : FileTree) (location other : Location) (entry : Option FileEntry) :
    (t.set location entry).holds other = if other = location then entry else t.holds other := rfl

def isDirectory (t : FileTree) (location : Location) : Bool :=
  location == [] || t.holds location == some .directory

/-! ## Paths -/

/-- A path has less than 4096 bytes and no null character. -/
def isPath (path : String) : Bool := path.utf8ByteSize < 4096 && !path.toList.contains '\x00'

/-- A name has at most 255 bytes. -/
def isName (name : String) : Bool := name.utf8ByteSize ≤ 255

/-- Where one name of a path leads from a location. -/
def follow? (t : FileTree) (location : Location) (name : String) : Option Location :=
  if t.isDirectory location then
    if name = "" ∨ name = "." then some location
    else if name = ".." then some location.dropLast
    else if isName name then some (location ++ [name])
    else none
  else none

/-- The names of a path. An empty name leads nowhere else. -/
def names (path : String) : List String := (Pieces.split (· == '/') path.toList).map String.ofList

/-- The location where a path begins. -/
def origin (t : FileTree) (path : String) : Location :=
  if path.toList.head? = some '/' then [] else t.workingDirectory

/-- The location that a path leads to, where there may be nothing. -/
def locate? (t : FileTree) (path : String) : Option Location :=
  if path = "" ∨ !isPath path then none else (names path).foldlM t.follow? (t.origin path)

/-! ## Operations -/

def read (t : FileTree) (path : String) : Reading :=
  match t.locate? path with
  | none => .absent
  | some location =>
    if t.isDirectory location then .unreadable
    else match t.holds location with
      | some (.file bytes) => .content bytes
      | _ => .absent

def write? (t : FileTree) (path : String) (bytes : List UInt8) : Option FileTree := do
  let location ← t.locate? path
  if t.isDirectory location then none else some (t.set location (some (.file bytes)))

def remove? (t : FileTree) (path : String) : Option FileTree :=
  match t.locate? path with
  | none => some t
  | some location => if t.isDirectory location then none else some (t.set location none)

/-- Follows one name and makes a directory there if there is nothing. -/
def enterDirectory (location : Location) (name : String) : OptionT (StateM FileTree) Location := do
  let t ← getThe FileTree
  match t.follow? location name with
  | none => failure
  | some location =>
    if t.isDirectory location then return location
    else match t.holds location with
      | some _ => failure
      | none =>
        modifyThe FileTree (·.set location (some .directory))
        return location

/-- Makes the directories on a path; the empty path has none. A directory that cannot be made
leaves those before it in place. -/
def makeDirectory (path : String) : OptionT (StateM FileTree) Unit := do
  if path = "" then return
  if !isPath path then failure
  discard ((names path).foldlM enterDirectory ((← getThe FileTree).origin path))

/-- A change that happens or does not. -/
def attempt (change : FileTree → Option FileTree) : StateM FileTree Bool := fun t =>
  match change t with
  | some t => (true, t)
  | none => (false, t)

/-- A file tree as a storage. -/
def storage : Storage (StateM FileTree) where
  read path := fun t => (t.read path, t)
  write path bytes := attempt (·.write? path bytes)
  remove path := attempt (·.remove? path)
  makeDirectory path := do return (← (makeDirectory path).run).isSome

end FileTree

end DraftDesk
