import DraftDesk.Flags
import DraftDesk.Paths
import DraftDesk.Pieces
import DraftDesk.Storage
import DraftDesk.Utf8
import DraftDesk.WhiteSpace

/-!
# Flag files

Flags can be kept in two files: the global one, which the program writes, and a local one, which
it only reads. A file holds tokens between white space; a line whose first token begins with a
hash says nothing. A value is written as it is, so one with white space in it is read back as
several tokens.
-/

namespace DraftDesk

/-- Why the flags of a file could not be handled. -/
inductive FlagFileError where
  | read (path : String)
  | makeDirectory (path : String)
  | write (path : String)
  | remove (path : String)
  deriving DecidableEq, Repr

def FlagFileError.message : FlagFileError → String
  | .read path => "Failed to read config " ++ path
  | .makeDirectory path => "Failed to create config dir " ++ path
  | .write path => "Failed to write config " ++ path
  | .remove path => "Failed to remove " ++ path

namespace FlagFile

/-- The path of the local file. -/
def localPath : String := ".markpenrc"

/-- The path of the global file, from the directories for settings and for all of a user's files,
as far as they are known. -/
def globalPath (settings home : Option String) : String :=
  match settings, home with
  | some settings, _ => Paths.join (Paths.join settings "markpen") "config"
  | none, some home => Paths.join (Paths.join (Paths.join home ".config") "markpen") "config"
  | none, none => ".markpenrc"

/-! ## Text -/

/-- The tokens of a line. -/
def lineTokens (line : List Char) : List String :=
  match Pieces.words isWhiteSpace line with
  | ('#' :: _) :: _ => []
  | words => words.map String.ofList

/-- The tokens of a text. -/
def tokens (text : List Char) : List String :=
  (Pieces.split (· == '\n') text).flatMap lineTokens

/-- The lines of a file that keeps some flags. -/
def lines (flags : Flags) : List String :=
  ["# markpen defaults (saved with --save)"] ++
    (if flags.debug then ["--debug"] else []) ++
    (flags.consentCookie.map ("--consent-cookie " ++ ·)).toList ++
    (flags.consentDays.map fun days =>
      "--consent-days " ++ String.ofList (Decimal.ofInt days)).toList

/-- The text of a file that keeps some flags. -/
def render (flags : Flags) : List Char := (lines flags).flatMap fun line => line.toList ++ ['\n']

/-! ## Files -/

variable {m : Type → Type} [Monad m] (storage : Storage m)

/-- The flags that a file keeps; none if there is no file. -/
def load (path : String) : ExceptT FlagFileError m Flags := do
  match ← storage.read path with
  | .absent => return .empty
  | .unreadable => throw (.read path)
  | .content bytes =>
    match Utf8.decode? bytes with
    | some text => return .ofTokens (tokens text)
    | none => throw (.read path)

/-- Keeps flags in a file; its directory is made if need be. -/
def save (path : String) (flags : Flags) : ExceptT FlagFileError m Unit := do
  if let some parent := Paths.parent? path then
    unless ← storage.makeDirectory parent do throw (.makeDirectory parent)
  unless ← storage.write path (Utf8.encode (render flags)) do throw (.write path)

/-- Removes a file if there is one. -/
def clear (path : String) : ExceptT FlagFileError m Unit := do
  unless ← storage.remove path do throw (.remove path)

/-- The flags in force for one run: those of the files, then those given. The global file is
cleared and then saved where that is asked for, and after clearing neither file counts. -/
def resolve (globalPath localPath : String) (given : Flags) (saving clearing : Bool) :
    ExceptT FlagFileError m Flags := do
  if clearing then clear storage globalPath
  if saving then save storage globalPath given
  if clearing then return given
  let globalFlags ← load storage globalPath
  let localFlags ← load storage localPath
  return (globalFlags.union localFlags).union given

end FlagFile

end DraftDesk
