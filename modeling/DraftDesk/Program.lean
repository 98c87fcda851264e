import DraftDesk.CommandLine
import DraftDesk.ConsentNotice
import DraftDesk.FileUpload
import DraftDesk.FlagFile
import DraftDesk.Report

/-!
# The program

One run of the program: the flags in force are settled first, then the command is carried out.
The host stands for all that is outside.
-/

namespace DraftDesk

/-- What the program asks of its surroundings. -/
structure Host (m : Type → Type) where
  storage : Storage m
  /-- The whole standard input. -/
  input : m (List UInt8)
  now : m Moment
  /-- The value of a variable of the environment. -/
  setting : String → m (Option String)

/-- Why a run failed. -/
inductive ProgramError where
  | flagFile (e : FlagFileError)
  | upload (e : FileUploadError)
  | unreadableText (path : String)
  | unreadableInput
  | noCommand
  deriving DecidableEq, Repr

def ProgramError.message : ProgramError → String
  | .flagFile e => e.message
  | .upload e => e.message
  | .unreadableText path => "Failed to read " ++ path
  | .unreadableInput => "Failed to read stdin"
  | .noCommand => "no command given; see --help"

/-- What a run shows. -/
inductive Reply where
  | nothing
  | report (r : Report)
  | upload (u : Upload)
  | notice (n : Notice)
  deriving DecidableEq, Repr

/-- The output for a reply, with a way to write the moment at which a cookie expires. -/
def Reply.text (date : Moment → String) : Reply → String
  | .nothing => ""
  | .report r => r.toJson.indented ++ "\n"
  | .upload u => u.toJson.compact ++ "\n"
  | .notice n =>
    n.message ++ "\nSet-Cookie: " ++ n.cookie.headerWith (date n.cookie.expires) ++ "\n"

namespace Program

variable {m : Type → Type} [Monad m] (host : Host m)

/-- The text of a file, or of the standard input. -/
def readText (file : Option String) : ExceptT ProgramError m String := do
  let (bytes, failure) ← match file with
    | some path =>
      match ← host.storage.read path with
      | .content bytes => pure (bytes, ProgramError.unreadableText path)
      | _ => throw (.unreadableText path)
    | none => pure (← host.input, .unreadableInput)
  match Utf8.decode? bytes with
  | some text => return String.ofList text
  | none => throw failure

/-- The settings of the consent notice under some flags. -/
def consentNotice (flags : Flags) : ConsentNotice :=
  let usual : ConsentNotice := default
  { usual with
    cookie := flags.consentCookie.getD usual.cookie
    days := flags.consentDays.getD usual.days }

/-- Carries out a command under some flags. -/
def carryOut (flags : Flags) : Command → ExceptT ProgramError m Reply
  | .format style selection file => do
    let text ← readText host file
    return .report (.ofToggle text selection (toggle text selection style.delimiters))
  | .resource file => do
    return .upload (← (Upload.ofFile host.storage file).adapt .upload)
  | .consent header => do
    match (consentNotice flags).check header (← host.now) with
    | some notice => return .notice notice
    | none => return .nothing

/-- Runs the program. -/
def run (invocation : Invocation) : ExceptT ProgramError m Reply := do
  let globalPath := FlagFile.globalPath (← host.setting "XDG_CONFIG_HOME") (← host.setting "HOME")
  let flags ← (FlagFile.resolve host.storage globalPath FlagFile.localPath invocation.flags
    invocation.saving invocation.clearing).adapt .flagFile
  match invocation.command with
  | some command => carryOut host flags command
  | none => if invocation.saving ∨ invocation.clearing then return .nothing else throw .noCommand

end Program

end DraftDesk
