import DraftDesk.Program
import Std.Time.DateTime.Timestamp

/-!
# The executable

Connects the program to the machine: its files, its standard input and output, its clock and its
environment.
-/

namespace DraftDesk.Main

/-- Whether an action ends without an error. -/
def succeeds (action : IO Unit) : IO Bool := do
  match ← action.toBaseIO with
  | .ok () => return true
  | .error _ => return false

/-- Whether an error says that there is nothing at a path; code 20 means that a file stands where
the path goes through a directory. -/
def isAbsence : IO.Error → Bool
  | .noFileOrDirectory .. => true
  | .inappropriateType _ code _ => code == 20 || code == -20
  | _ => false

def readFile (path : String) : IO Reading := do
  match ← (IO.FS.readBinFile path).toBaseIO with
  | .ok bytes => return .content bytes.toList
  | .error e => return if isAbsence e then .absent else .unreadable

def removeFile (path : String) : IO Bool := do
  match ← (IO.FS.removeFile path).toBaseIO with
  | .ok () => return true
  | .error e => return isAbsence e

/-- The files of the machine. -/
def storage : Storage IO where
  read := readFile
  write path bytes := succeeds (IO.FS.writeBinFile path ⟨bytes.toArray⟩)
  remove := removeFile
  makeDirectory path := if path = "" then pure true else succeeds (IO.FS.createDirAll path)

def host : Host IO where
  storage
  input := do return (← (← IO.getStdin).readBinToEnd).toList
  now := do
    let second := (← Std.Time.Timestamp.now).toSecondsSinceUnixEpoch.val
    return ⟨second, false⟩
  setting name := IO.getEnv name

end DraftDesk.Main

def main (arguments : List String) : IO UInt32 := do
  match DraftDesk.CommandLine.parse arguments with
  | .error refusal =>
    if refusal = .usage then IO.eprint refusal.text else IO.print refusal.text
    return refusal.code.toUInt32
  | .ok invocation =>
    match ← DraftDesk.Program.run DraftDesk.Main.host invocation with
    | .ok reply =>
      IO.print (reply.text DraftDesk.Moment.httpDate)
      return 0
    | .error e =>
      IO.eprintln ("Error: " ++ e.message)
      return 1
