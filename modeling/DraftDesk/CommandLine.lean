import DraftDesk.Choice
import DraftDesk.Flags

/-!
# The command line

A command line gives options, then a command, then the options and words of that command. An
option stands as `--name`, or as `--name value` or `--name=value` if it takes a value; a value in
a word of its own does not begin with a dash, unless it is a dash alone. After `--` every word is
a plain word. An option stands once before the command and once after it at most, and there the
one after it counts.
-/

namespace DraftDesk

/-- Why a command line is not carried out. -/
inductive Refusal where
  /-- It does not follow the rules. -/
  | usage
  | help
  | version
  deriving DecidableEq, Repr

namespace Refusal

/-- The exit code of the program. -/
def code : Refusal → Nat
  | .usage => 2
  | .help | .version => 0

/-- What is shown instead of a result. -/
def text : Refusal → String
  | .usage => "unknown or incomplete command line; see --help\n"
  | .version => "markpen 0.3.2\n"
  | .help =>
    "Usage: markpen [OPTIONS] [COMMAND]\n\n" ++
    "Commands:\n" ++
    "  format STYLE --start N --end N [--direction DIRECTION] [FILE]\n" ++
    "  resource FILE\n" ++
    "  consent [--cookie HEADER]\n\n" ++
    "Options:\n" ++
    "  --debug, --consent-cookie NAME, --consent-days DAYS, --save, --clear\n"

end Refusal

/-! ## Options -/

/-- The options that may stand in one place. -/
structure Grammar where
  /-- Those without a value. -/
  switches : List String
  /-- Those with a value. -/
  valued : List String
  /-- Whether the version can be asked for. -/
  versioned : Bool

/-- An option as it was given. -/
structure Given where
  name : String
  /-- The value, empty for an option without one. -/
  value : String
  deriving DecidableEq, Repr

/-- The words of a command. -/
structure CommandWords where
  given : List Given
  plain : List String
  /-- What was asked for instead; the words after that are not read. -/
  request : Option Refusal

/-- Heeds a request, which counts only if nothing before it is wrong. -/
def CommandWords.heed (words : CommandWords) : Except Refusal Unit :=
  match words.request with
  | some request => .error request
  | none => .ok ()

/-- What a word with a dash is. -/
inductive DashWord where
  | complete (option : Given)
  /-- An option whose value is the next word. -/
  | awaiting (name : String)
  deriving DecidableEq, Repr

/-- Whether a word is neither an option nor the end of the options. -/
def isPlainWord (word : String) : Bool := word == "-" || word.toList.head? != some '-'

namespace Grammar

/-- What a word asks for instead of a command. -/
def request? (g : Grammar) (word : String) : Option Refusal :=
  let short := word.toList.take 2
  if word = "--help" ∨ short = ['-', 'h'] then some .help
  else if g.versioned ∧ (word = "--version" ∨ short = ['-', 'V']) then some .version
  else none

def dashWord (g : Grammar) (word : String) : Except Refusal DashWord :=
  match FlagToken.parts word with
  | (name, none) =>
    if name ∈ g.switches then .ok (.complete ⟨name, ""⟩)
    else if name ∈ g.valued then .ok (.awaiting name)
    else .error .usage
  | (name, some value) =>
    if name ∈ g.valued then .ok (.complete ⟨name, value⟩) else .error .usage

/-- Reads options up to the first word that is none. -/
def front (g : Grammar) : List String → Except Refusal (List Given × List String)
  | [] => .ok ([], [])
  | word :: words =>
    if isPlainWord word ∨ word = "--" ∨ (g.request? word).isSome then .ok ([], word :: words)
    else
      match g.dashWord word, words with
      | .error refusal, _ => .error refusal
      | .ok (.complete option), words =>
        (g.front words).map fun (options, rest) => (option :: options, rest)
      | .ok (.awaiting _), [] => .error .usage
      | .ok (.awaiting name), value :: words =>
        if isPlainWord value then
          (g.front words).map fun (options, rest) => (⟨name, value⟩ :: options, rest)
        else .error .usage

private theorem map_eq_ok_iff {ε α β : Type} {f : α → β} {e : Except ε α} {b : β} :
    e.map f = .ok b ↔ ∃ a, e = .ok a ∧ f a = b := by
  cases e <;> simp [Except.map]

theorem length_front {g : Grammar} {words rest : List String} {options : List Given}
    (h : g.front words = .ok (options, rest)) : rest.length ≤ words.length := by
  fun_induction g.front words generalizing options <;> grind [map_eq_ok_iff]

/-- Reads options and plain words in any order. -/
def whole (g : Grammar) (words : List String) : Except Refusal CommandWords :=
  match _found : g.front words with
  | .error refusal => .error refusal
  | .ok (given, []) => .ok ⟨given, [], none⟩
  | .ok (given, word :: rest) =>
    if word = "--" then .ok ⟨given, rest, none⟩
    else match g.request? word with
      | some request => .ok ⟨given, [], some request⟩
      | none =>
        (g.whole rest).map fun more => ⟨given ++ more.given, word :: more.plain, more.request⟩
termination_by words.length
decreasing_by
  have shorter := length_front ‹g.front words = _›
  simp only [List.length_cons] at shorter
  omega

end Grammar

/-- The options that were given in one place. -/
structure Options where
  given : List Given

namespace Options

/-- Refuses options that are given twice. -/
def ofGiven (given : List Given) : Except Refusal Options :=
  if (given.map Given.name).Nodup then .ok ⟨given⟩ else .error .usage

def value? (o : Options) (name : String) : Option String :=
  (o.given.find? fun option => option.name == name).map Given.value

def has (o : Options) (name : String) : Bool := (o.value? name).isSome

/-- The value of an option as a reader reads it. -/
def read? {α : Type} (o : Options) (name : String) (reader : String → Option α) :
    Except Refusal (Option α) :=
  match o.value? name with
  | none => .ok none
  | some text =>
    match reader text with
    | some a => .ok (some a)
    | none => .error .usage

/-- The flags among the options. -/
def flags (o : Options) : Except Refusal Flags := do
  return ⟨o.has "--debug", o.value? "--consent-cookie", ← o.read? "--consent-days" Flags.days?⟩

end Options

/-! ## Commands -/

inductive Command where
  /-- Toggle a style in a text from a file or else from the standard input. -/
  | format (style : Style) (selection : Selection) (file : Option String)
  /-- Show the upload of a file. -/
  | resource (file : String)
  /-- Show the consent notice for a cookie header if it is due. -/
  | consent (header : String)
  deriving DecidableEq, Repr

structure Invocation where
  flags : Flags
  /-- Whether the flags are to be kept. -/
  saving : Bool
  /-- Whether the kept flags are to be cleared. -/
  clearing : Bool
  command : Option Command
  deriving DecidableEq, Repr

namespace CommandLine

/-- The grammar of one place where the flags may stand. -/
def grammar (switches valued : List String) (versioned : Bool) : Grammar :=
  ⟨"--debug" :: switches, "--consent-cookie" :: "--consent-days" :: valued, versioned⟩

/-- Reads a number of at most 64 bits. -/
def size? (text : String) : Option Nat := (Decimal.unsigned? text.toList).filter (· < UInt64.size)

/-- The file that the plain words name; there is at most one. -/
def file? : List String → Except Refusal (Option String)
  | [] => .ok none
  | [file] => if file = "" then .error .usage else .ok (some file)
  | _ => .error .usage

/-- The style and the file that the plain words of a format command name. -/
def styled? : List String → Except Refusal (Option (Style × Option String))
  | [] => .ok none
  | name :: files =>
    match Style.ofName name false with
    | .ok style => (file? files).map fun file => some (style, file)
    | .error _ => .error .usage

/-- The flags and the command of a format command. -/
def format (words : List String) : Except Refusal (Flags × Command) := do
  let words ← (grammar [] ["--start", "--end", "--direction"] false).whole words
  let options ← Options.ofGiven words.given
  let flags ← options.flags
  let start ← options.read? "--start" size?
  let stop ← options.read? "--end" size?
  let direction ← options.read? "--direction" fun name => (Direction.ofName name false).toOption
  let styled ← styled? words.plain
  words.heed
  match start, stop, styled with
  | some start, some stop, some (style, file) =>
    return (flags, .format style (.between start stop (direction.getD .forward)) file)
  | _, _, _ => throw .usage

/-- The flags and the command of a resource command. -/
def resource (words : List String) : Except Refusal (Flags × Command) := do
  let words ← (grammar [] [] false).whole words
  let flags ← (← Options.ofGiven words.given).flags
  let file ← file? words.plain
  words.heed
  match file with
  | some file => return (flags, .resource file)
  | none => throw .usage

/-- The flags and the command of a consent command. -/
def consent (words : List String) : Except Refusal (Flags × Command) := do
  let words ← (grammar [] ["--cookie"] false).whole words
  let options ← Options.ofGiven words.given
  let flags ← options.flags
  if words.plain ≠ [] then throw .usage
  words.heed
  return (flags, .consent ((options.value? "--cookie").getD ""))

/-- The commands that the help tells about. -/
def topics : List String := ["format", "resource", "consent", "help"]

/-- What a command line asks for. -/
def parse (words : List String) : Except Refusal Invocation := do
  let main := grammar ["--save", "--clear"] [] true
  let (given, rest) ← main.front words
  let options ← Options.ofGiven given
  let flags ← options.flags
  let invocation (more : Flags) (command : Option Command) : Invocation :=
    ⟨flags.union more, options.has "--save", options.has "--clear", command⟩
  let named (reader : Except Refusal (Flags × Command)) : Except Refusal Invocation :=
    reader.map fun (more, command) => invocation more (some command)
  match rest with
  | [] | ["--"] => return invocation .empty none
  | "format" :: words => named (format words)
  | "resource" :: words => named (resource words)
  | "consent" :: words => named (consent words)
  | ["help"] => throw .help
  | ["help", topic] => throw (if topic ∈ topics then .help else .usage)
  | word :: _ => throw ((main.request? word).getD .usage)

end CommandLine

end DraftDesk
