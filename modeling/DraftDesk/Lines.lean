/-!
# Lines

A text falls into lines. LF, CR and CR LF end a line and are no part of its content; vertical
tab, form feed, next line, line separator and paragraph separator end a line as well and stay in
it as its last character. There is always a last line, which may be empty.
-/

namespace DraftDesk

/-- What stands between the content of a line and the next line. -/
inductive Ending where
  | absent
  | lf
  | cr
  | crlf
  deriving DecidableEq, Repr, Inhabited

def Ending.chars : Ending → List Char
  | .absent => []
  | .lf => ['\n']
  | .cr => ['\r']
  | .crlf => ['\r', '\n']

structure Line where
  content : List Char
  ending : Ending
  deriving DecidableEq, Repr, Inhabited

namespace Line

/-- The line as it stands in the text. -/
def chars (l : Line) : List Char := l.content ++ l.ending.chars

/-- The characters that end a line and stay in it. -/
def isKeptBreak (c : Char) : Bool :=
  c == '\x0b' || c == '\x0c' || c == '\u0085' || c == '\u2028' || c == '\u2029'

/-- Puts a character in front of the first line. -/
def push (c : Char) : List Line → List Line
  | [] => [⟨[c], .absent⟩]
  | l :: ls => ⟨c :: l.content, l.ending⟩ :: ls

/-- The lines of a text. -/
def split : List Char → List Line
  | [] => [⟨[], .absent⟩]
  | '\r' :: '\n' :: cs => ⟨[], .crlf⟩ :: split cs
  | '\n' :: cs => ⟨[], .lf⟩ :: split cs
  | '\r' :: cs => ⟨[], .cr⟩ :: split cs
  | c :: cs => if isKeptBreak c then ⟨[c], .absent⟩ :: split cs else push c (split cs)

theorem flatMap_chars_push (c : Char) (ls : List Line) :
    (push c ls).flatMap chars = c :: ls.flatMap chars := by
  cases ls <;> simp [push, chars, Ending.chars]

/-- The lines make up the text. -/
@[simp] theorem flatMap_chars_split (cs : List Char) : (split cs).flatMap chars = cs := by
  fun_induction split cs <;> simp_all [chars, Ending.chars, flatMap_chars_push]

end Line

end DraftDesk
