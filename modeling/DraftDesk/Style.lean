/-!
# Styles

A pair of delimiters marks up a part of a text. The four styles of the toolbar each have a name
and a pair.
-/

namespace DraftDesk

/-- What stands before and after a marked part of a text. -/
structure Delimiters where
  opening : String
  closing : String
  deriving DecidableEq, Repr, Inhabited

/-- The same marker on both sides. -/
def Delimiters.symmetric (marker : String) : Delimiters := ⟨marker, marker⟩

/-- A formatting style of the toolbar. -/
inductive Style where
  | bold
  | emphasis
  | underline
  | strikethrough
  deriving DecidableEq, Repr, Inhabited

namespace Style

/-- All styles, in the order of the toolbar. -/
def all : List Style := [.bold, .emphasis, .underline, .strikethrough]

def name : Style → String
  | .bold => "bold"
  | .emphasis => "emphasis"
  | .underline => "underline"
  | .strikethrough => "strikethrough"

def delimiters : Style → Delimiters
  | .bold => .symmetric "**"
  | .emphasis => .symmetric "_"
  | .underline => ⟨"<u>", "</u>"⟩
  | .strikethrough => .symmetric "~~"

end Style

end DraftDesk
