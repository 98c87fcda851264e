import DraftDesk.PercentCoding
import DraftDesk.Pieces
import DraftDesk.Utf8

/-!
# Cookie headers

A header lists cookies as `name=value`, separated by semicolons and blanks. The header is
percent-decoded as a whole before it is cut into entries.
-/

namespace DraftDesk.CookieHeader

/-- The decoded text of a header. -/
def decoded (header : String) : List Char :=
  Utf8.decodeLossy (PercentCoding.decode (Utf8.encode header.toList))

/-- The entries of a decoded header, without the blanks before each. -/
def entries (text : List Char) : List (List Char) :=
  (Pieces.split (· == ';') text).map fun entry => entry.dropWhile (· == ' ')

/-- The value of the first cookie with a name, or the empty text. -/
def get (header name : String) : String :=
  let value? := (entries (decoded header)).findSome? (Pieces.after? (name.toList ++ ['=']))
  String.ofList (value?.getD [])

end DraftDesk.CookieHeader
