/-!
# Base64

Three bytes are written as four characters of six bits each. A last group of one or two bytes is
filled up with `=`.
-/

namespace DraftDesk.Base64

/-- The character for six bits. -/
def sextet (n : Nat) : Char :=
  if n < 26 then Char.ofNat (65 + n)
  else if n < 52 then Char.ofNat (71 + n)
  else if n < 62 then Char.ofNat (n - 4)
  else if n = 62 then '+' else '/'

def encode : List UInt8 → List Char
  | [] => []
  | [a] =>
    let a := a.toNat
    [sextet (a / 4), sextet (a % 4 * 16), '=', '=']
  | [a, b] =>
    let a := a.toNat
    let b := b.toNat
    [sextet (a / 4), sextet (a % 4 * 16 + b / 16), sextet (b % 16 * 4), '=']
  | a :: b :: c :: rest =>
    let a := a.toNat
    let b := b.toNat
    let c := c.toNat
    sextet (a / 4) :: sextet (a % 4 * 16 + b / 16) :: sextet (b % 16 * 4 + c / 64) ::
      sextet (c % 64) :: encode rest

/-- The number of bytes that some data stands for: three for each four of its own, less one for
each `=` at the end. -/
def decodedLength (data : String) : Nat :=
  data.utf8ByteSize / 4 * 3 - (data.toList.reverse.takeWhile (· == '=')).length

end DraftDesk.Base64
