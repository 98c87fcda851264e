import DraftDesk.Hexadecimal

/-!
# Percent coding

Bytes as characters that are safe in a path: letters, digits and `-_.~` stand for themselves, any
other byte is a percent sign and two hexadecimal digits. In reading, a percent sign that is not
followed by two hexadecimal digits stands for itself.
-/

namespace DraftDesk.PercentCoding

/-- Whether a byte stands for itself. -/
def isUnreserved (b : UInt8) : Bool :=
  let n := b.toNat
  (48 ≤ n && n ≤ 57) || (65 ≤ n && n ≤ 90) || (97 ≤ n && n ≤ 122) ||
    n == 45 || n == 95 || n == 46 || n == 126

def encodeByte (b : UInt8) : List Char :=
  if isUnreserved b then [Char.ofNat b.toNat]
  else ['%', Hexadecimal.upper (b.toNat / 16), Hexadecimal.upper (b.toNat % 16)]

def encode (bytes : List UInt8) : List Char := bytes.flatMap encodeByte

/-- Puts each coded byte in place of its three. -/
def decode : List UInt8 → List UInt8
  | [] => []
  | 37 :: high :: low :: rest =>
    match Hexadecimal.value? high.toNat, Hexadecimal.value? low.toNat with
    | some h, some l => UInt8.ofNat (16 * h + l) :: decode rest
    | _, _ => 37 :: decode (high :: low :: rest)
  | b :: rest => b :: decode rest

end DraftDesk.PercentCoding
