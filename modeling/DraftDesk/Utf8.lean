/-!
# UTF-8

Texts as bytes. Bytes that form no text are read part by part: a part is a character or the
longest ill-formed beginning of one, which counts as one part however long it is. `decode?`
refuses ill-formed parts and `decodeLossy` puts the replacement character in the place of each.
-/

namespace DraftDesk.Utf8

/-- The bytes of a text. -/
def encode (cs : List Char) : List UInt8 := cs.flatMap String.utf8EncodeChar

/-- Inside a character: the bounds of the next byte, the number of bytes after it, and the bits
read so far. -/
structure Partial where
  low : Nat
  high : Nat
  more : Nat
  bits : Nat
  deriving DecidableEq, Repr

/-- The state after the first byte of a character of two or more bytes. -/
def lead? (b : Nat) : Option Partial :=
  if b < 0xC2 then none
  else if b < 0xE0 then some ⟨0x80, 0xBF, 0, b - 0xC0⟩
  else if b = 0xE0 then some ⟨0xA0, 0xBF, 1, 0⟩
  else if b = 0xED then some ⟨0x80, 0x9F, 1, 0xD⟩
  else if b < 0xF0 then some ⟨0x80, 0xBF, 1, b - 0xE0⟩
  else if b = 0xF0 then some ⟨0x90, 0xBF, 2, 0⟩
  else if b < 0xF4 then some ⟨0x80, 0xBF, 2, b - 0xF0⟩
  else if b = 0xF4 then some ⟨0x80, 0x8F, 2, 4⟩
  else none

/-- The parts of some bytes, `none` for an ill-formed one, from the start of a character or
inside one. -/
def parts : Option Partial → List UInt8 → List (Option Char)
  | none, [] => []
  | some _, [] => [none]
  | state, byte :: bytes =>
    let b := byte.toNat
    let first (broken : List (Option Char)) : List (Option Char) :=
      if b < 0x80 then broken ++ some (Char.ofNat b) :: parts none bytes
      else match lead? b with
        | some inside => broken ++ parts (some inside) bytes
        | none => broken ++ none :: parts none bytes
    match state with
    | none => first []
    | some inside =>
      if inside.low ≤ b ∧ b ≤ inside.high then
        let bits := inside.bits * 64 + b % 64
        match inside.more with
        | 0 => some (Char.ofNat bits) :: parts none bytes
        | more + 1 => parts (some ⟨0x80, 0xBF, more, bits⟩) bytes
      else first [none]

/-- The text that some bytes form, if they form one. -/
def decode? (bytes : List UInt8) : Option (List Char) := (parts none bytes).mapM id

/-- The text of some bytes, with the replacement character for each ill-formed part. -/
def decodeLossy (bytes : List UInt8) : List Char :=
  (parts none bytes).map (·.getD '\uFFFD')

end DraftDesk.Utf8
