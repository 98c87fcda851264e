import DraftDesk.Json
import DraftDesk.Pieces

/-!
# Reading JSON

A text is read token by token. The brackets that are still open are kept in a list of frames, so
no nesting is too deep, and a value is finished when the list is empty and nothing but white
space follows.
-/

namespace DraftDesk.Json

/-! ## Strings -/

/-- A part of a string as it is written: a character, or a UTF-16 unit given by its number. -/
inductive Piece where
  | char (c : Char)
  | unit (u : Nat)
  deriving DecidableEq, Repr

/-- The unit that four hexadecimal digits name. -/
def unit? (a b c d : Char) : Option Nat :=
  [a, b, c, d].foldlM (fun u digit => (Hexadecimal.value? digit.toNat).map (16 * u + ·)) 0

/-- The character that a one-letter escape stands for. -/
def unescape? : Char → Option Char
  | '"' => some '"'
  | '\\' => some '\\'
  | '/' => some '/'
  | 'b' => some '\x08'
  | 'f' => some '\x0c'
  | 'n' => some '\n'
  | 'r' => some '\r'
  | 't' => some '\t'
  | _ => none

/-- The pieces of a string up to its closing quote, and what follows the quote. -/
def pieces? : List Char → Option (List Piece × List Char)
  | [] => none
  | '"' :: rest => some ([], rest)
  | '\\' :: 'u' :: a :: b :: c :: d :: rest =>
    match unit? a b c d, pieces? rest with
    | some u, some (ps, rest) => some (.unit u :: ps, rest)
    | _, _ => none
  | '\\' :: e :: rest =>
    match unescape? e, pieces? rest with
    | some c, some (ps, rest) => some (.char c :: ps, rest)
    | _, _ => none
  | c :: rest =>
    if c.toNat < 0x20 ∨ c = '\\' then none
    else match pieces? rest with
      | some (ps, rest) => some (.char c :: ps, rest)
      | none => none

/-- The text of some pieces; two halves of a pair make one character, one alone makes none. -/
def join? : List Piece → Option (List Char)
  | [] => some []
  | .char c :: ps => (join? ps).map (c :: ·)
  | .unit u :: ps =>
    if 0xD800 ≤ u ∧ u < 0xDC00 then
      match ps with
      | .unit v :: ps =>
        if 0xDC00 ≤ v ∧ v < 0xE000 then
          (join? ps).map (Char.ofNat (0x10000 + (u - 0xD800) * 0x400 + (v - 0xDC00)) :: ·)
        else none
      | _ => none
    else if 0xDC00 ≤ u ∧ u < 0xE000 then none
    else (join? ps).map (Char.ofNat u :: ·)

/-! ## Numbers -/

/-- The fraction that a text begins with, which may be empty, and what follows it. -/
def fraction? : List Char → Option (List Char × List Char)
  | '.' :: cs =>
    let digits := cs.takeWhile Char.isDigit
    if digits = [] then none else some ('.' :: digits, cs.dropWhile Char.isDigit)
  | cs => some ([], cs)

/-- The exponent that a text begins with, which may be empty, and what follows it. -/
def exponent? : List Char → Option (List Char × List Char)
  | [] => some ([], [])
  | e :: cs =>
    if e = 'e' ∨ e = 'E' then
      let (sign, cs) := match cs with
        | '+' :: cs => (['+'], cs)
        | '-' :: cs => (['-'], cs)
        | cs => ([], cs)
      let digits := cs.takeWhile Char.isDigit
      if digits = [] then none else some (e :: sign ++ digits, cs.dropWhile Char.isDigit)
    else some ([], e :: cs)

/-- Reads a number without its sign. -/
def magnitude? (negative : Bool) (cs : List Char) : Option (Json × List Char) :=
  let whole := cs.takeWhile Char.isDigit
  if whole = [] ∨ (whole.head? = some '0' ∧ whole ≠ ['0']) then none
  else do
    let (fraction, rest) ← fraction? (cs.dropWhile Char.isDigit)
    let (exponent, rest) ← exponent? rest
    let sign := if negative then ['-'] else []
    let number :=
      if fraction = [] ∧ exponent = [] ∧ ¬ (negative = true ∧ whole = ['0']) then
        let n : Int := Decimal.value whole
        Json.integer (if negative then -n else n)
      else .decimal (String.ofList (sign ++ whole ++ fraction ++ exponent))
    return (number, rest)

/-! ## Tokens -/

inductive Token where
  | openArray
  | closeArray
  | openObject
  | closeObject
  | comma
  | colon
  /-- A value without brackets. -/
  | scalar (value : Json)
  deriving Repr

/-- White space between tokens. -/
def isBlank (c : Char) : Bool := c == ' ' || c == '\n' || c == '\r' || c == '\t'

/-- The token that a text without leading white space begins with. -/
def token? : List Char → Option (Token × List Char)
  | [] => none
  | '[' :: cs => some (.openArray, cs)
  | ']' :: cs => some (.closeArray, cs)
  | '{' :: cs => some (.openObject, cs)
  | '}' :: cs => some (.closeObject, cs)
  | ',' :: cs => some (.comma, cs)
  | ':' :: cs => some (.colon, cs)
  | '"' :: cs => (pieces? cs).map fun (ps, rest) =>
      (.scalar (.string ((join? ps).map String.ofList)), rest)
  | 'n' :: cs => (Pieces.after? "ull".toList cs).map fun rest => (.scalar .null, rest)
  | 't' :: cs => (Pieces.after? "rue".toList cs).map fun rest => (.scalar (.bool true), rest)
  | 'f' :: cs => (Pieces.after? "alse".toList cs).map fun rest => (.scalar (.bool false), rest)
  | '-' :: cs => (magnitude? true cs).map fun (n, rest) => (.scalar n, rest)
  | cs => (magnitude? false cs).map fun (n, rest) => (.scalar n, rest)

/-! ## A token shortens the text -/

theorem length_pieces? {cs : List Char} {ps : List Piece} {rest : List Char}
    (h : pieces? cs = some (ps, rest)) : rest.length < cs.length := by
  fun_induction pieces? cs generalizing ps rest with
  | case1 | case4 | case6 | case7 | case9 => simp at h
  | case2 =>
    obtain ⟨-, rfl⟩ := Prod.mk.inj (Option.some.inj h)
    simp
  | case3 _ _ _ _ _ _ _ _ found _ ih
  | case5 _ _ _ _ _ _ found _ ih
  | case8 _ _ _ _ _ _ _ _ found ih =>
    obtain ⟨-, rfl⟩ := Prod.mk.inj (Option.some.inj h)
    have shorter := ih found
    simp only [List.length_cons]
    omega

theorem length_dropWhile_le (p : Char → Bool) (cs : List Char) :
    (cs.dropWhile p).length ≤ cs.length := (List.dropWhile_sublist p).length_le

theorem length_fraction? {cs written rest : List Char} (h : fraction? cs = some (written, rest)) :
    rest.length ≤ cs.length := by
  unfold fraction? at h
  split at h
  · rename_i ds
    have shorter := length_dropWhile_le Char.isDigit ds
    simp only [Option.ite_none_left_eq_some, Option.some.injEq, Prod.mk.injEq] at h
    obtain ⟨-, -, rfl⟩ := h
    simp only [List.length_cons]
    omega
  · obtain ⟨-, rfl⟩ := Prod.mk.inj (Option.some.inj h)
    exact Nat.le_refl _

theorem length_exponent? {cs written rest : List Char} (h : exponent? cs = some (written, rest)) :
    rest.length ≤ cs.length := by
  unfold exponent? at h
  split at h
  · obtain ⟨-, rfl⟩ := Prod.mk.inj (Option.some.inj h)
    exact Nat.le_refl _
  · split at h
    · simp only [Option.ite_none_left_eq_some, Option.some.injEq, Prod.mk.injEq] at h
      obtain ⟨-, -, rfl⟩ := h
      split <;> exact Nat.le_trans (length_dropWhile_le ..) (by simp only [List.length_cons]; omega)
    · obtain ⟨-, rfl⟩ := Prod.mk.inj (Option.some.inj h)
      exact Nat.le_refl _

theorem length_magnitude? {negative : Bool} {cs rest : List Char} {n : Json}
    (h : magnitude? negative cs = some (n, rest)) : rest.length < cs.length := by
  have parts :
      (cs.takeWhile Char.isDigit).length + (cs.dropWhile Char.isDigit).length = cs.length := by
    rw [← List.length_append, List.takeWhile_append_dropWhile]
  unfold magnitude? at h
  simp only [Option.bind_eq_bind, Option.bind_eq_some_iff, Prod.exists, Option.pure_def,
    Option.ite_none_left_eq_some, Option.some.injEq, Prod.mk.injEq] at h
  obtain ⟨whole, written, rest₁, hf, written', rest₂, he, -, rfl⟩ := h
  have first := length_fraction? hf
  have second := length_exponent? he
  have pos : 0 < (cs.takeWhile Char.isDigit).length :=
    List.length_pos_iff.2 fun empty => whole (.inl empty)
  omega

theorem length_token? {cs rest : List Char} {t : Token} (h : token? cs = some (t, rest)) :
    rest.length < cs.length := by
  unfold token? at h
  split at h <;>
    simp only [Option.map_eq_some_iff, Prod.exists, Option.some.injEq, Prod.mk.injEq,
      reduceCtorEq] at h
  all_goals grind [→ length_pieces?, → Pieces.length_after?, → length_magnitude?]

/-! ## Values -/

/-- A bracket that is still open, with what stands in it so far, latest first. -/
inductive Frame where
  | array (items : List Json)
  | object (members : List (Option String × Json))
  /-- A member of the object below whose value is still to come. -/
  | member (key : Option String)
  deriving Repr

/-- What may come next. -/
inductive Expect where
  | value
  /-- A value, or the end of the array that has just begun. -/
  | firstItem
  | key
  /-- A key, or the end of the object that has just begun. -/
  | firstKey
  | colon
  /-- A comma, or the end of the innermost bracket. -/
  | next
  deriving DecidableEq, Repr

/-- How far a text has been read. -/
inductive Progress where
  | reading (frames : List Frame) (expect : Expect)
  | done (value : Json)
  deriving Repr

/-- Puts a finished value into the innermost frame. -/
def finish (value : Json) : List Frame → Option Progress
  | [] => some (.done value)
  | .array items :: frames => some (.reading (.array (value :: items) :: frames) .next)
  | .member key :: .object members :: frames =>
    some (.reading (.object ((key, value) :: members) :: frames) .next)
  | _ => none

/-- Reads one token. -/
def Progress.step : Progress → Token → Option Progress
  | .done _, _ => none
  | .reading frames expect, token =>
    match expect, token, frames with
    | .value, .scalar v, frames | .firstItem, .scalar v, frames => finish v frames
    | .value, .openArray, frames | .firstItem, .openArray, frames =>
      some (.reading (.array [] :: frames) .firstItem)
    | .value, .openObject, frames | .firstItem, .openObject, frames =>
      some (.reading (.object [] :: frames) .firstKey)
    | .firstItem, .closeArray, .array items :: frames
    | .next, .closeArray, .array items :: frames => finish (.array items.reverse) frames
    | .next, .comma, .array items :: frames => some (.reading (.array items :: frames) .value)
    | .firstKey, .scalar (.string key), frames | .key, .scalar (.string key), frames =>
      some (.reading (.member key :: frames) .colon)
    | .firstKey, .closeObject, .object members :: frames
    | .next, .closeObject, .object members :: frames => finish (.object members.reverse) frames
    | .next, .comma, .object members :: frames => some (.reading (.object members :: frames) .key)
    | .colon, .colon, frames => some (.reading frames .value)
    | _, _, _ => none

/-- Reads the rest of a text. -/
def Progress.run (progress : Progress) (cs : List Char) : Option Json :=
  match _found : token? (cs.dropWhile isBlank) with
  | some (token, rest) =>
    match progress.step token with
    | some progress => progress.run rest
    | none => none
  | none =>
    match progress, cs.dropWhile isBlank with
    | .done value, [] => some value
    | _, _ => none
termination_by cs.length
decreasing_by
  have shorter := length_token? ‹token? _ = some _›
  have blanks := length_dropWhile_le isBlank cs
  omega

/-- The value that a text holds, if it is well-formed. -/
def read? (cs : List Char) : Option Json := Progress.run (.reading [] .value) cs

end DraftDesk.Json
