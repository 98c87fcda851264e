import DraftDesk.Decimal
import DraftDesk.Pieces

/-!
# Flags

The flags that the command line and the flag files have in common, and how they are read from a
list of tokens. A flag with a value takes it from its own token, after an equals sign, or else
from the next token, whatever that is. Tokens that are no flag are skipped.
-/

namespace DraftDesk

structure Flags where
  debug : Bool
  consentCookie : Option String
  /-- The lifetime of the consent cookie. -/
  consentDays : Option Int
  deriving DecidableEq, Repr

namespace Flags

/-- No flag at all. -/
def empty : Flags := ⟨false, none, none⟩

instance : Inhabited Flags := ⟨empty⟩

/-- Both flags together; where both have a value, that of the second counts. -/
def union (a b : Flags) : Flags where
  debug := a.debug || b.debug
  consentCookie := b.consentCookie <|> a.consentCookie
  consentDays := b.consentDays <|> a.consentDays

@[simp] theorem empty_union (f : Flags) : empty.union f = f := by
  obtain ⟨debug, cookie, days⟩ := f
  cases cookie <;> cases days <;> simp [empty, union]

@[simp] theorem union_empty (f : Flags) : f.union empty = f := by
  obtain ⟨debug, cookie, days⟩ := f
  simp [empty, union]

/-- The longest lifetime that is accepted. -/
def maxConsentDays : Int := 36500

/-- A lifetime, if it is a whole number of days that is accepted. -/
def days? (text : String) : Option Int :=
  (Decimal.signed? text.toList).filter fun days => 0 ≤ days ∧ days ≤ maxConsentDays

end Flags

/-! ## Tokens -/

/-- A flag that takes a value. -/
inductive ValuedFlag where
  | consentCookie
  | consentDays
  deriving DecidableEq, Repr

/-- One flag as it is read. -/
inductive FlagItem where
  | debug
  | valued (flag : ValuedFlag) (value : String)
  deriving DecidableEq, Repr

/-- What a single token is. -/
inductive FlagToken where
  | debug
  /-- A flag, with its value if the token has one. -/
  | valued (flag : ValuedFlag) (value : Option String)
  | other
  deriving DecidableEq, Repr

namespace FlagToken

/-- The name and the value that a token has at an equals sign. -/
def parts (token : String) : String × Option String :=
  let (name, value) := Pieces.cut (· == '=') token.toList
  (String.ofList name, value.map String.ofList)

def ofString (token : String) : FlagToken :=
  if token = "--debug" then .debug
  else match parts token with
    | ("--consent-cookie", value) => .valued .consentCookie value
    | ("--consent-days", value) => .valued .consentDays value
    | _ => .other

end FlagToken

namespace Flags

/-- The flags of a list of tokens, in order. A last flag without its value is not one. -/
def items : List String → List FlagItem
  | [] => []
  | token :: tokens =>
    match FlagToken.ofString token with
    | .debug => .debug :: items tokens
    | .valued flag (some value) => .valued flag value :: items tokens
    | .valued flag _ =>
      match tokens with
      | value :: tokens => .valued flag value :: items tokens
      | [] => []
    | .other => items tokens

/-- Reads one more flag. A lifetime that is not accepted takes away an earlier one. -/
def read (flags : Flags) : FlagItem → Flags
  | .debug => { flags with debug := true }
  | .valued .consentCookie value => { flags with consentCookie := some value }
  | .valued .consentDays value => { flags with consentDays := days? value }

/-- The flags that a list of tokens sets. -/
def ofTokens (tokens : List String) : Flags := (items tokens).foldl read empty

end Flags

end DraftDesk
