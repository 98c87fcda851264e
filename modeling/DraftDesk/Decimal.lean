/-!
# Decimal numbers

Numbers as decimal digits, and the signed and unsigned spellings that are read back. Leading
zeros are read; blanks and separators are not.
-/

namespace DraftDesk.Decimal

/-- The digits of a number, without leading zeros. -/
def digits (n : Nat) : List Char := Nat.toDigits 10 n

/-- The digits of a number as a text. -/
def text (n : Nat) : String := String.ofList (digits n)

/-- The digits of a number after a minus sign where it is negative. -/
def ofInt : Int → List Char
  | .ofNat n => digits n
  | .negSucc n => '-' :: digits (n + 1)

/-- The digits of a number, with zeros in front up to a width. -/
def padded (columns n : Nat) : List Char :=
  List.replicate (columns - (digits n).length) '0' ++ digits n

/-- The number that some digits spell. -/
def value (cs : List Char) : Nat := Nat.ofDigitChars 10 cs 0

/-- Reads at least one digit and nothing else. -/
def nat? (cs : List Char) : Option Nat :=
  if cs ≠ [] ∧ cs.all Char.isDigit then some (value cs) else none

/-- Reads digits after an optional plus sign. -/
def unsigned? : List Char → Option Nat
  | '+' :: cs => nat? cs
  | cs => nat? cs

/-- Reads digits after an optional sign. -/
def signed? : List Char → Option Int
  | '-' :: cs => (nat? cs).map fun n => -(n : Int)
  | cs => (unsigned? cs).map Int.ofNat

@[simp] theorem value_digits (n : Nat) : value (digits n) = n :=
  Nat.ofDigitChars_ten_toDigits

theorem isDigit_of_mem_digits {n : Nat} {c : Char} (h : c ∈ digits n) : c.isDigit = true :=
  Nat.isDigit_of_mem_toDigits (by decide) (by decide) h

theorem digits_ne_nil (n : Nat) : digits n ≠ [] := Nat.toDigits_ne_nil

/-- Written digits are read back. -/
@[simp] theorem nat?_digits (n : Nat) : nat? (digits n) = some n := by
  have all : (digits n).all Char.isDigit = true := by
    simpa [List.all_eq_true] using fun c h => isDigit_of_mem_digits (c := c) h
  simp [nat?, digits_ne_nil, all]

/-- Zeros in front do not change a number. -/
@[simp] theorem nat?_padded (columns n : Nat) : nat? (padded columns n) = some n := by
  have full : padded columns n ≠ [] := by simp [padded, digits_ne_nil]
  have all : (padded columns n).all Char.isDigit = true := by
    rw [padded, List.all_append, Bool.and_eq_true, List.all_eq_true, List.all_eq_true]
    exact ⟨fun c zero => by rw [List.eq_of_mem_replicate zero]; rfl,
      fun c digit => isDigit_of_mem_digits digit⟩
  have same : value (padded columns n) = n := by
    rw [padded, value, Nat.ofDigitChars_append, Nat.ofDigitChars_replicate_zero]
    exact value_digits n
  simp [nat?, full, all, same]

theorem isDigit_of_nat? {cs : List Char} {n : Nat} (h : nat? cs = some n) :
    ∀ c ∈ cs, c.isDigit = true := by
  unfold nat? at h
  split at h
  case isTrue digits => exact List.all_eq_true.1 digits.2
  case isFalse => contradiction

/-- Digits are read the same where a sign could stand in front. -/
theorem signed?_of_nat? {cs : List Char} {n : Nat} (h : nat? cs = some n) :
    signed? cs = some (n : Int) := by
  have digit := isDigit_of_nat? h
  unfold signed?
  split
  · exact absurd (digit '-' (List.mem_cons_self ..)) (by decide)
  · unfold unsigned?
    split
    · exact absurd (digit '+' (List.mem_cons_self ..)) (by decide)
    · rw [h]
      rfl

/-- A number that is written is read back, also where it is negative. -/
@[simp] theorem signed?_ofInt (n : Int) : signed? (ofInt n) = some n := by
  cases n with
  | ofNat n => exact signed?_of_nat? (nat?_digits n)
  | negSucc n => simp [ofInt, signed?, Int.negSucc_eq]

end DraftDesk.Decimal
