/-!
# Hexadecimal digits

Numbers below 16 as digits. Digits are written in lower or in upper case and read in either.
-/

namespace DraftDesk.Hexadecimal

/-- The digit for a number below 16, in lower case. -/
def lower (n : Nat) : Char := if n < 10 then Char.ofNat (48 + n) else Char.ofNat (87 + n)

/-- The digit for a number below 16, in upper case. -/
def upper (n : Nat) : Char := if n < 10 then Char.ofNat (48 + n) else Char.ofNat (55 + n)

/-- The number that the digit with a code stands for. -/
def value? (code : Nat) : Option Nat :=
  if 48 ≤ code ∧ code ≤ 57 then some (code - 48)
  else if 65 ≤ code ∧ code ≤ 70 then some (code - 55)
  else if 97 ≤ code ∧ code ≤ 102 then some (code - 87)
  else none

@[simp] theorem value?_lower {n : Nat} (h : n < 16) : value? (lower n).toNat = some n := by
  revert n
  decide

@[simp] theorem value?_upper {n : Nat} (h : n < 16) : value? (upper n).toNat = some n := by
  revert n
  decide

end DraftDesk.Hexadecimal
