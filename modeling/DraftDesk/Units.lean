/-!
# UTF-16 units

Offsets into a text count UTF-16 code units: a character of the basic plane is one unit,
any other character is two. `total` measures a text. `fit n` is the longest beginning with at
most `n` units and `beyond n` is what follows it, so an offset between the two units of a
character falls back to the start of that character and an offset past the end to the end.
-/

namespace DraftDesk.Units

/-- The number of units of one character. -/
def width (c : Char) : Nat := if c.toNat < 0x10000 then 1 else 2

/-- The number of units of a text. -/
def total : List Char → Nat
  | [] => 0
  | c :: cs => width c + total cs

/-- The longest beginning of a text that has at most `n` units. -/
def fit : Nat → List Char → List Char
  | _, [] => []
  | n, c :: cs => if width c ≤ n then c :: fit (n - width c) cs else []

/-- What follows the longest beginning that has at most `n` units. -/
def beyond : Nat → List Char → List Char
  | _, [] => []
  | n, c :: cs => if width c ≤ n then beyond (n - width c) cs else c :: cs

/-- The number of bytes that come before an offset when the text is stored as UTF-8. -/
def byteOffset (text : String) (offset : Nat) : Nat :=
  (String.ofList (fit offset text.toList)).utf8ByteSize

/-! ## Measure and cut -/

theorem width_pos (c : Char) : 0 < width c := by
  unfold width; split <;> omega

@[simp] theorem total_nil : total [] = 0 := rfl

@[simp] theorem total_cons (c : Char) (cs : List Char) : total (c :: cs) = width c + total cs := rfl

@[simp] theorem total_append (xs ys : List Char) : total (xs ++ ys) = total xs + total ys := by
  induction xs with
  | nil => simp
  | cons c cs ih => simp [ih, Nat.add_assoc]

/-- A cut loses nothing. -/
@[simp] theorem fit_append_beyond (n : Nat) (cs : List Char) : fit n cs ++ beyond n cs = cs := by
  induction cs generalizing n with
  | nil => rfl
  | cons c cs ih =>
    by_cases h : width c ≤ n
    · simp [fit, beyond, h, ih]
    · simp [fit, beyond, h]

theorem total_fit_le (n : Nat) (cs : List Char) : total (fit n cs) ≤ n := by
  induction cs generalizing n with
  | nil => simp [fit]
  | cons c cs ih =>
    by_cases h : width c ≤ n
    · have rest := ih (n - width c)
      simp only [fit, h, if_true, total_cons]
      omega
    · simp [fit, h]

/-- No unit is left over for the next character. -/
theorem lt_total_fit_of_beyond {n : Nat} {c : Char} {cs rest : List Char}
    (h : beyond n cs = c :: rest) : n < total (fit n cs) + width c := by
  induction cs generalizing n with
  | nil => simp [beyond] at h
  | cons d ds ih =>
    by_cases fits : width d ≤ n
    · simp only [beyond, fits, if_true] at h
      have next := ih h
      simp only [fit, fits, if_true, total_cons]
      omega
    · simp only [beyond, fits, if_false, List.cons.injEq] at h
      simp only [fit, fits, if_false, total_nil, ← h.1]
      omega

/-- A cut at the measure of a beginning is a cut after that beginning. -/
theorem fit_total_add (xs ys : List Char) (n : Nat) :
    fit (total xs + n) (xs ++ ys) = xs ++ fit n ys := by
  induction xs with
  | nil => simp
  | cons c cs ih =>
    have fits : width c ≤ width c + total cs + n := by omega
    have left : width c + total cs + n - width c = total cs + n := by omega
    simp [fit, fits, left, ih]

theorem beyond_total_add (xs ys : List Char) (n : Nat) :
    beyond (total xs + n) (xs ++ ys) = beyond n ys := by
  induction xs with
  | nil => simp
  | cons c cs ih =>
    have fits : width c ≤ width c + total cs + n := by omega
    have left : width c + total cs + n - width c = total cs + n := by omega
    simp [beyond, fits, left, ih]

@[simp] theorem fit_zero (cs : List Char) : fit 0 cs = [] := by
  cases cs with
  | nil => rfl
  | cons c cs =>
    have pos := width_pos c
    have none : ¬ width c ≤ 0 := by omega
    simp [fit, none]

@[simp] theorem beyond_zero (cs : List Char) : beyond 0 cs = cs := by
  simpa using fit_append_beyond 0 cs

@[simp] theorem fit_total (xs ys : List Char) : fit (total xs) (xs ++ ys) = xs := by
  simpa using fit_total_add xs ys 0

@[simp] theorem beyond_total (xs ys : List Char) : beyond (total xs) (xs ++ ys) = ys := by
  simpa using beyond_total_add xs ys 0

end DraftDesk.Units
