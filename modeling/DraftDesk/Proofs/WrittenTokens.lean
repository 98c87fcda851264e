import DraftDesk.JsonReader

/-!
# Tokens as they are written

What the printer writes for a string, a number or a name is one token for the reader, whatever
follows it. Only a number could go on: the text behind it must not begin with a character that
belongs to a number (`NumberEnds`), which no printer lets happen.
-/

namespace DraftDesk

namespace Decimal

theorem eq_zero_of_head?_digits {n : Nat} (zero : (digits n).head? = some '0') : n = 0 := by
  induction n using Nat.strongRecOn with
  | ind n ih =>
    rw [digits, Nat.toDigits_eq_if (by decide)] at zero
    by_cases small : n < 10
    · have single : ∀ n < 10, Nat.digitChar n = '0' → n = 0 := by decide
      rw [if_pos small, List.head?_cons, Option.some.injEq] at zero
      exact single n small zero
    · rw [if_neg small, List.head?_append, Option.or_of_isSome] at zero
      · have front := ih (n / 10) (by omega) zero
        omega
      · simp

/-- The digits of a number begin with a zero only if there is nothing else. -/
theorem no_leading_zero (n : Nat) : ¬ ((digits n).head? = some '0' ∧ digits n ≠ ['0']) := by
  rintro ⟨zero, longer⟩
  rw [eq_zero_of_head?_digits zero] at longer
  exact longer (Nat.toDigits_zero 10)

end Decimal

namespace Json

/-! ## Strings -/

theorem unit?_control {n : Nat} (control : n < 0x20) :
    unit? '0' '0' (Hexadecimal.lower (n / 16)) (Hexadecimal.lower (n % 16)) = some n := by
  have high : Hexadecimal.value? (Hexadecimal.lower (n / 16)).toNat = some (n / 16) :=
    Hexadecimal.value?_lower (by omega)
  have low : Hexadecimal.value? (Hexadecimal.lower (n % 16)).toNat = some (n % 16) :=
    Hexadecimal.value?_lower (by omega)
  have zero : Hexadecimal.value? '0'.toNat = some 0 := by decide
  simp only [unit?, List.foldlM_cons, List.foldlM_nil, zero, high, low, Option.map_some,
    Option.bind_eq_bind, Option.bind_some, Option.pure_def]
  congr 1
  omega

/-- A piece stands for a character as it is written. -/
structure Spells (p : Piece) (c : Char) : Prop where
  pieces : ∀ rest, pieces? (escape c ++ rest) =
    (pieces? rest).map fun (ps, rest) => (p :: ps, rest)
  join : ∀ ps, join? (p :: ps) = (join? ps).map (c :: ·)

theorem spells_short {c : Char} (e : Char) (written : escape c = ['\\', e])
    (short : unescape? e = some c) : Spells (.char c) c := by
  have other : e ≠ 'u' := by
    rintro rfl
    exact absurd short (by simp [unescape?])
  refine ⟨?_, fun _ => rfl⟩
  intro rest
  rw [written, List.cons_append, List.singleton_append, pieces?.eq_4 _ _ (by simp [other]), short]
  cases pieces? rest <;> rfl

theorem spells_control {c : Char} (control : c.toNat < 0x20)
    (written : escape c = ['\\', 'u', '0', '0', Hexadecimal.lower (c.toNat / 16),
      Hexadecimal.lower (c.toNat % 16)]) : Spells (.unit c.toNat) c := by
  constructor
  · intro rest
    rw [written]
    simp only [List.cons_append, List.nil_append, pieces?.eq_3, unit?_control control]
    cases pieces? rest <;> rfl
  · intro ps
    have low : ¬ (0xD800 ≤ c.toNat ∧ c.toNat < 0xDC00) := by omega
    have high : ¬ (0xDC00 ≤ c.toNat ∧ c.toNat < 0xE000) := by omega
    conv =>
      lhs
      unfold join?
    rw [if_neg low, if_neg high, Char.ofNat_toNat]

theorem spells_plain {c : Char} (written : escape c = [c]) (quote : c ≠ '"') (slash : c ≠ '\\')
    (visible : ¬ c.toNat < 0x20) : Spells (.char c) c := by
  refine ⟨?_, fun _ => rfl⟩
  intro rest
  rw [written, List.singleton_append, pieces?.eq_5 _ _ quote (by simp [slash]) (by simp [slash]),
    if_neg (by simp [visible, slash])]
  cases pieces? rest <;> rfl

/-- Every character is written so that one piece comes of it. -/
theorem exists_spells (c : Char) : ∃ p, Spells p c := by
  by_cases quote : c = '"'
  · subst quote
    exact ⟨_, spells_short '"' rfl rfl⟩
  by_cases slash : c = '\\'
  · subst slash
    exact ⟨_, spells_short '\\' rfl rfl⟩
  by_cases backspace : c = '\x08'
  · subst backspace
    exact ⟨_, spells_short 'b' rfl rfl⟩
  by_cases feed : c = '\x0c'
  · subst feed
    exact ⟨_, spells_short 'f' rfl rfl⟩
  by_cases newline : c = '\n'
  · subst newline
    exact ⟨_, spells_short 'n' rfl rfl⟩
  by_cases ret : c = '\r'
  · subst ret
    exact ⟨_, spells_short 'r' rfl rfl⟩
  by_cases tab : c = '\t'
  · subst tab
    exact ⟨_, spells_short 't' rfl rfl⟩
  by_cases control : c.toNat < 0x20
  · refine ⟨_, spells_control control ?_⟩
    simp [escape, quote, slash, backspace, feed, newline, ret, tab, control]
  · refine ⟨_, spells_plain ?_ quote slash control⟩
    simp [escape, quote, slash, backspace, feed, newline, ret, tab, control]

/-- A written text is read up to its closing quote, as what was written. -/
theorem exists_pieces (text : List Char) :
    ∃ ps, join? ps = some text ∧
      ∀ rest, pieces? (text.flatMap escape ++ '"' :: rest) = some (ps, rest) := by
  induction text with
  | nil => exact ⟨[], rfl, fun rest => rfl⟩
  | cons c text ih =>
    obtain ⟨p, spells⟩ := exists_spells c
    obtain ⟨ps, joined, read⟩ := ih
    refine ⟨p :: ps, ?_, ?_⟩
    · rw [spells.join, joined, Option.map_some]
    · intro rest
      rw [List.flatMap_cons, List.append_assoc, spells.pieces, read, Option.map_some]

theorem token?_quote (s : Option String) (rest : List Char) :
    token? (quote s ++ rest) = some (.scalar (.string s), rest) := by
  cases s with
  | none =>
    have written : quote none = ['"', '\\', 'u', 'd', '8', '0', '0', '"'] := by decide
    have half : unit? 'd' '8' '0' '0' = some 0xD800 := by decide
    simp only [written, List.cons_append, List.nil_append, token?.eq_8, pieces?.eq_3, half,
      pieces?.eq_2]
    rfl
  | some s =>
    obtain ⟨ps, joined, read⟩ := exists_pieces s.toList
    have written : quote (some s) = '"' :: s.toList.flatMap escape ++ ['"'] := rfl
    rw [written, List.append_assoc, List.cons_append, List.singleton_append, token?.eq_8, read]
    simp only [Option.map_some, joined, String.ofList_toList]

/-! ## Numbers -/

/-- A text that no number goes on in. -/
def NumberEnds (rest : List Char) : Prop :=
  ∀ c ∈ rest.head?, c.isDigit = false ∧ c ≠ '.' ∧ c ≠ 'e' ∧ c ≠ 'E'

theorem numberEnds_nil : NumberEnds [] := by simp [NumberEnds]

variable {rest : List Char}

theorem fraction?_of_numberEnds (ends : NumberEnds rest) : fraction? rest = some ([], rest) := by
  apply fraction?.eq_2
  rintro cs rfl
  exact (ends '.' rfl).2.1 rfl

theorem exponent?_of_numberEnds (ends : NumberEnds rest) : exponent? rest = some ([], rest) := by
  cases rest with
  | nil => rfl
  | cons c cs =>
    obtain ⟨-, -, lower, upper⟩ := ends c rfl
    have other : ¬ (c = 'e' ∨ c = 'E') := by simp [lower, upper]
    unfold exponent?
    simp only [other, if_false]

theorem takeWhile_digits (n : Nat) (ends : NumberEnds rest) :
    (Decimal.digits n ++ rest).takeWhile Char.isDigit = Decimal.digits n ∧
      (Decimal.digits n ++ rest).dropWhile Char.isDigit = rest := by
  have digits : ∀ c ∈ Decimal.digits n, c.isDigit = true := fun c => Decimal.isDigit_of_mem_digits
  rw [List.takeWhile_append_of_pos digits, List.dropWhile_append_of_pos digits]
  cases rest with
  | nil => simp
  | cons c cs =>
    have stops := (ends c rfl).1
    simp [stops]

theorem magnitude?_digits (negative : Bool) (n : Nat) (ends : NumberEnds rest)
    (signed : negative = true → n ≠ 0) :
    magnitude? negative (Decimal.digits n ++ rest) =
      some (.integer (if negative then -n else n), rest) := by
  obtain ⟨digits, after⟩ := takeWhile_digits n ends
  have written : ¬ (Decimal.digits n = [] ∨
      (Decimal.digits n).head? = some '0' ∧ Decimal.digits n ≠ ['0']) := by
    rintro (none | leading)
    · exact Decimal.digits_ne_nil n none
    · exact Decimal.no_leading_zero n leading
  have whole : ¬ (negative = true ∧ Decimal.digits n = ['0']) := by
    rintro ⟨minus, zero⟩
    exact signed minus (Decimal.eq_zero_of_head?_digits (by rw [zero]; rfl))
  unfold magnitude?
  simp only [digits, after, if_neg written, fraction?_of_numberEnds ends,
    exponent?_of_numberEnds ends, Option.bind_eq_bind, Option.bind_some, Decimal.value_digits]
  simp [whole]

theorem token?_of_isDigit {c : Char} (digit : c.isDigit = true) (cs : List Char) :
    token? (c :: cs) = (magnitude? false (c :: cs)).map fun (n, rest) => (.scalar n, rest) := by
  apply token?.eq_13
  · exact List.cons_ne_nil c cs
  all_goals
    rintro _ same
    rw [(List.cons.inj same).1] at digit
    exact absurd digit (by decide)

theorem token?_ofInt (n : Int) (ends : NumberEnds rest) :
    token? (Decimal.ofInt n ++ rest) = some (.scalar (.integer n), rest) := by
  cases n with
  | ofNat n =>
    have read := magnitude?_digits false n ends (by simp)
    obtain ⟨c, cs, front⟩ := List.exists_cons_of_ne_nil (Decimal.digits_ne_nil n)
    have digit : c.isDigit = true := Decimal.isDigit_of_mem_digits (n := n) (by simp [front])
    rw [Decimal.ofInt, front, List.cons_append, token?_of_isDigit digit, ← List.cons_append, ← front,
      read]
    rfl
  | negSucc n =>
    have read := magnitude?_digits true (n + 1) ends (by simp)
    rw [Decimal.ofInt, List.cons_append, token?.eq_12, read]
    rfl

end Json

end DraftDesk
