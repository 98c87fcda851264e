import DraftDesk.Proofs.Utf8Texts
import DraftDesk.PercentCoding

/-!
# Percent decoding

Decoding takes each percent sign that two hexadecimal digits follow, with them, for one byte, and
leaves everything else. A percent sign is no digit, so no code begins inside another one, and bytes
can be cut before one that is neither: no code reaches over it. Coding writes a percent sign only at
the beginning of a code, so coded bytes are read back (`decode_encode`).
-/

namespace DraftDesk.PercentCoding

variable {b high low : UInt8} {bytes rest xs : List UInt8}

/-- Whether a percent sign before two bytes makes them a code. -/
def isCode (high low : UInt8) : Bool :=
  (Hexadecimal.value? high.toNat).isSome && (Hexadecimal.value? low.toNat).isSome

/-- Some byte is coded. -/
def HasCode (bytes : List UInt8) : Prop :=
  ∃ before high low after, bytes = before ++ 37 :: high :: low :: after ∧ isCode high low = true

/-- A code stands at the beginning. -/
def Begins (bytes : List UInt8) : Prop :=
  ∃ high low after, bytes = 37 :: high :: low :: after ∧ isCode high low = true

theorem hasCode_cons_iff : HasCode (b :: rest) ↔ Begins (b :: rest) ∨ HasCode rest := by
  constructor
  · rintro ⟨before, high, low, after, whole, code⟩
    match before with
    | [] => exact .inl ⟨high, low, after, whole, code⟩
    | x :: before =>
      cases whole
      exact .inr ⟨before, high, low, after, rfl, code⟩
  · rintro (⟨high, low, after, whole, code⟩ | ⟨before, high, low, after, rfl, code⟩)
    · exact ⟨[], high, low, after, whole, code⟩
    · exact ⟨b :: before, high, low, after, rfl, code⟩

theorem mem_of_hasCode (coded : HasCode bytes) : 37 ∈ bytes := by
  obtain ⟨before, high, low, after, rfl, -⟩ := coded
  simp

/-! ## One step -/

/-- A code stands for one byte. -/
theorem decode_code (code : isCode high low = true) :
    ∃ byte, ∀ rest, decode (37 :: high :: low :: rest) = byte :: decode rest := by
  rw [isCode, Bool.and_eq_true, Option.isSome_iff_exists, Option.isSome_iff_exists] at code
  obtain ⟨⟨h, isHigh⟩, ⟨l, isLow⟩⟩ := code
  exact ⟨UInt8.ofNat (16 * h + l), by simp [decode, isHigh, isLow]⟩

theorem decode_cons (plain : ¬ Begins (b :: rest)) : decode (b :: rest) = b :: decode rest := by
  rw [decode.eq_def (b :: rest)]
  split
  · next whole => cases whole
  · next high low after whole =>
    split
    · next h l isHigh isLow =>
      exact absurd ⟨high, low, after, whole, by simp [isCode, isHigh, isLow]⟩ plain
    · cases whole
      rfl
  · next whole =>
    cases whole
    rfl

theorem not_begins_of_ne (sign : b ≠ 37) (rest : List UInt8) : ¬ Begins (b :: rest) := by
  rintro ⟨high, low, after, ⟨⟩, -⟩
  exact sign rfl

/-- No code reaches over a byte that is neither a percent sign nor a digit. -/
theorem not_begins_append_cons (digit : Hexadecimal.value? b.toNat = none) {x : UInt8}
    (plain : ¬ Begins (x :: xs)) (ys : List UInt8) : ¬ Begins (x :: xs ++ b :: ys) := by
  rintro ⟨high, low, after, whole, code⟩
  match xs with
  | [] =>
    cases whole
    simp [isCode, digit] at code
  | [y] =>
    cases whole
    simp [isCode, digit] at code
  | y :: z :: xs =>
    cases whole
    exact plain ⟨high, low, xs, rfl, code⟩

/-- Bytes are read code by code, and byte by byte where there is none. -/
theorem induction_on_codes {motive : List UInt8 → Prop} (nil : motive [])
    (code : ∀ high low rest, isCode high low = true → motive rest →
      motive (37 :: high :: low :: rest))
    (plain : ∀ b rest, ¬ Begins (b :: rest) → motive rest → motive (b :: rest))
    (bytes : List UInt8) : motive bytes := by
  induction size : bytes.length using Nat.strongRecOn generalizing bytes with
  | ind n ih =>
    match bytes with
    | [] => exact nil
    | b :: rest =>
      by_cases begins : Begins (b :: rest)
      · obtain ⟨high, low, after, whole, isCode⟩ := begins
        rw [whole] at size ⊢
        exact code high low after isCode (ih after.length (by simp at size; omega) after rfl)
      · exact plain b rest begins (ih rest.length (by simp at size; omega) rest rfl)

/-! ## Cutting -/

theorem decode_append_cons (sign : b ≠ 37) (digit : Hexadecimal.value? b.toNat = none)
    (xs ys : List UInt8) : decode (xs ++ b :: ys) = decode xs ++ b :: decode ys := by
  induction xs using induction_on_codes with
  | nil => exact decode_cons (not_begins_of_ne sign ys)
  | code high low rest code ih =>
    obtain ⟨byte, stands⟩ := decode_code code
    rw [List.cons_append, List.cons_append, List.cons_append, stands, stands, ih, List.cons_append]
  | plain x rest plain ih =>
    have further := not_begins_append_cons digit plain ys
    rw [List.cons_append] at further ⊢
    rw [decode_cons further, decode_cons plain, ih, List.cons_append]

/-! ## What codes take away -/

theorem decode_of_not_hasCode (none : ¬ HasCode bytes) : decode bytes = bytes := by
  induction bytes with
  | nil => rfl
  | cons b rest ih =>
    rw [hasCode_cons_iff, not_or] at none
    rw [decode_cons none.1, ih none.2]

theorem length_decode_le (bytes : List UInt8) : (decode bytes).length ≤ bytes.length := by
  induction bytes using induction_on_codes with
  | nil => simp [decode]
  | code high low rest code ih =>
    obtain ⟨byte, stands⟩ := decode_code code
    simp only [stands, List.length_cons]
    omega
  | plain b rest plain ih =>
    rw [decode_cons plain]
    simpa using ih

theorem length_decode_of_hasCode (some : HasCode bytes) : (decode bytes).length + 2 ≤ bytes.length := by
  induction bytes using induction_on_codes with
  | nil =>
    obtain ⟨_ | _, _, _, _, ⟨⟩, -⟩ := some
  | code high low rest code ih =>
    obtain ⟨byte, stands⟩ := decode_code code
    have shorter := length_decode_le rest
    simp only [stands, List.length_cons]
    omega
  | plain b rest plain ih =>
    have further := ih ((hasCode_cons_iff.1 some).resolve_left plain)
    rw [decode_cons plain]
    simpa using further

/-! ## What was coded -/

theorem toNat_upper_lt {n : Nat} (h : n < 16) : (Hexadecimal.upper n).toNat < 0x80 := by
  revert n
  decide

/-- A byte that stands for itself is the code of a character, and is no percent sign. -/
theorem encodeByte_of_isUnreserved (unreserved : isUnreserved b = true) :
    Utf8.encode (encodeByte b) = [b] ∧ b ≠ 37 := by
  have bounds : b.toNat < 0x80 ∧ b.toNat ≠ 37 := by
    simp only [isUnreserved, Bool.or_eq_true, Bool.and_eq_true, decide_eq_true_eq, beq_iff_eq] at unreserved
    omega
  have code : (Char.ofNat b.toNat).toNat = b.toNat := by
    have valid : b.toNat.isValidChar := .inl (by omega)
    rw [Char.ofNat, dif_pos valid]
    rfl
  have ascii : (Char.ofNat b.toNat).toNat < 0x80 := by rw [code]; exact bounds.1
  refine ⟨?_, fun sign => bounds.2 (by rw [sign]; rfl)⟩
  rw [encodeByte, if_pos unreserved, Utf8.encode_singleton ascii, code, UInt8.ofNat_toNat]

/-- Any other byte is coded. -/
theorem encodeByte_of_not_isUnreserved (reserved : ¬ isUnreserved b = true) :
    ∃ high low : UInt8, Utf8.encode (encodeByte b) = [37, high, low] ∧
      Hexadecimal.value? high.toNat = some (b.toNat / 16) ∧
      Hexadecimal.value? low.toNat = some (b.toNat % 16) := by
  have small : b.toNat < 256 := b.toNat_lt
  have high := toNat_upper_lt (n := b.toNat / 16) (by omega)
  have low := toNat_upper_lt (n := b.toNat % 16) (by omega)
  refine ⟨.ofNat (Hexadecimal.upper (b.toNat / 16)).toNat, .ofNat (Hexadecimal.upper (b.toNat % 16)).toNat,
    ?_, ?_, ?_⟩
  · have coded : encodeByte b =
        ['%'] ++ [Hexadecimal.upper (b.toNat / 16)] ++ [Hexadecimal.upper (b.toNat % 16)] := by
      rw [encodeByte, if_neg reserved]
      rfl
    rw [coded, Utf8.encode_append, Utf8.encode_append, Utf8.encode_singleton high,
      Utf8.encode_singleton low]
    rfl
  · rw [Utf8.toNat_ofNat rfl (by omega), Hexadecimal.value?_upper (by omega)]
  · rw [Utf8.toNat_ofNat rfl (by omega), Hexadecimal.value?_upper (by omega)]

theorem decode_encodeByte_append (b : UInt8) (rest : List UInt8) :
    decode (Utf8.encode (encodeByte b) ++ rest) = b :: decode rest := by
  by_cases unreserved : isUnreserved b = true
  · obtain ⟨itself, sign⟩ := encodeByte_of_isUnreserved unreserved
    rw [itself, List.singleton_append, decode_cons (not_begins_of_ne sign rest)]
  · obtain ⟨high, low, coded, isHigh, isLow⟩ := encodeByte_of_not_isUnreserved unreserved
    have value : UInt8.ofNat (16 * (b.toNat / 16) + b.toNat % 16) = b := by
      rw [Nat.div_add_mod, UInt8.ofNat_toNat]
    simp [coded, decode, isHigh, isLow, value]

theorem decode_encode_append (bytes rest : List UInt8) :
    decode (Utf8.encode (encode bytes) ++ rest) = bytes ++ decode rest := by
  induction bytes with
  | nil => rfl
  | cons b bytes ih =>
    rw [encode, List.flatMap_cons, ← encode, Utf8.encode_append, List.append_assoc,
      decode_encodeByte_append, ih, List.cons_append]

/-- Coded bytes are read back. -/
theorem decode_encode (bytes : List UInt8) : decode (Utf8.encode (encode bytes)) = bytes := by
  have whole := decode_encode_append bytes []
  rwa [List.append_nil, decode, List.append_nil] at whole

end DraftDesk.PercentCoding
