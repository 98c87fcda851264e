import DraftDesk.Utf8
import Mathlib.Tactic.SplitIfs

/-!
# Texts as bytes and back

The bytes of a text are read as that text: each character has a first byte that tells how many
follow, and the bounds on the second one leave out just what no character is written as. A byte
below 128 always stands for itself, also where it breaks off a character, so bytes can be cut
before it and read on each side for themselves.
-/

namespace DraftDesk.Utf8

variable {b : UInt8} {inside : Partial} {bytes xs ys : List UInt8}

/-! ## One byte -/

theorem parts_ascii (h : b.toNat < 0x80) (bytes : List UInt8) :
    parts none (b :: bytes) = some (Char.ofNat b.toNat) :: parts none bytes := by
  simp [parts, h]

theorem parts_lead (h : ¬ b.toNat < 0x80) (lead : lead? b.toNat = some inside) (bytes : List UInt8) :
    parts none (b :: bytes) = parts (some inside) bytes := by
  simp [parts, h, lead]

theorem parts_last (low : inside.low ≤ b.toNat) (high : b.toNat ≤ inside.high)
    (more : inside.more = 0) (bytes : List UInt8) :
    parts (some inside) (b :: bytes) =
      some (Char.ofNat (inside.bits * 64 + b.toNat % 64)) :: parts none bytes := by
  simp [parts, low, high, more]

theorem parts_next {more : Nat} (low : inside.low ≤ b.toNat) (high : b.toNat ≤ inside.high)
    (left : inside.more = more + 1) (bytes : List UInt8) :
    parts (some inside) (b :: bytes) =
      parts (some ⟨0x80, 0xBF, more, inside.bits * 64 + b.toNat % 64⟩) bytes := by
  simp [parts, low, high, left]

/-! ## One character -/

theorem lead?_two {b : Nat} (low : 0xC2 ≤ b) (high : b < 0xE0) :
    lead? b = some ⟨0x80, 0xBF, 0, b - 0xC0⟩ := by
  have begun : ¬ b < 0xC2 := by omega
  simp [lead?, begun, high]

theorem lead?_three {k : Nat} (h : k < 16) :
    lead? (0xE0 + k) = some ⟨if k = 0 then 0xA0 else 0x80, if k = 0xD then 0x9F else 0xBF, 1, k⟩ := by
  revert k
  decide

theorem lead?_four {k : Nat} (h : k < 5) :
    lead? (0xF0 + k) = some ⟨if k = 0 then 0x90 else 0x80, if k = 4 then 0x8F else 0xBF, 2, k⟩ := by
  revert k
  decide

theorem toNat_ofNat {n m : Nat} (h : n = m) (small : m < 256) : (UInt8.ofNat n).toNat = m :=
  h ▸ UInt8.toNat_ofNat_of_lt' (h ▸ small)

theorem toNat_tail (n : Nat) : (UInt8.ofNat (n % 64 + 128)).toNat = 0x80 + n % 64 :=
  toNat_ofNat (Nat.add_comm ..) (by omega)

variable {v : Nat}

theorem parts_two (low : 0x80 ≤ v) (high : v < 0x800) (bytes : List UInt8) :
    parts none (UInt8.ofNat (v / 64 % 32 + 192) :: UInt8.ofNat (v % 64 + 128) :: bytes) =
      some (Char.ofNat v) :: parts none bytes := by
  have first : (UInt8.ofNat (v / 64 % 32 + 192)).toNat = 0xC0 + v / 64 :=
    toNat_ofNat (by omega) (by omega)
  have second := toNat_tail v
  have lead := lead?_two (b := 0xC0 + v / 64) (by omega) (by omega)
  rw [← first] at lead
  have value : (0xC0 + v / 64 - 0xC0) * 64 + (0x80 + v % 64) % 64 = v := by omega
  rw [parts_lead (by omega) lead, parts_last (by simp only; omega) (by simp only; omega) rfl]
  simp only [first, second, value]

/-- The bounds on the second byte leave out what fits in two bytes, and half a surrogate pair. -/
theorem parts_three (low : 0x800 ≤ v) (high : v < 0x10000) (scalar : v < 0xD800 ∨ 0xDFFF < v)
    (bytes : List UInt8) :
    parts none (UInt8.ofNat (v / 4096 % 16 + 224) :: UInt8.ofNat (v / 64 % 64 + 128) ::
        UInt8.ofNat (v % 64 + 128) :: bytes) =
      some (Char.ofNat v) :: parts none bytes := by
  have first : (UInt8.ofNat (v / 4096 % 16 + 224)).toNat = 0xE0 + v / 4096 :=
    toNat_ofNat (by omega) (by omega)
  have second := toNat_tail (v / 64)
  have third := toNat_tail v
  have lead := lead?_three (k := v / 4096) (by omega)
  rw [← first] at lead
  have value : (v / 4096 * 64 + (0x80 + v / 64 % 64) % 64) * 64 + (0x80 + v % 64) % 64 = v := by
    omega
  rw [parts_lead (by omega) lead,
    parts_next (by simp only; split <;> omega) (by simp only; split <;> omega) rfl,
    parts_last (by simp only; omega) (by simp only; omega) rfl]
  simp only [second, third, value]

/-- The bounds on the second byte leave out what fits in three bytes, and what is no character. -/
theorem parts_four (low : 0x10000 ≤ v) (high : v < 0x110000) (bytes : List UInt8) :
    parts none (UInt8.ofNat (v / 262144 % 8 + 240) :: UInt8.ofNat (v / 4096 % 64 + 128) ::
        UInt8.ofNat (v / 64 % 64 + 128) :: UInt8.ofNat (v % 64 + 128) :: bytes) =
      some (Char.ofNat v) :: parts none bytes := by
  have first : (UInt8.ofNat (v / 262144 % 8 + 240)).toNat = 0xF0 + v / 262144 :=
    toNat_ofNat (by omega) (by omega)
  have second := toNat_tail (v / 4096)
  have third := toNat_tail (v / 64)
  have fourth := toNat_tail v
  have lead := lead?_four (k := v / 262144) (by omega)
  rw [← first] at lead
  have value : ((v / 262144 * 64 + (0x80 + v / 4096 % 64) % 64) * 64 + (0x80 + v / 64 % 64) % 64) *
      64 + (0x80 + v % 64) % 64 = v := by omega
  rw [parts_lead (by omega) lead,
    parts_next (by simp only; split <;> omega) (by simp only; split <;> omega) rfl,
    parts_next (by simp only; omega) (by simp only; omega) rfl,
    parts_last (by simp only; omega) (by simp only; omega) rfl]
  simp only [second, third, fourth, value]

/-- The bytes of a character are read as that character. -/
theorem parts_utf8EncodeChar (c : Char) (bytes : List UInt8) :
    parts none (String.utf8EncodeChar c ++ bytes) = some c :: parts none bytes := by
  have valid : c.toNat < 0xD800 ∨ 0xDFFF < c.toNat ∧ c.toNat < 0x110000 := c.valid
  have whole : Char.ofNat c.toNat = c := Char.ofNat_toNat c
  have code : c.val.toNat = c.toNat := rfl
  simp only [String.utf8EncodeChar, code]
  generalize c.toNat = v at valid whole
  subst whole
  split
  · have byte : (UInt8.ofNat v).toNat = v := toNat_ofNat rfl (by omega)
    rw [List.singleton_append, parts_ascii (by omega), byte]
  split
  · exact parts_two (by omega) (by omega) bytes
  split
  · exact parts_three (by omega) (by omega) (by omega) bytes
  · exact parts_four (by omega) (by omega) bytes

/-! ### Characters that are one byte -/

variable {c : Char} {cs : List Char}

theorem utf8EncodeChar_of_ascii (ascii : c.toNat < 0x80) :
    String.utf8EncodeChar c = [UInt8.ofNat c.toNat] := by
  have code : c.val.toNat ≤ 0x7F := Nat.le_of_lt_succ ascii
  rw [String.utf8EncodeChar, if_pos code]
  rfl

theorem le_of_mem_utf8EncodeChar (ascii : ¬ c.toNat < 0x80) :
    ∀ b ∈ String.utf8EncodeChar c, 0x80 ≤ b.toNat := by
  have code : ¬ c.val.toNat ≤ 0x7F := fun small => ascii (Nat.lt_succ_of_le small)
  have low : ∀ n < 256, 0x80 ≤ n → 0x80 ≤ (UInt8.ofNat n).toNat := by
    intro n small high
    rwa [toNat_ofNat rfl small]
  simp only [String.utf8EncodeChar, if_neg code]
  split_ifs <;> simp only [List.forall_mem_cons, List.not_mem_nil, false_implies, implies_true, and_true]
  · exact ⟨low _ (by omega) (by omega), low _ (by omega) (by omega)⟩
  · exact ⟨low _ (by omega) (by omega), low _ (by omega) (by omega), low _ (by omega) (by omega)⟩
  · exact ⟨low _ (by omega) (by omega), low _ (by omega) (by omega), low _ (by omega) (by omega),
      low _ (by omega) (by omega)⟩

/-! ## Texts -/

theorem encode_append (cs ds : List Char) : encode (cs ++ ds) = encode cs ++ encode ds := by
  simp [encode]

theorem encode_singleton (ascii : c.toNat < 0x80) : encode [c] = [UInt8.ofNat c.toNat] := by
  rw [encode, List.flatMap_singleton, utf8EncodeChar_of_ascii ascii]

theorem length_encode (ascii : ∀ c ∈ cs, c.toNat < 0x80) : (encode cs).length = cs.length := by
  induction cs with
  | nil => rfl
  | cons c cs ih =>
    have rest := ih fun d mem => ascii d (List.mem_cons_of_mem _ mem)
    rw [← List.singleton_append, encode_append, encode_singleton (ascii c (List.mem_cons_self ..)),
      List.length_append, rest, List.length_append, List.length_singleton, List.length_singleton]

theorem length_encode_toList (text : String) : (encode text.toList).length = text.utf8ByteSize := by
  have bytes : (String.ofList text.toList).toByteArray = (encode text.toList).toByteArray :=
    String.toByteArray_ofList
  rw [String.ofList_toList] at bytes
  rw [← String.size_toByteArray, bytes, List.size_toByteArray]

/-- A character below 128 that is not in a text is no byte of it. -/
theorem ne_of_mem_encode (ascii : c.toNat < 0x80) (absent : c ∉ cs) :
    ∀ b ∈ encode cs, b ≠ UInt8.ofNat c.toNat := by
  rintro _ mem rfl
  have byte : (UInt8.ofNat c.toNat).toNat = c.toNat := toNat_ofNat rfl (by omega)
  obtain ⟨d, inside, mem⟩ := List.mem_flatMap.1 mem
  by_cases small : d.toNat < 0x80
  · rw [utf8EncodeChar_of_ascii small, List.mem_singleton] at mem
    have code : c.toNat = d.toNat := by
      rw [← byte, mem, toNat_ofNat rfl (by omega)]
    have same : c = d := Char.ext (UInt32.toNat_inj.1 code)
    exact absent (same ▸ inside)
  · have high := le_of_mem_utf8EncodeChar small _ mem
    omega

/-- The bytes of a text are read as its characters, whatever comes after them. -/
theorem parts_encode_append (cs : List Char) (bytes : List UInt8) :
    parts none (encode cs ++ bytes) = cs.map some ++ parts none bytes := by
  induction cs with
  | nil => rfl
  | cons c cs ih =>
    rw [encode, List.flatMap_cons, ← encode, List.append_assoc, parts_utf8EncodeChar, ih]
    rfl

theorem parts_encode (cs : List Char) : parts none (encode cs) = cs.map some := by
  have whole := parts_encode_append cs []
  rwa [List.append_nil, parts, List.append_nil] at whole

@[simp] theorem decode?_encode (cs : List Char) : decode? (encode cs) = some cs := by
  rw [decode?, parts_encode]
  induction cs with
  | nil => rfl
  | cons c cs ih => simp [List.mapM_cons, ih]

theorem encode_injective : Function.Injective encode := by
  intro cs ds same
  have read := congrArg decode? same
  simpa using read

@[simp] theorem decodeLossy_encode (cs : List Char) : decodeLossy (encode cs) = cs := by
  simp [decodeLossy, parts_encode, Function.comp_def]

/-! ## Any bytes -/

/-- Inside a character no byte below 128 is expected. -/
def Expects : Option Partial → Prop
  | none => True
  | some inside => 0x80 ≤ inside.low

/-- The number of parts that are begun. -/
def begun : Option Partial → Nat
  | none => 0
  | some _ => 1

theorem low_of_lead? {b : Nat} (lead : lead? b = some inside) : 0x80 ≤ inside.low := by
  unfold lead? at lead
  split_ifs at lead <;> simp only [Option.some.injEq] at lead <;> subst lead <;> simp

/-- One byte more ends what is begun, begins a part or does both, whatever comes after it. -/
theorem exists_parts_cons {state : Option Partial} (expects : Expects state) (b : UInt8) :
    ∃ done next, Expects next ∧ done.length + begun next ≤ begun state + 1 ∧
      ∀ bytes, parts state (b :: bytes) = done ++ parts next bytes := by
  have fresh : ∃ done next, Expects next ∧ done.length + begun next ≤ 1 ∧
      ∀ bytes, parts none (b :: bytes) = done ++ parts next bytes := by
    by_cases ascii : b.toNat < 0x80
    · exact ⟨[some (Char.ofNat b.toNat)], none, trivial, by simp [begun], parts_ascii ascii⟩
    · cases lead : lead? b.toNat with
      | some inside =>
        exact ⟨[], some inside, low_of_lead? lead, by simp [begun], parts_lead ascii lead⟩
      | none => exact ⟨[none], none, trivial, by simp [begun], by simp [parts, ascii, lead]⟩
  cases state with
  | none => exact fresh
  | some inside =>
    by_cases fits : inside.low ≤ b.toNat ∧ b.toNat ≤ inside.high
    · cases more : inside.more with
      | zero =>
        exact ⟨[some (Char.ofNat (inside.bits * 64 + b.toNat % 64))], none, trivial, by simp [begun],
          parts_last fits.1 fits.2 more⟩
      | succ left =>
        exact ⟨[], some ⟨0x80, 0xBF, left, inside.bits * 64 + b.toNat % 64⟩, Nat.le_refl 0x80,
          by simp [begun], parts_next fits.1 fits.2 more⟩
    · -- The character breaks off, and the byte is read as from the start of another one.
      obtain ⟨done, next, tail, count, eq⟩ := fresh
      refine ⟨none :: done, next, tail, by simp only [List.length_cons, begun] at *; omega, ?_⟩
      intro bytes
      have broken : parts (some inside) (b :: bytes) = none :: parts none (b :: bytes) := by
        by_cases ascii : b.toNat < 0x80
        · simp [parts, fits, ascii]
        · cases lead : lead? b.toNat <;> simp [parts, fits, ascii, lead]
      rw [broken, eq, List.cons_append]

/-- Bytes can be cut before a byte below 128. -/
theorem parts_append_ascii {state : Option Partial} (expects : Expects state) (h : b.toNat < 0x80)
    (xs ys : List UInt8) :
    parts state (xs ++ b :: ys) = parts state xs ++ some (Char.ofNat b.toNat) :: parts none ys := by
  induction xs generalizing state with
  | nil =>
    cases state with
    | none => exact parts_ascii h ys
    | some inside =>
      have outside : ¬ (inside.low ≤ b.toNat ∧ b.toNat ≤ inside.high) := by
        intro fits
        exact absurd fits.1 (Nat.not_le.2 (Nat.lt_of_lt_of_le h expects))
      simp [parts, outside, h]
  | cons x xs ih =>
    obtain ⟨done, next, tail, -, eq⟩ := exists_parts_cons expects x
    rw [List.cons_append, eq, eq, ih tail, List.append_assoc]

theorem length_parts_le {state : Option Partial} (expects : Expects state) (bytes : List UInt8) :
    (parts state bytes).length ≤ begun state + bytes.length := by
  induction bytes generalizing state with
  | nil => cases state <;> simp [parts, begun]
  | cons b bytes ih =>
    obtain ⟨done, next, tail, count, eq⟩ := exists_parts_cons expects b
    have rest := ih tail
    rw [eq, List.length_append, List.length_cons]
    omega

theorem decodeLossy_append_ascii (h : b.toNat < 0x80) (xs ys : List UInt8) :
    decodeLossy (xs ++ b :: ys) = decodeLossy xs ++ Char.ofNat b.toNat :: decodeLossy ys := by
  have between : Expects none := trivial
  simp [decodeLossy, parts_append_ascii between h]

/-- No more characters are read than there are bytes. -/
theorem length_decodeLossy_le (bytes : List UInt8) : (decodeLossy bytes).length ≤ bytes.length := by
  have between : Expects none := trivial
  have count := length_parts_le between bytes
  rw [begun, Nat.zero_add] at count
  rwa [decodeLossy, List.length_map]

end DraftDesk.Utf8
