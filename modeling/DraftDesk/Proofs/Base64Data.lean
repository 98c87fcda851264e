import DraftDesk.Payloads
import DraftDesk.Proofs.Utf8Texts
import Mathlib.Data.List.Induction

/-!
# Data in base64

Three bytes are written as four characters, and what is left over as four characters with `=` in the
place of the missing ones. The reader takes the characters in fours as well, so the written data is
read back (`decode?_encode`). The size of the content is told from the length of the data and the `=`
at its end, since no `=` stands for six bits.
-/

namespace DraftDesk.Base64

/-! ## Reading -/

/-- The characters for six bits, in the order of the numbers they stand for. -/
def alphabet : List Char :=
  "ABCDEFGHIJKLMNOPQRSTUVWXYZabcdefghijklmnopqrstuvwxyz0123456789+/".toList

/-- The number that a character stands for. -/
def value? (c : Char) : Option Nat := alphabet.idxOf? c

/-- Reads four characters at a time. One or two `=` at the end stand for the characters that two or one
byte do without, and the bits of the last character that no byte needs are zero. -/
def decode? : List Char → Option (List UInt8)
  | [] => some []
  | [a, b, '=', '='] => do
    let a ← value? a
    let b ← value? b
    if b % 16 = 0 then some [.ofNat (a * 4 + b / 16)] else none
  | [a, b, c, '='] => do
    let a ← value? a
    let b ← value? b
    let c ← value? c
    if c % 4 = 0 then some [.ofNat (a * 4 + b / 16), .ofNat (b % 16 * 16 + c / 4)] else none
  | a :: b :: c :: d :: rest => do
    let a ← value? a
    let b ← value? b
    let c ← value? c
    let d ← value? d
    let more ← decode? rest
    return .ofNat (a * 4 + b / 16) :: .ofNat (b % 16 * 16 + c / 4) :: .ofNat (c % 4 * 64 + d) :: more
  | _ => none

/-! ## Six bits -/

theorem value?_sextet {n : Nat} (h : n < 64) : value? (sextet n) = some n := by
  revert n
  decide

theorem sextet_mem_alphabet {n : Nat} (h : n < 64) : sextet n ∈ alphabet := by
  have read : (alphabet.idxOf? (sextet n)).isSome := by rw [← value?, value?_sextet h]; rfl
  exact List.isSome_idxOf?.1 read

theorem padding_notMem_alphabet : '=' ∉ alphabet := by decide

theorem sextet_ne_padding {n : Nat} (h : n < 64) : sextet n ≠ '=' :=
  ne_of_mem_of_not_mem (sextet_mem_alphabet h) padding_notMem_alphabet

/-! ## Groups of four -/

section groups

variable {a b c d : Nat} (ha : a < 64) (hb : b < 64)
include ha hb

theorem decode?_one (unused : b % 16 = 0) :
    decode? [sextet a, sextet b, '=', '='] = some [.ofNat (a * 4 + b / 16)] := by
  rw [decode?.eq_2]
  simp [value?_sextet, ha, hb, unused]

theorem decode?_two (hc : c < 64) (unused : c % 4 = 0) :
    decode? [sextet a, sextet b, sextet c, '='] =
      some [.ofNat (a * 4 + b / 16), .ofNat (b % 16 * 16 + c / 4)] := by
  rw [decode?.eq_3 _ _ _ (sextet_ne_padding hc)]
  simp [value?_sextet, ha, hb, hc, unused]

theorem decode?_three (hc : c < 64) (hd : d < 64) (rest : List Char) :
    decode? (sextet a :: sextet b :: sextet c :: sextet d :: rest) =
      (decode? rest).map fun more =>
        .ofNat (a * 4 + b / 16) :: .ofNat (b % 16 * 16 + c / 4) :: .ofNat (c % 4 * 64 + d) :: more := by
  have last := sextet_ne_padding hd
  rw [decode?.eq_4 _ _ _ _ _ (fun _ same _ => last same) (fun same _ => last same)]
  simp only [value?_sextet, ha, hb, hc, hd, Option.bind_eq_bind, Option.bind_some]
  cases decode? rest <;> rfl

end groups

/-- Written bytes are read back. -/
theorem decode?_encode (bytes : List UInt8) : decode? (encode bytes) = some bytes := by
  fun_induction encode bytes with
  | case1 => rfl
  | case2 x a =>
    have small : a < 256 := x.toNat_lt
    have first : a / 4 * 4 + a % 4 * 16 / 16 = x.toNat := by omega
    rw [decode?_one (by omega) (by omega) (by omega), first, UInt8.ofNat_toNat]
  | case3 x y a b =>
    have small : a < 256 ∧ b < 256 := ⟨x.toNat_lt, y.toNat_lt⟩
    have first : a / 4 * 4 + (a % 4 * 16 + b / 16) / 16 = x.toNat := by omega
    have second : (a % 4 * 16 + b / 16) % 16 * 16 + b % 16 * 4 / 4 = y.toNat := by omega
    rw [decode?_two (by omega) (by omega) (by omega) (by omega), first, second, UInt8.ofNat_toNat,
      UInt8.ofNat_toNat]
  | case4 x y z rest a b c ih =>
    have small : a < 256 ∧ b < 256 ∧ c < 256 := ⟨x.toNat_lt, y.toNat_lt, z.toNat_lt⟩
    have first : a / 4 * 4 + (a % 4 * 16 + b / 16) / 16 = x.toNat := by omega
    have second : (a % 4 * 16 + b / 16) % 16 * 16 + (b % 16 * 4 + c / 64) / 4 = y.toNat := by omega
    have third : (b % 16 * 4 + c / 64) % 4 * 64 + c % 64 = z.toNat := by omega
    rw [decode?_three (by omega) (by omega) (by omega) (by omega), ih, first, second, third,
      UInt8.ofNat_toNat, UInt8.ofNat_toNat, UInt8.ofNat_toNat]
    rfl

/-! ## The shape of the data -/

/-- The data are characters for six bits, and then as many `=` as bytes are missing from the last
group of three. -/
theorem exists_sextets (bytes : List UInt8) :
    ∃ sextets, encode bytes = sextets ++ List.replicate ((3 - bytes.length % 3) % 3) '=' ∧
      (∀ c ∈ sextets, c ∈ alphabet) ∧
      sextets.length + (3 - bytes.length % 3) % 3 = 4 * ((bytes.length + 2) / 3) := by
  fun_induction encode bytes with
  | case1 => exact ⟨[], rfl, nofun, rfl⟩
  | case2 x a =>
    have small : a < 256 := x.toNat_lt
    refine ⟨[sextet (a / 4), sextet (a % 4 * 16)], rfl, ?_, by simp⟩
    simp only [List.forall_mem_cons, List.not_mem_nil, false_implies, implies_true, and_true]
    exact ⟨sextet_mem_alphabet (by omega), sextet_mem_alphabet (by omega)⟩
  | case3 x y a b =>
    have small : a < 256 ∧ b < 256 := ⟨x.toNat_lt, y.toNat_lt⟩
    refine ⟨[sextet (a / 4), sextet (a % 4 * 16 + b / 16), sextet (b % 16 * 4)], rfl, ?_, by simp⟩
    simp only [List.forall_mem_cons, List.not_mem_nil, false_implies, implies_true, and_true]
    exact ⟨sextet_mem_alphabet (by omega), sextet_mem_alphabet (by omega),
      sextet_mem_alphabet (by omega)⟩
  | case4 x y z rest a b c ih =>
    have small : a < 256 ∧ b < 256 ∧ c < 256 := ⟨x.toNat_lt, y.toNat_lt, z.toNat_lt⟩
    obtain ⟨sextets, written, among, count⟩ := ih
    refine ⟨sextet (a / 4) :: sextet (a % 4 * 16 + b / 16) :: sextet (b % 16 * 4 + c / 64) ::
      sextet (c % 64) :: sextets, ?_, ?_, ?_⟩
    · have missing : (3 - (rest.length + 1 + 1 + 1) % 3) % 3 = (3 - rest.length % 3) % 3 := by omega
      rw [written, List.length_cons, List.length_cons, List.length_cons, missing]
      rfl
    · simp only [List.forall_mem_cons]
      exact ⟨sextet_mem_alphabet (by omega), sextet_mem_alphabet (by omega),
        sextet_mem_alphabet (by omega), sextet_mem_alphabet (by omega), among⟩
    · simp only [List.length_cons]
      omega

/-! ## The size of the content -/

/-- Nothing is counted at the end of a list if its last part does without it. -/
theorem trailing_eq_nil {α : Type} [BEq α] [LawfulBEq α] {last : List α} {a : α} (full : last ≠ [])
    (differs : ∀ b ∈ last, b ≠ a) (front : List α) :
    (front ++ last).reverse.takeWhile (· == a) = [] := by
  obtain ⟨start, b, rfl⟩ := (List.eq_nil_or_concat last).resolve_left full
  have stops : ¬ (b == a) = true := by simpa using differs b (by simp)
  rw [List.concat_eq_append, List.reverse_append, List.reverse_concat, List.cons_append]
  exact List.takeWhile_cons_of_neg stops

/-- A character of one byte stands at the end of a text as often as its byte does at the end of the
bytes. -/
theorem length_trailing {c : Char} (ascii : c.toNat < 0x80) (cs : List Char) :
    ((Utf8.encode cs).reverse.takeWhile (· == UInt8.ofNat c.toNat)).length =
      (cs.reverse.takeWhile (· == c)).length := by
  induction cs using List.reverseRecOn with
  | nil => rfl
  | append_singleton cs d ih =>
    rw [Utf8.encode_append]
    by_cases same : d = c
    · rw [same, Utf8.encode_singleton ascii]
      simp [ih]
    · have differs : ∀ b ∈ Utf8.encode [d], b ≠ UInt8.ofNat c.toNat :=
        Utf8.ne_of_mem_encode ascii (by simpa using Ne.symm same)
      have full : Utf8.encode [d] ≠ [] := by simp [Utf8.encode]
      rw [trailing_eq_nil full differs, trailing_eq_nil (by simp) (by simpa using same)]
      rfl

/-- The size of the content in terms of the bytes of the data. -/
theorem decodedLength_eq (data : String) :
    decodedLength data = (Utf8.encode data.toList).length / 4 * 3 -
      ((Utf8.encode data.toList).reverse.takeWhile (· == 61)).length := by
  rw [decodedLength, Utf8.length_encode_toList, ← length_trailing (c := '=') (by decide)]
  rfl

theorem length_trailing_padding {sextets : List Char} (among : ∀ c ∈ sextets, c ∈ alphabet)
    (count : Nat) :
    ((sextets ++ List.replicate count '=').reverse.takeWhile (· == '=')).length = count := by
  have none : sextets.reverse.takeWhile (· == '=') = [] := by
    by_cases full : sextets = []
    · rw [full]
      rfl
    · exact trailing_eq_nil full
        (fun c mem => ne_of_mem_of_not_mem (among c mem) padding_notMem_alphabet) []
  rw [List.reverse_append, List.reverse_replicate, List.takeWhile_append_of_pos (by simp), none,
    List.append_nil, List.length_replicate]

theorem ascii_of_mem_alphabet : ∀ c ∈ alphabet, c.toNat < 0x80 := by
  have all : alphabet.all (·.toNat < 0x80) = true := by decide
  simpa using all

/-- Data carry their bytes: they are written with the characters for six bits and as many `=` as bytes
are missing from the last group of three, and they are read back as the bytes, whose number is told
from them. Told from any data, it is no more than three for each four characters, and is not below zero
where there are more `=` than that. -/
theorem data_carry_bytes :
    (∀ (mime filename : String) (bytes : List UInt8),
      (Upload.ofBytes mime filename bytes).data.utf8ByteSize = 4 * ((bytes.length + 2) / 3) ∧
      (∃ sextets, (∀ c ∈ sextets, c ∈ alphabet) ∧
        (Upload.ofBytes mime filename bytes).data.toList =
          sextets ++ List.replicate ((3 - bytes.length % 3) % 3) '=') ∧
      decode? (Upload.ofBytes mime filename bytes).data.toList = some bytes ∧
      (Upload.ofBytes mime filename bytes).size = bytes.length) ∧
    ∀ upload : Upload,
      (upload.size : Int) = max 0 (3 * (upload.data.utf8ByteSize / 4 : Nat) -
        ((Utf8.encode upload.data.toList).reverse.takeWhile (· == 61)).length) ∧
      upload.size ≤ 3 * (upload.data.utf8ByteSize / 4) := by
  constructor
  · intro mime filename bytes
    obtain ⟨sextets, written, among, count⟩ := exists_sextets bytes
    have data : (Upload.ofBytes mime filename bytes).data.toList =
        sextets ++ List.replicate ((3 - bytes.length % 3) % 3) '=' := by
      rw [← written]
      exact String.toList_ofList
    have ascii : ∀ c ∈ sextets ++ List.replicate ((3 - bytes.length % 3) % 3) '=', c.toNat < 0x80 := by
      intro c mem
      rcases List.mem_append.1 mem with mem | mem
      · exact ascii_of_mem_alphabet c (among c mem)
      · rw [List.eq_of_mem_replicate mem]
        decide
    have length : (Upload.ofBytes mime filename bytes).data.utf8ByteSize = 4 * ((bytes.length + 2) / 3) := by
      rw [← Utf8.length_encode_toList, data, Utf8.length_encode ascii, List.length_append,
        List.length_replicate, count]
    refine ⟨length, ⟨sextets, among, data⟩, ?decoded, ?size⟩
    case decoded => rw [data, ← written, decode?_encode]
    case size =>
      rw [Upload.size, decodedLength, length, data, length_trailing_padding among]
      omega
  · intro upload
    have size : upload.size = _ := decodedLength_eq upload.data
    rw [Utf8.length_encode_toList] at size
    omega

end DraftDesk.Base64
