import DraftDesk.CookieHeader
import DraftDesk.Proofs.PercentDecoding
import DraftDesk.Proofs.Utf8Texts

/-!
# The entries of a cookie header

A header is decoded as a whole before it is cut. A semicolon and an equals sign are never part of a
code, so the entries of a header are those of its cookies, each decoded for itself, and a header is
searched cookie by cookie (`get_intercalate`).
-/

namespace DraftDesk

namespace CookieHeader
open Pieces

/-! ## Decoding a header -/

theorem decoded_of_not_mem {header : String} (plain : '%' ∉ header.toList) :
    decoded header = header.toList := by
  have signs := Utf8.ne_of_mem_encode (by decide) plain
  have none : ¬ PercentCoding.HasCode (Utf8.encode header.toList) := fun coded =>
    signs 37 (PercentCoding.mem_of_hasCode coded) rfl
  rw [decoded, PercentCoding.decode_of_not_hasCode none, Utf8.decodeLossy_encode]

/-- A header can be cut at a character that is never part of a code. -/
theorem decoded_append {c : Char} (ascii : c.toNat < 0x80) (sign : c ≠ '%')
    (digit : Hexadecimal.value? c.toNat = none) (a b : String) :
    decoded (a ++ String.singleton c ++ b) = decoded a ++ c :: decoded b := by
  have byte : (UInt8.ofNat c.toNat).toNat = c.toNat := Utf8.toNat_ofNat rfl (by omega)
  have whole : Utf8.encode (a ++ String.singleton c ++ b).toList =
      Utf8.encode a.toList ++ UInt8.ofNat c.toNat :: Utf8.encode b.toList := by
    rw [String.toList_append, String.toList_append, String.toList_singleton, Utf8.encode_append,
      Utf8.encode_append, Utf8.encode_singleton ascii, List.append_assoc, List.singleton_append]
  have plain : UInt8.ofNat c.toNat ≠ 37 := by
    intro same
    rw [same] at byte
    exact sign (Char.ext (UInt32.toNat_inj.1 byte.symm))
  rw [decoded, whole, PercentCoding.decode_append_cons plain (byte.symm ▸ digit),
    Utf8.decodeLossy_append_ascii (byte.symm ▸ ascii), byte, Char.ofNat_toNat, ← decoded, ← decoded]

/-! ## Entries -/

theorem entries_append (xs ys : List Char) :
    entries (xs ++ ';' :: ' ' :: ys) = entries xs ++ entries ys := by
  have blank : entries (' ' :: ys) = entries ys := by
    obtain ⟨first, others, front⟩ := List.exists_cons_of_ne_nil (split_ne_nil (· == ';') ys)
    simp [entries, split, front]
  rw [← blank, entries, split_append_cons_self, List.map_append, ← entries, ← entries]

theorem entries_of_not_mem {text : List Char} (whole : ';' ∉ text) :
    entries text = [text.dropWhile (· == ' ')] := by
  rw [entries, split_of_not_mem whole]
  rfl

theorem length_le_of_mem_entries {text entry : List Char} (mem : entry ∈ entries text) :
    entry.length ≤ text.length := by
  obtain ⟨piece, among, rfl⟩ := List.mem_map.1 mem
  exact ((List.dropWhile_sublist _).trans (sublist_of_mem_split among)).length_le

theorem decoded_append_separator (a b : String) :
    decoded (a ++ "; " ++ b) = decoded a ++ ';' :: ' ' :: decoded b := by
  have cut : a ++ "; " ++ b = a ++ String.singleton ';' ++ ("" ++ String.singleton ' ' ++ b) := by
    simp [String.ext_iff]
  rw [cut, decoded_append (by decide) (by decide) (by decide),
    decoded_append (by decide) (by decide) (by decide)]
  rfl

theorem decoded_append_equals (name value : String) :
    decoded (name ++ "=" ++ value) = decoded name ++ '=' :: decoded value :=
  decoded_append (c := '=') (by decide) (by decide) (by decide) name value

/-- The entries of a header are those of its cookies. -/
theorem entries_decoded_intercalate {cookies : List String} (some : cookies ≠ []) :
    entries (decoded ("; ".intercalate cookies)) =
      cookies.flatMap fun cookie => entries (decoded cookie) := by
  induction cookies with
  | nil => exact absurd rfl some
  | cons cookie cookies ih =>
    by_cases last : cookies = []
    · rw [last, String.intercalate_singleton, List.flatMap_singleton]
    · rw [String.intercalate_cons_of_ne_nil last, decoded_append_separator, entries_append, ih last,
        List.flatMap_cons]

/-! ## Looking for a name -/

/-- What follows a name in the entries of one cookie. -/
def found? (name cookie : String) : Option (List Char) :=
  (entries (decoded cookie)).findSome? (after? (name.toList ++ ['=']))

theorem found?_eq_none_iff {name cookie : String} :
    found? name cookie = none ↔
      ∀ entry ∈ entries (decoded cookie), ¬ (name.toList ++ ['=']) <+: entry := by
  rw [found?, List.findSome?_eq_none_iff]
  refine forall₂_congr fun entry _ => ?_
  rw [Option.eq_none_iff_forall_ne_some]
  constructor
  · rintro absent ⟨rest, whole⟩
    exact absent rest (after?_eq_some_iff.2 whole.symm)
  · intro absent rest found
    exact absent ⟨rest, (after?_eq_some_iff.1 found).symm⟩

/-- A header is searched cookie by cookie. -/
theorem get_intercalate (name : String) (cookies : List String) :
    get ("; ".intercalate cookies) name =
      String.ofList ((cookies.findSome? (found? name)).getD []) := by
  have each : (cookies.flatMap fun cookie => entries (decoded cookie)).findSome?
      (after? (name.toList ++ ['='])) = cookies.findSome? (found? name) := by
    induction cookies with
    | nil => rfl
    | cons cookie cookies ih =>
      rw [List.flatMap_cons, List.findSome?_append, ih, List.findSome?_cons, ← found?]
      cases found? name cookie <;> rfl
  by_cases empty : cookies = []
  · have nothing : entries (decoded ("; ".intercalate [])) = [[]] := by rfl
    have absent : after? (name.toList ++ ['=']) [] = none := by cases name.toList <;> rfl
    rw [empty, get, nothing, List.findSome?_singleton, absent]
    rfl
  · rw [get, entries_decoded_intercalate empty, each]

/-- A cookie is searched for the wanted name at the beginning of what it reads as. -/
theorem found?_of_decoded {wanted cookie : String} {name value : List Char}
    (reads : decoded cookie = name ++ '=' :: value) (whole : ';' ∉ name ++ '=' :: value)
    (start : name.head? ≠ some ' ') :
    found? wanted cookie = after? (wanted.toList ++ ['=']) (name ++ '=' :: value) := by
  have first : (name ++ '=' :: value).dropWhile (· == ' ') = name ++ '=' :: value := by
    cases name with
    | nil => rfl
    | cons c cs =>
      have blank : c ≠ ' ' := by simpa using start
      simp [blank]
  rw [found?, reads, entries_of_not_mem whole, first, List.findSome?_singleton]

end CookieHeader

end DraftDesk
