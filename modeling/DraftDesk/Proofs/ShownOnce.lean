import DraftDesk.ConsentNotice
import DraftDesk.Proofs.CookieEntries

/-!
# A notice that is shown once

The cookie that keeps that the notice was shown is looked for by its name among the cookies of a
header. The name is written as it stands, so it is only found again if decoding leaves it as it is.
-/

namespace DraftDesk

namespace CookieHeader

/-- An entry that is another cookie, and is read as it is written. -/
structure OtherCookie (name entry : String) : Prop where
  plain : '%' ∉ entry.toList
  whole : ';' ∉ entry.toList
  other : ¬ (name.toList ++ ['=']) <+: entry.toList.dropWhile (· == ' ')

instance (name entry : String) : Decidable (OtherCookie name entry) :=
  decidable_of_iff ('%' ∉ entry.toList ∧ ';' ∉ entry.toList ∧
      ¬ (name.toList ++ ['=']) <+: entry.toList.dropWhile (· == ' '))
    ⟨fun ⟨plain, whole, other⟩ => ⟨plain, whole, other⟩,
      fun ⟨plain, whole, other⟩ => ⟨plain, whole, other⟩⟩

theorem OtherCookie.found?_eq_none {name entry : String} (h : OtherCookie name entry) :
    found? name entry = none := by
  rw [found?_eq_none_iff, decoded_of_not_mem h.plain, entries_of_not_mem h.whole,
    List.forall_mem_singleton]
  exact h.other

theorem findSome?_others {name : String} {others : List String}
    (other : ∀ entry ∈ others, OtherCookie name entry) : others.findSome? (found? name) = none :=
  List.findSome?_eq_none_iff.2 fun entry mem => (other entry mem).found?_eq_none

end CookieHeader

namespace ConsentNotice
open CookieHeader

/-- The names that a cookie may have. -/
def IsToken (name : String) : Prop :=
  name ≠ "" ∧ ∀ c ∈ name.toList,
    0x21 ≤ c.toNat ∧ c.toNat ≤ 0x7E ∧ c ∉ "()<>@,;:\\\"/[]?=\x7b\x7d".toList

theorem isToken_iff {name : String} : IsToken name ↔ name ≠ "" ∧ (name.toList.all fun c =>
    decide (0x21 ≤ c.toNat ∧ c.toNat ≤ 0x7E ∧ c ∉ "()<>@,;:\\\"/[]?=\x7b\x7d".toList)) = true := by
  simp only [IsToken, List.all_eq_true, decide_eq_true_eq]

instance (name : String) : Decidable (IsToken name) := decidable_of_iff' _ isToken_iff

theorem decoded_own (name : String) : decoded (name ++ "=1") = decoded name ++ ['=', '1'] := by
  have cut : name ++ "=1" = name ++ "=" ++ "1" := by simp [String.ext_iff]
  rw [cut, decoded_append_equals]
  rfl

/-- A name without a code is found, with the value that was written. -/
theorem found?_own {name : String} (token : IsToken name)
    (plain : ¬ PercentCoding.HasCode (Utf8.encode name.toList)) :
    found? name (name ++ "=1") = some ['1'] := by
  obtain ⟨-, visible⟩ := token
  have reads : decoded (name ++ "=1") = name.toList ++ ['=', '1'] := by
    rw [decoded_own, decoded, PercentCoding.decode_of_not_hasCode plain, Utf8.decodeLossy_encode]
  have whole : ';' ∉ name.toList ++ ['=', '1'] := by
    intro inside
    rcases List.mem_append.1 inside with inside | inside
    · exact (visible _ inside).2.2 (by decide)
    · exact absurd inside (by decide)
  have start : name.toList.head? ≠ some ' ' := by
    intro blank
    exact absurd (visible ' ' (List.mem_of_head? blank)).1 (by decide)
  rw [found?_of_decoded reads whole start, Pieces.after?_eq_some_iff, List.append_assoc]
  rfl

/-- A coded byte makes the name that is read too short. -/
theorem found?_own_of_hasCode {name : String} (token : IsToken name)
    (coded : PercentCoding.HasCode (Utf8.encode name.toList)) : found? name (name ++ "=1") = none := by
  have ascii : ∀ c ∈ name.toList, c.toNat < 0x80 := by
    intro c inside
    have visible := token.2 c inside
    omega
  have shorter := PercentCoding.length_decode_of_hasCode coded
  rw [Utf8.length_encode ascii] at shorter
  have characters := Utf8.length_decodeLossy_le (PercentCoding.decode (Utf8.encode name.toList))
  rw [← decoded] at characters
  rw [found?_eq_none_iff]
  intro entry mem whole
  have short := Nat.le_trans whole.length_le (length_le_of_mem_entries mem)
  rw [decoded_own] at short
  simp only [List.length_append, List.length_cons, List.length_nil] at short
  omega

/-! ## The notice -/

variable {before later : List String}

theorem check_eq_none_iff {settings : ConsentNotice} {header : String} {now : Moment} :
    settings.check header now = none ↔ get header settings.cookie ≠ "" := by
  unfold check
  split <;> simp_all

theorem exists_header (name : String) (days : Int) (now : Moment) :
    ∃ rest, (SetCookie.lasting name "1" days now).header = name ++ "=1;" ++ rest := by
  refine ⟨"expires=" ++ (now.addDays days).httpDate ++ ";path=/;SameSite=Strict", ?_⟩
  rw [SetCookie.lasting, SetCookie.header, SetCookie.headerWith]
  generalize (now.addDays days).httpDate = date
  simp [String.ext_iff]

/-- Without its cookie the notice is due, and asks for it. With it, among whatever other ones, it is
due no longer, just where the name of the cookie has no code in it: such a name is written as it
stands, but read decoded. -/
theorem shown_once_iff (settings : ConsentNotice) (token : IsToken settings.cookie) (now : Moment)
    (others : ∀ entry ∈ before ++ later, OtherCookie settings.cookie entry) :
    (∃ notice rest, settings.check ("; ".intercalate (before ++ later)) now = some notice ∧
      notice.message = settings.message ∧
      notice.cookie.header = settings.cookie ++ "=1;" ++ rest) ∧
    (settings.check ("; ".intercalate (before ++ (settings.cookie ++ "=1") :: later)) now = none ↔
      ¬ PercentCoding.HasCode (Utf8.encode settings.cookie.toList)) := by
  have first := findSome?_others fun entry mem => others entry (List.mem_append_left _ mem)
  have last := findSome?_others fun entry mem => others entry (List.mem_append_right _ mem)
  constructor
  · have due : settings.check ("; ".intercalate (before ++ later)) now =
        some ⟨settings.message, .lasting settings.cookie "1" settings.days now⟩ := by
      rw [check, get_intercalate, findSome?_others others]
      rfl
    obtain ⟨rest, header⟩ := exists_header settings.cookie settings.days now
    exact ⟨_, rest, due, rfl, header⟩
  · rw [check_eq_none_iff, get_intercalate, List.findSome?_append, List.findSome?_cons, first, last,
      Option.none_or]
    by_cases coded : PercentCoding.HasCode (Utf8.encode settings.cookie.toList)
    · rw [found?_own_of_hasCode token coded]
      simp [coded]
    · rw [found?_own token coded]
      simp [coded]

/-- The cookie is found between one that comes before it and one whose name begins alike. -/
theorem shown_once_between_two :
    (ConsentNotice.mk "seen" 30 "We use cookies.").check "lang=de; seen=1; seen2=0" ⟨0, false⟩ =
      none := by
  have token : IsToken "seen" := by decide
  have others : ∀ entry ∈ ["lang=de"] ++ ["seen2=0"], OtherCookie "seen" entry := by decide
  have plain : ¬ PercentCoding.HasCode (Utf8.encode "seen".toList) := fun coded =>
    absurd (PercentCoding.mem_of_hasCode coded) (by decide)
  exact (shown_once_iff ⟨"seen", 30, "We use cookies."⟩ token ⟨0, false⟩ others).2.2 plain

/-- A name with a code in it is a token, and its notice is shown again. -/
theorem not_shown_once :
    ¬ ∀ (settings : ConsentNotice) (now : Moment) (before later : List String),
      IsToken settings.cookie →
      (∀ entry ∈ before ++ later, OtherCookie settings.cookie entry) →
      settings.check ("; ".intercalate (before ++ (settings.cookie ++ "=1") :: later)) now = none := by
  intro once
  have shown := once ⟨"%41", 365, "We use cookies."⟩ ⟨0, false⟩ [] [] (by decide) nofun
  rw [check_eq_none_iff] at shown
  exact shown (by decide)

end ConsentNotice

end DraftDesk
