import DraftDesk.Proofs.CookieEntries
import DraftDesk.Requests

/-!
# Cookies with coded values

A header whose values are percent-coded lists them as they are: decoding runs over the whole header,
but puts back exactly what was coded, and only a semicolon could cut a cookie in two. The first equals
sign ends the name, so a name is not taken for the beginning of another one, nor found in a value.
-/

namespace DraftDesk.CookieHeader
open Pieces

variable {name value wanted : String}

/-- A cookie whose value is coded. -/
def codedCookie (name value : String) : String := name ++ "=" ++ percentEncoded value

/-- A name that can stand in a header, with a value that is no two entries. -/
structure FitsHeader (name value : String) : Prop where
  semicolon : ';' ∉ name.toList
  equals : '=' ∉ name.toList
  percent : '%' ∉ name.toList
  blank : name.toList.head? ≠ some ' '
  value : ';' ∉ value.toList

instance (name value : String) : Decidable (FitsHeader name value) :=
  decidable_of_iff (';' ∉ name.toList ∧ '=' ∉ name.toList ∧ '%' ∉ name.toList ∧
      name.toList.head? ≠ some ' ' ∧ ';' ∉ value.toList)
    ⟨fun ⟨semicolon, equals, percent, blank, value⟩ => ⟨semicolon, equals, percent, blank, value⟩,
      fun ⟨semicolon, equals, percent, blank, value⟩ => ⟨semicolon, equals, percent, blank, value⟩⟩

/-- A coded text is decoded to itself. -/
theorem decoded_percentEncoded (value : String) : decoded (percentEncoded value) = value.toList := by
  rw [decoded, percentEncoded, String.toList_ofList, PercentCoding.decode_encode, Utf8.decodeLossy_encode]

theorem decoded_codedCookie (fits : FitsHeader name value) :
    decoded (codedCookie name value) = name.toList ++ '=' :: value.toList := by
  rw [codedCookie, decoded_append_equals, decoded_of_not_mem fits.percent, decoded_percentEncoded]

/-- A name ends at the first equals sign. -/
theorem after?_name_eq (plain : '=' ∉ wanted.toList) (equals : '=' ∉ name.toList) (rest : List Char) :
    after? (wanted.toList ++ ['=']) (name.toList ++ '=' :: rest) =
      if name = wanted then some rest else none := by
  split
  · next same =>
    rw [same, after?_eq_some_iff, List.append_assoc]
    rfl
  · next different =>
    rw [Option.eq_none_iff_forall_ne_some]
    intro other found
    have left := cut_append_cons_self equals rest
    have right := cut_append_cons_self plain other
    rw [after?_eq_some_iff.1 found, List.append_assoc, List.singleton_append, right] at left
    exact different (String.toList_inj.1 (Prod.mk.inj left).1.symm)

theorem found?_codedCookie (fits : FitsHeader name value) (plain : '=' ∉ wanted.toList) :
    found? wanted (codedCookie name value) = if name = wanted then some value.toList else none := by
  have whole : ';' ∉ name.toList ++ '=' :: value.toList := by
    simpa using ⟨fits.semicolon, fits.value⟩
  rw [found?_of_decoded (decoded_codedCookie fits) whole fits.blank, after?_name_eq plain fits.equals]

/-- The first cookie with a name is the one that is found. -/
theorem findSome?_codedCookies {cookies : List (String × String)}
    (fits : ∀ cookie ∈ cookies, FitsHeader cookie.1 cookie.2) (plain : '=' ∉ wanted.toList) :
    (cookies.findSome? fun cookie => found? wanted (codedCookie cookie.1 cookie.2)) =
      (cookies.find? (·.1 == wanted)).map (·.2.toList) := by
  induction cookies with
  | nil => rfl
  | cons cookie cookies ih =>
    have rest := ih fun other mem => fits other (List.mem_cons_of_mem _ mem)
    rw [List.findSome?_cons, found?_codedCookie (fits cookie (List.mem_cons_self ..)) plain, rest]
    by_cases same : cookie.1 = wanted
    · simp [same]
    · simp [same]

/-- A header of cookies with coded values gives for a name the value of the first cookie with it, and
the empty text if there is none. -/
theorem get_of_coded_cookies (cookies : List (String × String))
    (fits : ∀ cookie ∈ cookies, FitsHeader cookie.1 cookie.2) (wanted : String)
    (plain : '=' ∉ wanted.toList) :
    get ("; ".intercalate (cookies.map fun cookie => codedCookie cookie.1 cookie.2)) wanted =
      ((cookies.find? (·.1 == wanted)).map Prod.snd).getD "" := by
  rw [get_intercalate, List.findSome?_map]
  have found := findSome?_codedCookies fits plain
  rw [Function.comp_def, found]
  cases cookies.find? (·.1 == wanted) with
  | none => rfl
  | some cookie => exact String.ofList_toList

/-- A value with an equals sign, a percent sign and a text like another cookie in it is found behind a
cookie whose name begins alike, and before one with the same name. -/
theorem get_of_coded_cookies_alike :
    get "na=1; name=100%25%20%3D%20J%C3%B6rg%2C%20na%3D2; name=%F0%9F%98%80" "name" =
      "100% = Jörg, na=2" := by
  have fits : ∀ cookie ∈ [("na", "1"), ("name", "100% = Jörg, na=2"), ("name", "😀")],
      FitsHeader cookie.1 cookie.2 := by decide
  have found := get_of_coded_cookies _ fits "name" (by decide)
  have header : "; ".intercalate ([("na", "1"), ("name", "100% = Jörg, na=2"), ("name", "😀")].map
      fun cookie => codedCookie cookie.1 cookie.2) =
        "na=1; name=100%25%20%3D%20J%C3%B6rg%2C%20na%3D2; name=%F0%9F%98%80" := by decide
  rw [← header, found]
  rfl

end DraftDesk.CookieHeader
