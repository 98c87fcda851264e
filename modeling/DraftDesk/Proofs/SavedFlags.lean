import DraftDesk.FlagFile
import DraftDesk.Proofs.FilePlaces
import DraftDesk.Proofs.Utf8Texts

/-!
# Flags kept in a file

A value is written as it stands, after the name of its flag and a blank, and is read back from the
tokens of the file. No token has white space in it, and a lifetime is only taken if it is accepted,
so nothing else can be read back. What is left is a cookie without a name: its flag takes the next
token for the name, or is no flag at all.
-/

namespace DraftDesk

namespace FlagToken

/-- Every name of a flag has an `e` in it. -/
theorem ofString_eq_other {token : String} (plain : 'e' ∉ token.toList) : ofString token = .other := by
  have name : 'e' ∉ (parts token).1.toList := by
    rw [parts, String.toList_ofList]
    exact fun inside => plain ((List.takeWhile_sublist _).subset inside)
  unfold ofString
  split
  · next same =>
    rw [same] at plain
    exact absurd (by decide) plain
  split
  · next same =>
    rw [same] at name
    exact absurd (by decide : 'e' ∈ "--consent-cookie".toList) name
  · next same =>
    rw [same] at name
    exact absurd (by decide : 'e' ∈ "--consent-days".toList) name
  · rfl

end FlagToken

namespace Flags

/-- Flags that can be written as tokens. -/
structure FitsTokens (flags : Flags) : Prop where
  cookie : ∀ cookie, flags.consentCookie = some cookie →
    cookie ≠ "" ∧ ∀ c ∈ cookie.toList, isWhiteSpace c = false
  days : ∀ days, flags.consentDays = some days → 0 ≤ days ∧ days ≤ 36500

theorem fitsTokens_iff {flags : Flags} : flags.FitsTokens ↔
    (flags.consentCookie.all fun cookie => cookie != "" && !cookie.toList.any isWhiteSpace) = true ∧
      (flags.consentDays.all fun days => 0 ≤ days && days ≤ 36500) = true := by
  simp only [Option.all_eq_true, Bool.and_eq_true, bne_iff_ne, Bool.not_eq_true', List.any_eq_false,
    Bool.not_eq_true, decide_eq_true_eq]
  exact ⟨fun h => ⟨h.cookie, h.days⟩, fun h => ⟨h.1, h.2⟩⟩

instance (flags : Flags) : Decidable flags.FitsTokens := decidable_of_iff' _ fitsTokens_iff

/-! ## What can be read -/

/-- Flags that can be read from tokens without white space. -/
structure Readable (flags : Flags) : Prop where
  cookie : ∀ cookie, flags.consentCookie = some cookie → ∀ c ∈ cookie.toList, isWhiteSpace c = false
  days : ∀ days, flags.consentDays = some days → 0 ≤ days ∧ days ≤ 36500

theorem bounds_of_days? {text : String} {days : Int} (h : days? text = some days) :
    0 ≤ days ∧ days ≤ 36500 := by
  obtain ⟨-, accepted⟩ := Option.filter_eq_some_iff.1 h
  exact of_decide_eq_true accepted

/-- A lifetime that is accepted is read back from its digits. -/
theorem days?_ofInt {days : Int} (accepted : 0 ≤ days ∧ days ≤ 36500) :
    days? (String.ofList (Decimal.ofInt days)) = some days := by
  rw [days?, String.toList_ofList, Decimal.signed?_ofInt]
  exact Option.filter_eq_some_iff.2 ⟨rfl, decide_eq_true accepted⟩

theorem isSuffix_of_ofString {token value : String} {flag : ValuedFlag}
    (h : FlagToken.ofString token = .valued flag (some value)) : value.toList <:+ token.toList := by
  have behind : ∀ name, FlagToken.parts token = (name, some value) → value.toList <:+ token.toList := by
    intro name parts
    obtain ⟨rest, after, rfl⟩ := Option.map_eq_some_iff.1 (congrArg Prod.snd parts)
    rw [String.toList_ofList]
    exact Pieces.isSuffix_of_cut after
  unfold FlagToken.ofString at h
  split at h
  · cases h
  split at h
  · next parts =>
    cases h
    exact behind _ parts
  · next parts =>
    cases h
    exact behind _ parts
  · cases h

/-- A value is a token or the end of one. -/
theorem exists_token_of_mem_items {tokens : List String} {flag : ValuedFlag} {value : String}
    (mem : FlagItem.valued flag value ∈ items tokens) :
    ∃ token ∈ tokens, value.toList <:+ token.toList := by
  fun_induction items tokens with
  | case1 => cases mem
  | case2 token tokens isDebug ih =>
    obtain ⟨token, among, ends⟩ := ih (by simpa using mem)
    exact ⟨token, List.mem_cons_of_mem _ among, ends⟩
  | case3 token tokens other here isValued ih =>
    rcases List.mem_cons.1 mem with same | mem
    · cases same
      exact ⟨token, List.mem_cons_self .., isSuffix_of_ofString isValued⟩
    · obtain ⟨token, among, ends⟩ := ih mem
      exact ⟨token, List.mem_cons_of_mem _ among, ends⟩
  | case4 token other here bare isValued next tokens ih =>
    rcases List.mem_cons.1 mem with same | mem
    · cases same
      exact ⟨value, by simp, List.suffix_rfl⟩
    · obtain ⟨token, among, ends⟩ := ih mem
      exact ⟨token, by simp [among], ends⟩
  | case5 => cases mem
  | case6 token tokens isOther ih =>
    obtain ⟨token, among, ends⟩ := ih mem
    exact ⟨token, List.mem_cons_of_mem _ among, ends⟩

theorem Readable.read {flags : Flags} (h : flags.Readable) {item : FlagItem}
    (plain : ∀ flag value, item = .valued flag value → ∀ c ∈ value.toList, isWhiteSpace c = false) :
    (flags.read item).Readable := by
  match item with
  | .debug => exact ⟨h.cookie, h.days⟩
  | .valued .consentCookie value =>
    refine ⟨?_, h.days⟩
    rintro _ ⟨⟩
    exact plain .consentCookie value rfl
  | .valued .consentDays value => exact ⟨h.cookie, fun days taken => bounds_of_days? taken⟩

theorem Readable.foldl {flags : Flags} (h : flags.Readable) {read : List FlagItem}
    (plain : ∀ flag value, FlagItem.valued flag value ∈ read →
      ∀ c ∈ value.toList, isWhiteSpace c = false) :
    (read.foldl Flags.read flags).Readable := by
  induction read generalizing flags with
  | nil => exact h
  | cons item read ih =>
    apply ih
    · exact h.read fun flag value here => plain flag value (here ▸ List.mem_cons_self ..)
    · exact fun flag value among => plain flag value (List.mem_cons_of_mem _ among)

/-- Only what is readable comes from tokens without white space. -/
theorem readable_ofTokens {tokens : List String}
    (plain : ∀ token ∈ tokens, ∀ c ∈ token.toList, isWhiteSpace c = false) :
    (ofTokens tokens).Readable := by
  have start : empty.Readable := ⟨nofun, nofun⟩
  apply start.foldl
  intro flag value mem c inside
  obtain ⟨token, among, ends⟩ := exists_token_of_mem_items mem
  exact plain token among c (ends.subset inside)

/-! ## Reading what was written -/

theorem items_debug (tokens : List String) : items ("--debug" :: tokens) = .debug :: items tokens := by
  have debug : FlagToken.ofString "--debug" = .debug := by rfl
  rw [items, debug]

theorem items_consentCookie (value : String) (tokens : List String) :
    items ("--consent-cookie" :: value :: tokens) = .valued .consentCookie value :: items tokens := by
  have bare : FlagToken.ofString "--consent-cookie" = .valued .consentCookie none := by rfl
  rw [items, bare]

theorem items_consentDays (value : String) (tokens : List String) :
    items ("--consent-days" :: value :: tokens) = .valued .consentDays value :: items tokens := by
  have bare : FlagToken.ofString "--consent-days" = .valued .consentDays none := by rfl
  rw [items, bare]

/-- The tokens of some flags, with those of the cookie as they are given. -/
def spelled (flags : Flags) (cookie : List String) : List String :=
  (if flags.debug then ["--debug"] else []) ++
    (if flags.consentCookie.isSome then "--consent-cookie" :: cookie else []) ++
    (flags.consentDays.elim [] fun days => ["--consent-days", String.ofList (Decimal.ofInt days)])

/-- A cookie that is one token is read back, and so are the other flags. -/
theorem ofTokens_spelled {flags : Flags}
    (accepted : ∀ days, flags.consentDays = some days → 0 ≤ days ∧ days ≤ 36500) :
    ofTokens (flags.spelled flags.consentCookie.toList) = flags := by
  obtain ⟨debug, cookie, days⟩ := flags
  have nothing : items [] = [] := by rw [items]
  have lifetime : ∀ n, days = some n → days? (String.ofList (Decimal.ofInt n)) = some n :=
    fun n given => days?_ofInt (accepted n given)
  cases debug <;> cases cookie <;> cases days <;>
    simp_all [ofTokens, spelled, items_debug, items_consentCookie, items_consentDays, empty,
      Flags.read]

theorem items_ofInt (days : Int) : items [String.ofList (Decimal.ofInt days)] = [] := by
  have plain : 'e' ∉ Decimal.ofInt days := by
    intro inside
    cases days with
    | ofNat n => exact absurd (Decimal.isDigit_of_mem_digits inside) (by decide)
    | negSucc n =>
      rcases List.mem_cons.1 inside with sign | inside
      · exact absurd sign (by decide)
      · exact absurd (Decimal.isDigit_of_mem_digits inside) (by decide)
  rw [items, FlagToken.ofString_eq_other (by rwa [String.toList_ofList])]
  rfl

/-- A flag for a cookie without a name takes the next token, or is none. -/
theorem ofTokens_spelled_nil_ne {flags : Flags} (cookie : flags.consentCookie = some "") :
    ofTokens (flags.spelled []) ≠ flags := by
  obtain ⟨debug, _, days⟩ := flags
  cases cookie
  intro same
  have cookie := congrArg consentCookie same
  have lifetime := congrArg consentDays same
  cases days with
  | none =>
    have nothing : items ["--consent-cookie"] = [] := by rfl
    cases debug <;> simp [ofTokens, spelled, items_debug, nothing, empty, Flags.read] at cookie
  | some days =>
    -- The name of the next flag becomes the cookie, and its number is left over.
    have taken : ofTokens (spelled ⟨debug, some "", some days⟩ []) =
        ⟨debug, some "--consent-days", none⟩ := by
      cases debug <;>
        simp [ofTokens, spelled, items_debug, items_consentCookie, items_ofInt, empty, Flags.read]
    rw [taken] at lifetime
    cases lifetime

end Flags

namespace FlagFile
open Pieces

/-! ## The tokens of a file -/

theorem isWhiteSpace_of_isDigit {c : Char} (digit : c.isDigit = true) : isWhiteSpace c = false := by
  have bounds : 48 ≤ c.toNat ∧ c.toNat ≤ 57 := by
    simpa [Char.isDigit, UInt32.le_iff_toNat_le] using digit
  simp only [isWhiteSpace, Bool.or_eq_false_iff, Bool.and_eq_false_imp, decide_eq_true_eq,
    decide_eq_false_iff_not, Nat.not_le, beq_eq_false_iff_ne, ne_eq]
  omega

theorem isWhiteSpace_of_mem_ofInt {n : Int} {c : Char} (mem : c ∈ Decimal.ofInt n) :
    isWhiteSpace c = false := by
  cases n with
  | ofNat n => exact isWhiteSpace_of_isDigit (Decimal.isDigit_of_mem_digits mem)
  | negSucc n =>
    rcases List.mem_cons.1 mem with rfl | mem
    · rfl
    · exact isWhiteSpace_of_isDigit (Decimal.isDigit_of_mem_digits mem)

theorem words_ofInt (n : Int) : words isWhiteSpace (Decimal.ofInt n) = [Decimal.ofInt n] := by
  apply words_of_forall
  · exact fun c mem => isWhiteSpace_of_mem_ofInt mem
  · cases n with
    | ofNat n => exact Decimal.digits_ne_nil n
    | negSucc n => exact List.cons_ne_nil _ _

/-- The tokens of a line that is a flag and its value. -/
theorem lineTokens_flag {name : List Char} (value : List Char) (full : name ≠ [])
    (plain : name.any isWhiteSpace = false) (flag : name.head? ≠ some '#') :
    lineTokens (name ++ ' ' :: value) =
      String.ofList name :: (words isWhiteSpace value).map String.ofList := by
  have blank : isWhiteSpace ' ' = true := by rfl
  have whole : ∀ c ∈ name, isWhiteSpace c = false := by simpa using plain
  rw [lineTokens, words_append_cons blank, words_of_forall whole full]
  split
  · next rest front =>
    cases front
    exact absurd rfl flag
  · rfl

/-- Lines of a file are read one by one. -/
theorem tokens_append_newline (xs ys : List Char) :
    tokens (xs ++ '\n' :: ys) = tokens xs ++ tokens ys := by
  rw [tokens, split_append_cons_self, List.flatMap_append, ← tokens, ← tokens]

theorem tokens_flatMap (texts : List (List Char)) :
    tokens (texts.flatMap (· ++ ['\n'])) = texts.flatMap tokens := by
  induction texts with
  | nil => rfl
  | cons text texts ih =>
    rw [List.flatMap_cons, List.append_assoc, List.singleton_append, tokens_append_newline, ih,
      List.flatMap_cons]

theorem tokens_of_not_mem {line : List Char} (whole : '\n' ∉ line) : tokens line = lineTokens line := by
  rw [tokens, split_of_not_mem whole, List.flatMap_singleton]

theorem isWhiteSpace_of_mem_tokens {text : List Char} :
    ∀ token ∈ tokens text, ∀ c ∈ token.toList, isWhiteSpace c = false := by
  intro token mem c inside
  obtain ⟨line, -, mem⟩ := List.mem_flatMap.1 mem
  unfold lineTokens at mem
  split at mem
  · cases mem
  · obtain ⟨word, among, rfl⟩ := List.mem_map.1 mem
    rw [String.toList_ofList] at inside
    exact (of_mem_words among).2 c inside

theorem tokens_flag {name value : List Char} (full : name ≠ [])
    (plain : name.any isWhiteSpace = false) (flag : name.head? ≠ some '#') (whole : '\n' ∉ value) :
    tokens (name ++ ' ' :: value) =
      String.ofList name :: (words isWhiteSpace value).map String.ofList := by
  have unbroken : '\n' ∉ name ++ ' ' :: value := by
    intro inside
    rcases List.mem_append.1 inside with inside | inside
    · exact List.any_eq_false.1 plain _ inside rfl
    · exact whole ((List.mem_cons.1 inside).resolve_left (by decide))
  rw [tokens_of_not_mem unbroken, lineTokens_flag value full plain flag]

theorem tokens_consentCookie {cookie : String} (whole : '\n' ∉ cookie.toList) :
    tokens ("--consent-cookie " ++ cookie).toList =
      "--consent-cookie" :: (words isWhiteSpace cookie.toList).map String.ofList := by
  have line : ("--consent-cookie " ++ cookie).toList =
      "--consent-cookie".toList ++ ' ' :: cookie.toList := by
    rw [String.toList_append]
    rfl
  rw [line, tokens_flag (by decide) (by decide) (by decide) whole, String.ofList_toList]

theorem tokens_consentDays (days : Int) :
    tokens ("--consent-days " ++ String.ofList (Decimal.ofInt days)).toList =
      ["--consent-days", String.ofList (Decimal.ofInt days)] := by
  have digits : (String.ofList (Decimal.ofInt days)).toList = Decimal.ofInt days := String.toList_ofList
  have line : ("--consent-days " ++ String.ofList (Decimal.ofInt days)).toList =
      "--consent-days".toList ++ ' ' :: Decimal.ofInt days := by
    rw [String.toList_append, digits]
    rfl
  have whole : '\n' ∉ Decimal.ofInt days := fun inside =>
    absurd (isWhiteSpace_of_mem_ofInt inside) (by decide)
  rw [line, tokens_flag (by decide) (by decide) (by decide) whole, String.ofList_toList, words_ofInt]
  rfl

/-- The tokens that a file has for the cookie: those of its flag and of its name. -/
def cookieTokens (flags : Flags) : List String :=
  flags.consentCookie.elim [] fun cookie => tokens ("--consent-cookie " ++ cookie).toList

/-- A file has the tokens of its lines. -/
theorem tokens_render (flags : Flags) :
    tokens (render flags) =
      (if flags.debug then ["--debug"] else []) ++ cookieTokens flags ++
        flags.consentDays.elim [] fun days =>
          ["--consent-days", String.ofList (Decimal.ofInt days)] := by
  have title : tokens "# markpen defaults (saved with --save)".toList = [] := by rfl
  have debug : tokens "--debug".toList = ["--debug"] := by rfl
  have each : render flags = ((lines flags).map String.toList).flatMap (· ++ ['\n']) := by
    rw [render, List.flatMap_map]
  rw [each, tokens_flatMap, List.flatMap_map]
  obtain ⟨debugging, cookie, days⟩ := flags
  cases debugging <;> cases cookie <;> cases days <;>
    simp only [lines, cookieTokens, List.flatMap_append, List.flatMap_cons, List.flatMap_nil, title,
      debug, tokens_consentDays, Option.map_some, Option.map_none, Option.toList_some,
      Option.toList_none, Option.elim_some, Option.elim_none, if_true, if_false, Bool.false_eq_true,
      List.append_nil, List.nil_append]

theorem tokens_render_of_whole {flags : Flags}
    (whole : ∀ cookie, flags.consentCookie = some cookie → '\n' ∉ cookie.toList) :
    tokens (render flags) = flags.spelled (flags.consentCookie.elim [] fun cookie =>
      (words isWhiteSpace cookie.toList).map String.ofList) := by
  have cookie : cookieTokens flags =
      if flags.consentCookie.isSome then
        "--consent-cookie" :: flags.consentCookie.elim [] fun cookie =>
          (words isWhiteSpace cookie.toList).map String.ofList
      else [] := by
    cases given : flags.consentCookie with
    | none =>
      rw [cookieTokens, given]
      rfl
    | some name =>
      rw [cookieTokens, given, Option.elim_some, tokens_consentCookie (whole name given)]
      rfl
  rw [tokens_render, cookie, Flags.spelled]

/-- Flags are read back from the text of their file just where they can be written as tokens. -/
theorem ofTokens_render_eq_iff (flags : Flags) :
    Flags.ofTokens (tokens (render flags)) = flags ↔ flags.FitsTokens := by
  constructor
  · intro same
    have readable : flags.Readable := same ▸ Flags.readable_ofTokens isWhiteSpace_of_mem_tokens
    refine ⟨fun cookie given => ⟨?_, readable.cookie cookie given⟩, readable.days⟩
    rintro rfl
    have whole : ∀ cookie, flags.consentCookie = some cookie → '\n' ∉ cookie.toList := by
      intro cookie other inside
      exact absurd (readable.cookie cookie other _ inside) (by decide)
    rw [tokens_render_of_whole whole, given] at same
    exact Flags.ofTokens_spelled_nil_ne given same
  · rintro ⟨cookie, days⟩
    have one : (flags.consentCookie.elim [] fun cookie =>
        (words isWhiteSpace cookie.toList).map String.ofList) = flags.consentCookie.toList := by
      cases given : flags.consentCookie with
      | none => rfl
      | some name =>
        obtain ⟨full, plain⟩ := cookie name given
        rw [Option.elim_some, words_of_forall plain (by simpa using full), List.map_singleton,
          String.ofList_toList]
        rfl
    rw [tokens_render_of_whole, one, Flags.ofTokens_spelled days]
    intro name given inside
    exact absurd ((cookie name given).2 _ inside) (by decide)

end FlagFile

end DraftDesk
