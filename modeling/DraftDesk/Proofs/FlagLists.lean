import DraftDesk.Proofs.SavedFlags

/-!
# Lists of flags

A flag takes its value wherever the value stands, so a list of tokens can be cut in two where no
flag waits for its value (`items_append`), and each lifetime that is read stands at such a place
(`mem_items_iff_spelled`). What the second part sets counts before what the first one does
(`ofTokens_append`), and so does a lifetime in it that is not accepted: it is not passed over, but
takes away the lifetime before it.
-/

namespace DraftDesk

/-- What a token can be that waits for no value. -/
theorem FlagToken.cases_of_alone {token : String}
    (alone : ∀ flag, ofString token ≠ .valued flag none) :
    ofString token = .debug ∨ ofString token = .other ∨
      ∃ flag value, ofString token = .valued flag (some value) := by
  cases kind : ofString token with
  | debug => exact .inl rfl
  | other => exact .inr (.inl rfl)
  | valued flag value =>
    cases value with
    | some value => exact .inr (.inr ⟨flag, value, rfl⟩)
    | none => exact absurd kind (alone flag)

namespace Flags

/-- The list does not end in a flag that still waits for its value. -/
def complete : List String → Bool
  | [] => true
  | token :: tokens =>
    match FlagToken.ofString token with
    | .valued _ none =>
      match tokens with
      | _ :: tokens => complete tokens
      | [] => false
    | _ => complete tokens

theorem complete_cons {token : String}
    (alone : ∀ flag, FlagToken.ofString token ≠ .valued flag none) (tokens : List String) :
    complete (token :: tokens) = complete tokens := by
  rw [complete.eq_def]
  rcases FlagToken.cases_of_alone alone with kind | kind | ⟨flag, value, kind⟩ <;> simp [kind]

theorem complete_cons_cons {token : String} {flag : ValuedFlag}
    (waits : FlagToken.ofString token = .valued flag none) (value : String) (tokens : List String) :
    complete (token :: value :: tokens) = complete tokens := by
  rw [complete, waits]

/-- A lifetime is given, accepted or not. -/
def givesDays (list : List FlagItem) : Bool :=
  list.any fun
    | .valued .consentDays _ => true
    | _ => false

/-! ## Two lists in a row -/

theorem complete_append {a : List String} (whole : complete a = true) (b : List String) :
    complete (a ++ b) = complete b := by
  fun_induction complete a with
  | case1 => rfl
  | case2 token flag waits value tokens ih =>
    rw [List.cons_append, List.cons_append, complete_cons_cons waits, ih whole]
  | case3 => cases whole
  | case4 token tokens alone ih => rw [List.cons_append, complete_cons alone, ih whole]

theorem items_append {a : List String} (whole : complete a = true) (b : List String) :
    items (a ++ b) = items a ++ items b := by
  fun_induction complete a with
  | case1 => simp [items]
  | case2 token flag waits value tokens ih => simp [items, waits, ih whole]
  | case3 => cases whole
  | case4 token tokens alone ih =>
    have rest := ih whole
    rcases FlagToken.cases_of_alone alone with kind | kind | ⟨flag, value, kind⟩ <;>
      simp [items, kind, rest]

/-- Flags that are read after others count before them, and so do lifetimes that are not accepted. -/
theorem foldl_read (flags : Flags) (list : List FlagItem) :
    list.foldl read flags =
      { flags.union (list.foldl read empty) with
        consentDays :=
          if givesDays list then (list.foldl read empty).consentDays else flags.consentDays } := by
  -- The latest flag decides, so the list grows at its end.
  induction list using List.reverseRecOn with
  | nil => simp [givesDays]
  | append_singleton list item ih =>
    rw [List.foldl_append, List.foldl_append, ih]
    match item with
    | .debug => simp [read, union, givesDays]
    | .valued .consentCookie value => simp [read, union, givesDays]
    | .valued .consentDays value => simp [read, union, givesDays]

theorem ofTokens_append {a : List String} (whole : complete a = true) (b : List String) :
    ofTokens (a ++ b) =
      { (ofTokens a).union (ofTokens b) with
        consentDays :=
          if givesDays (items b) then (ofTokens b).consentDays else (ofTokens a).consentDays } := by
  rw [ofTokens, items_append whole, List.foldl_append, foldl_read]
  rfl

theorem consentDays_of_not_givesDays {tokens : List String}
    (silent : givesDays (items tokens) = false) : (ofTokens tokens).consentDays = none := by
  rw [ofTokens, foldl_read, silent]
  rfl

end Flags

/-! ## Tokens of the lifetime -/

namespace FlagToken

theorem eq_of_parts {token name : String} (parted : parts token = (name, none)) : token = name := by
  unfold parts at parted
  rcases cut : Pieces.cut (· == '=') token.toList with ⟨before, behind⟩
  rw [cut, Prod.mk.injEq, Option.map_eq_none_iff] at parted
  obtain ⟨rfl, rfl⟩ := parted
  rw [← Pieces.eq_of_cut_none cut, String.ofList_toList]

/-- A name and a value stand on the two sides of the first equals sign. -/
theorem parts_eq_some_iff {token name value : String} (plain : '=' ∉ name.toList) :
    parts token = (name, some value) ↔ token = name ++ "=" ++ value := by
  constructor
  · intro parted
    unfold parts at parted
    rcases cut : Pieces.cut (· == '=') token.toList with ⟨before, behind⟩
    rw [cut, Prod.mk.injEq, Option.map_eq_some_iff] at parted
    obtain ⟨rfl, rest, rfl, rfl⟩ := parted
    obtain ⟨c, sign, whole⟩ := Pieces.of_cut cut
    obtain rfl : c = '=' := by simpa using sign
    apply String.toList_inj.1
    simp [whole]
  · rintro rfl
    have cut := Pieces.cut_append_cons_self plain value.toList
    simp [parts, cut]

/-- A token is a flag for the lifetime exactly if it is its name, with a value or without. -/
theorem ofString_eq_consentDays_iff {token : String} {value : Option String} :
    ofString token = .valued .consentDays value ↔
      token = value.elim "--consent-days" ("--consent-days=" ++ ·) := by
  have parted : parts token = ("--consent-days", value) ↔
      token = value.elim "--consent-days" ("--consent-days=" ++ ·) := by
    cases value with
    | none =>
      refine ⟨eq_of_parts, ?_⟩
      rintro rfl
      rfl
    | some value => exact parts_eq_some_iff (by decide)
  rw [← parted]
  constructor
  · intro read
    unfold ofString at read
    split at read
    · cases read
    split at read
    · cases read
    · next found =>
      cases read
      exact found
    · cases read
  · intro found
    have other : token ≠ "--debug" := by
      rintro rfl
      have name : (parts "--debug").1 = "--debug" := by rfl
      exact absurd (name.symm.trans (congrArg Prod.fst found)) (by simp)
    rw [ofString, if_neg other, found]
    rfl

theorem ofString_joined (value : String) :
    ofString ("--consent-days=" ++ value) = .valued .consentDays (some value) :=
  ofString_eq_consentDays_iff.2 rfl

end FlagToken

namespace Flags

/-- A flag for the lifetime with its value, in two tokens or in one. -/
inductive SpellsDays (value : String) : List String → Prop where
  | apart : SpellsDays value ["--consent-days", value]
  | joined : SpellsDays value ["--consent-days=" ++ value]

variable {tokens a spelled b : List String} {value : String}

theorem SpellsDays.items (spells : SpellsDays value spelled) (more : List String) :
    items (spelled ++ more) = .valued .consentDays value :: items more := by
  cases spells with
  | apart => exact items_consentDays value more
  | joined => rw [List.singleton_append, Flags.items, FlagToken.ofString_joined]

theorem SpellsDays.complete (spells : SpellsDays value spelled) : complete spelled = true := by
  cases spells with
  | apart => rfl
  | joined => simp [Flags.complete, FlagToken.ofString_joined]

/-- A lifetime that is read is spelled at a place where no flag waits for its value. -/
theorem mem_items_iff_spelled : FlagItem.valued .consentDays value ∈ items tokens ↔
    ∃ a spelled b, tokens = a ++ spelled ++ b ∧ complete a = true ∧ SpellsDays value spelled := by
  constructor
  · intro mem
    fun_induction items tokens with
    | case1 => cases mem
    | case2 token tokens isDebug ih =>
      obtain ⟨a, spelled, b, rfl, whole, spells⟩ := ih (by simpa using mem)
      have alone : ∀ flag, FlagToken.ofString token ≠ .valued flag none := by simp [isDebug]
      exact ⟨token :: a, spelled, b, rfl, by rw [complete_cons alone, whole], spells⟩
    | case3 token tokens flag found isValued ih =>
      rcases List.mem_cons.1 mem with same | mem
      · cases same
        obtain rfl := FlagToken.ofString_eq_consentDays_iff.1 isValued
        exact ⟨[], _, tokens, rfl, rfl, .joined⟩
      · obtain ⟨a, spelled, b, rfl, whole, spells⟩ := ih mem
        have alone : ∀ flag, FlagToken.ofString token ≠ .valued flag none := by simp [isValued]
        exact ⟨token :: a, spelled, b, rfl, by rw [complete_cons alone, whole], spells⟩
    | case4 token flag bare none isValued next tokens ih =>
      have waits : FlagToken.ofString token = .valued flag Option.none := by
        cases bare with
        | none => exact isValued
        | some found => exact (none found rfl).elim
      rcases List.mem_cons.1 mem with same | mem
      · cases same
        obtain rfl := FlagToken.ofString_eq_consentDays_iff.1 waits
        exact ⟨[], _, tokens, rfl, rfl, .apart⟩
      · obtain ⟨a, spelled, b, rfl, whole, spells⟩ := ih mem
        exact ⟨token :: next :: a, spelled, b, rfl, by rw [complete_cons_cons waits, whole], spells⟩
    | case5 => cases mem
    | case6 token tokens isOther ih =>
      obtain ⟨a, spelled, b, rfl, whole, spells⟩ := ih mem
      have alone : ∀ flag, FlagToken.ofString token ≠ .valued flag none := by simp [isOther]
      exact ⟨token :: a, spelled, b, rfl, by rw [complete_cons alone, whole], spells⟩
  · rintro ⟨a, spelled, b, rfl, whole, spells⟩
    rw [List.append_assoc, items_append whole, spells.items]
    simp

/-! ## A lifetime that is not accepted -/

theorem days?_eq_none
    (bad : ∀ days, Decimal.signed? value.toList = some days → ¬ (0 ≤ days ∧ days ≤ 36500)) :
    days? value = none := by
  rw [days?, Option.filter_eq_none_iff]
  intro days number
  rw [decide_eq_true_eq]
  exact bad days number

/-- Behind a lifetime that is not accepted the other flags stay as they are. -/
theorem ofTokens_spelled_unaccepted (whole : complete a = true) (spells : SpellsDays value spelled)
    (bad : days? value = none) : ofTokens (a ++ spelled) = { ofTokens a with consentDays := none } := by
  have last := spells.items []
  rw [List.append_nil] at last
  have nothing : items [] = [] := by rw [items]
  rw [ofTokens, items_append whole, last, nothing, List.foldl_append, List.foldl_cons, List.foldl_nil,
    Flags.read, bad]
  rfl

/-- A lifetime that is not accepted takes away the one before it: what is in force is what the rest of
the list sets. So leaving the flag out changes nothing exactly if no lifetime is in force before it, or
another one is given after it. -/
theorem ofTokens_without_unaccepted_iff (whole : complete a = true) (spells : SpellsDays value spelled)
    (bad : ∀ days, Decimal.signed? value.toList = some days → ¬ (0 ≤ days ∧ days ≤ 36500))
    (b : List String) :
    ofTokens (a ++ spelled ++ b) =
      { ofTokens (a ++ b) with consentDays := (ofTokens b).consentDays } ∧
    (ofTokens (a ++ spelled ++ b) = ofTokens (a ++ b) ↔
      (ofTokens a).consentDays = none ∨ givesDays (items b) = true) := by
  have before := ofTokens_spelled_unaccepted whole spells (days?_eq_none bad)
  have both : complete (a ++ spelled) = true := by rw [complete_append whole, spells.complete]
  have result : ofTokens (a ++ spelled ++ b) =
      { ofTokens (a ++ b) with consentDays := (ofTokens b).consentDays } := by
    rw [ofTokens_append both, before, ofTokens_append whole]
    by_cases gives : givesDays (items b) = true
    · simp [gives, union]
    · rw [Bool.not_eq_true] at gives
      simp [gives, union, consentDays_of_not_givesDays gives]
  refine ⟨result, ?_⟩
  rw [result, ofTokens_append whole]
  by_cases gives : givesDays (items b) = true
  · simp [gives]
  · rw [Bool.not_eq_true] at gives
    simp [gives, consentDays_of_not_givesDays gives, eq_comm]

/-- A lifetime of thirty days is given, and then one that is not accepted. -/
theorem ofTokens_without_unaccepted_behind_accepted :
    ofTokens (["--consent-days", "30"] ++ ["--consent-days", "soon"] ++ []) =
      { ofTokens (["--consent-days", "30"] ++ []) with consentDays := (ofTokens []).consentDays } ∧
    (ofTokens (["--consent-days", "30"] ++ ["--consent-days", "soon"] ++ []) =
        ofTokens (["--consent-days", "30"] ++ []) ↔
      (ofTokens ["--consent-days", "30"]).consentDays = none ∨ givesDays (items []) = true) := by
  have noNumber : Decimal.signed? "soon".toList = none := by rfl
  exact ofTokens_without_unaccepted_iff rfl .apart
    (fun _ number => nomatch noNumber.symm.trans number) []

/-- A lifetime that is not accepted is not passed over: it takes away the one before it. -/
theorem not_ofTokens_without_unaccepted :
    ¬ ∀ (a spelled b : List String) (value : String),
      complete a = true → SpellsDays value spelled →
      (∀ days, Decimal.signed? value.toList = some days → ¬ (0 ≤ days ∧ days ≤ 36500)) →
      ofTokens (a ++ spelled ++ b) = ofTokens (a ++ b) := by
  intro passed
  have noNumber : Decimal.signed? "soon".toList = none := by rfl
  have same := passed ["--consent-days", "30"] ["--consent-days", "soon"] [] "soon" rfl .apart
    fun _ number => nomatch noNumber.symm.trans number
  have gone : (ofTokens ["--consent-days", "30", "--consent-days", "soon"]).consentDays = none := by rfl
  have kept : (ofTokens ["--consent-days", "30"]).consentDays = some 30 := by rfl
  exact absurd (gone.symm.trans ((congrArg consentDays same).trans kept)) (by simp)

end Flags
end DraftDesk
