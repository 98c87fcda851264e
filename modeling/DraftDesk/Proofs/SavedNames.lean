import DraftDesk.Proofs.FlagFiles
import DraftDesk.Proofs.FlagLists

/-!
# What a saved name does to the other flags

The name of the cookie is written as it stands, so its first word is the name that is read and the
words behind it are read as flags. They can set the debug flag and a lifetime. A lifetime that is
saved stands behind the name and counts before those in it, unless the name ends in a flag that waits
for its value: that flag takes the name of the next one for it, and the lifetime is not read.
-/

namespace DraftDesk

namespace Flags

/-! ## A flag that waits for its value -/

variable {tokens : List String} {flag : ValuedFlag}

/-- The flag that still waits for its value at the end of a list. -/
def awaiting? : List String → Option ValuedFlag
  | [] => none
  | token :: tokens =>
    match FlagToken.ofString token with
    | .valued flag none =>
      match tokens with
      | _ :: tokens => awaiting? tokens
      | [] => some flag
    | _ => awaiting? tokens

theorem awaiting?_cons {token : String}
    (alone : ∀ flag, FlagToken.ofString token ≠ .valued flag none) (tokens : List String) :
    awaiting? (token :: tokens) = awaiting? tokens := by
  rw [awaiting?.eq_def]
  rcases FlagToken.cases_of_alone alone with kind | kind | ⟨flag, value, kind⟩ <;> simp [kind]

theorem complete_of_awaiting? (none : awaiting? tokens = none) : complete tokens = true := by
  fun_induction complete tokens with
  | case1 => rfl
  | case2 token flag waits value tokens ih =>
    rw [awaiting?, waits] at none
    exact ih none
  | case3 token flag waits =>
    rw [awaiting?, waits] at none
    cases none
  | case4 token tokens alone ih =>
    rw [awaiting?_cons alone] at none
    exact ih none

/-- The flag that waits is the last token. -/
theorem exists_of_awaiting? (waits : awaiting? tokens = some flag) :
    ∃ front token, tokens = front ++ [token] ∧ complete front = true ∧
      FlagToken.ofString token = .valued flag none := by
  fun_induction complete tokens with
  | case1 => cases waits
  | case2 token other bare value tokens ih =>
    rw [awaiting?, bare] at waits
    obtain ⟨front, last, rfl, whole, found⟩ := ih waits
    exact ⟨token :: value :: front, last, rfl, by rw [complete_cons_cons bare, whole], found⟩
  | case3 token other bare =>
    rw [awaiting?, bare] at waits
    cases waits
    exact ⟨[], token, rfl, rfl, bare⟩
  | case4 token tokens alone ih =>
    rw [awaiting?_cons alone] at waits
    obtain ⟨front, last, rfl, whole, found⟩ := ih waits
    exact ⟨token :: front, last, rfl, by rw [complete_cons alone, whole], found⟩

/-- The flag that waits takes the next token, and nothing else of what was read changes. -/
theorem ofTokens_append_cons (waits : awaiting? tokens = some flag) {value : String}
    {more : List String} (silent : items more = []) :
    ofTokens (tokens ++ value :: more) = (ofTokens tokens).read (.valued flag value) := by
  obtain ⟨front, token, rfl, whole, found⟩ := exists_of_awaiting? waits
  have nothing : items [token] = [] := by rw [items, found]
  have taken : items (token :: value :: more) = [.valued flag value] := by
    simp [items, found, silent]
  rw [List.append_assoc, List.singleton_append, ofTokens, ofTokens, items_append whole, taken,
    items_append whole, nothing, List.foldl_append, List.append_nil, List.foldl_cons, List.foldl_nil]

theorem ofTokens_debug (debug : Bool) (tokens : List String) :
    ofTokens ((if debug then ["--debug"] else []) ++ tokens) =
      { ofTokens tokens with debug := debug || (ofTokens tokens).debug } := by
  cases debug with
  | false => rfl
  | true =>
    have first : ofTokens ["--debug"] = { empty with debug := true } := by rfl
    rw [if_pos rfl, ofTokens_append (by rfl), first]
    by_cases gives : givesDays (items tokens) = true
    · simp [gives, union, empty]
    · rw [Bool.not_eq_true] at gives
      simp [gives, union, empty, consentDays_of_not_givesDays gives]

/-! ## The lifetime behind the name -/

/-- A lifetime behind a list counts before those in it. -/
theorem ofTokens_append_days (whole : complete tokens = true) {days : Int}
    (accepted : 0 ≤ days ∧ days ≤ 36500) :
    ofTokens (tokens ++ ["--consent-days", String.ofList (Decimal.ofInt days)]) =
      { ofTokens tokens with consentDays := some days } := by
  have nothing : items [] = [] := by rw [items]
  rw [ofTokens, items_append whole, items_consentDays, nothing, List.foldl_append, List.foldl_cons,
    List.foldl_nil, Flags.read, days?_ofInt accepted]
  rfl

end Flags

/-! ## Saving and loading -/

namespace FlagFile

variable {tree made : FileTree} {path : String} {place : Location}

/-- A saved lifetime is read back if no flag waits for its value behind the name. If the flag for the
cookie waits there, the lifetime is the one that the name has set before; and that is also what is read
where no lifetime was saved. -/
def KeepsLifetime (flags : Flags) : Prop :=
  match flags.consentDays, Flags.awaiting? (cookieTokens flags) with
  | some _, none => True
  | some _, some .consentDays => False
  | days, _ => (Flags.ofTokens (cookieTokens flags)).consentDays = days

/-- What is read back in place of the flags that were saved. -/
theorem ofTokens_render {flags : Flags}
    (accepted : ∀ days, flags.consentDays = some days → 0 ≤ days ∧ days ≤ 36500) :
    (Flags.ofTokens (tokens (render flags))).debug =
      (flags.debug || (Flags.ofTokens (cookieTokens flags)).debug) ∧
    ((Flags.ofTokens (tokens (render flags))).consentDays = flags.consentDays ↔
      KeepsLifetime flags) := by
  rw [tokens_render, List.append_assoc, Flags.ofTokens_debug]
  cases given : flags.consentDays with
  | none => simp [KeepsLifetime, given]
  | some days =>
    rw [Option.elim_some]
    cases waits : Flags.awaiting? (cookieTokens flags) with
    | none =>
      rw [Flags.ofTokens_append_days (Flags.complete_of_awaiting? waits) (accepted days given)]
      simp [KeepsLifetime, given, waits]
    | some flag =>
      -- The name of the next flag is taken for a value, and its number is left over.
      rw [Flags.ofTokens_append_cons waits (Flags.items_ofInt days)]
      cases flag with
      | consentCookie => simp [KeepsLifetime, given, waits, Flags.read]
      | consentDays =>
        have noNumber : Flags.days? "--consent-days" = none := by rfl
        simp [KeepsLifetime, given, waits, Flags.read, noNumber]

/-- The flags that are saved along with the name of a cookie come back as they were saved exactly if
the words behind the name say nothing else: they do not set the debug flag unless it is saved, and the
lifetime is kept. -/
theorem others_read_back_iff (writes : tree.WritesTo path made place) (flags : Flags)
    (accepted : ∀ days, flags.consentDays = some days → 0 ≤ days ∧ days ≤ 36500) :
    ∃ after loaded,
      (save FileTree.storage path flags).run tree = (.ok (), after) ∧
      (load FileTree.storage path).run after = (.ok loaded, after) ∧
      (loaded.debug = flags.debug ↔
        ((Flags.ofTokens (cookieTokens flags)).debug = true → flags.debug = true)) ∧
      (loaded.consentDays = flags.consentDays ↔ KeepsLifetime flags) := by
  obtain ⟨after, saved, loaded⟩ := exists_read_back writes flags
  obtain ⟨debug, lifetime⟩ := ofTokens_render accepted
  refine ⟨after, _, saved, loaded, ?_, lifetime⟩
  rw [debug]
  cases flags.debug <;> simp

/-- The name sets the debug flag, and a flag that waits behind it takes the saved lifetime. -/
theorem others_not_read_back_behind_open_name :
    ∃ after loaded,
      (save FileTree.storage "/home/settings/config"
        ⟨false, some "seen --debug\n--consent-cookie", some 30⟩).run home = (.ok (), after) ∧
      (load FileTree.storage "/home/settings/config").run after = (.ok loaded, after) ∧
      loaded.debug ≠ false ∧ loaded.consentDays ≠ some 30 := by
  have accepted : ∀ days, some (30 : Int) = some days → 0 ≤ days ∧ days ≤ 36500 := by
    rintro _ ⟨⟩
    decide
  obtain ⟨after, loaded, saved, read, debug, lifetime⟩ := others_read_back_iff home_writesTo
    ⟨false, some "seen --debug\n--consent-cookie", some 30⟩ accepted
  have named : Flags.ofTokens (cookieTokens
      ⟨false, some "seen --debug\n--consent-cookie", some 30⟩) = ⟨true, some "seen", none⟩ := by rfl
  refine ⟨after, loaded, saved, read, ?_, ?_⟩
  · rw [ne_eq, debug, named]
    simp
  · rw [ne_eq, lifetime]
    intro kept
    have same : none = some (30 : Int) := kept
    cases same

/-- A name can set the debug flag. -/
theorem not_others_read_back :
    ¬ ∀ (tree made after : FileTree) (path : String) (place : Location) (flags loaded : Flags),
      tree.WritesTo path made place →
      (∀ days, flags.consentDays = some days → 0 ≤ days ∧ days ≤ 36500) →
      (save FileTree.storage path flags).run tree = (.ok (), after) →
      (load FileTree.storage path).run after = (.ok loaded, after) →
      loaded.debug = flags.debug ∧ loaded.consentDays = flags.consentDays := by
  intro kept
  obtain ⟨after, saved, loaded⟩ := exists_read_back home_writesTo ⟨false, some "seen --debug", none⟩
  have set : (Flags.ofTokens (tokens (render ⟨false, some "seen --debug", none⟩))).debug = true := by rfl
  have accepted : ∀ days : Int, none = some days → 0 ≤ days ∧ days ≤ 36500 := nofun
  obtain ⟨debug, -⟩ := kept _ _ _ _ _ _ _ home_writesTo accepted saved loaded
  exact absurd (set.symm.trans debug) (by decide)

end FlagFile

end DraftDesk
