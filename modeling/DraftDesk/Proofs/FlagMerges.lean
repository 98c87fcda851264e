import DraftDesk.Proofs.DefaultsHistory
import DraftDesk.Proofs.FlagLists

/-!
# Flags of several parts

In a list the later flag counts, in a union the second one. The two agree where a list is cut at a
place at which no flag waits for its value, unless a lifetime that is not accepted comes last in the
second part: the list then has no lifetime, while the union keeps that of the first part
(`ofTokens_append_eq_union_iff`). The tokens of a file are those of its lines, so a file in two parts
reads like a global file with the first part and a local one with the second.
-/

namespace DraftDesk

namespace Flags

/-- Every lifetime that is read is a whole number of days that is accepted. -/
def LifetimesAccepted (tokens : List String) : Prop :=
  ∀ value, FlagItem.valued .consentDays value ∈ items tokens →
    ∃ days, Decimal.signed? value.toList = some days ∧ 0 ≤ days ∧ days ≤ 36500

variable {a b : List String} {value : String}

theorem days?_eq_some {days : Int} (number : Decimal.signed? value.toList = some days)
    (low : 0 ≤ days) (high : days ≤ 36500) : days? value = some days := by
  simp [days?, number, maxConsentDays, low, high]

/-- Where all lifetimes are accepted, the last one is in force. -/
theorem consentDays_ne_none {list : List FlagItem} (gives : givesDays list = true)
    (accepted : ∀ value, .valued .consentDays value ∈ list → days? value ≠ none) :
    (list.foldl read empty).consentDays ≠ none := by
  induction list using List.reverseRecOn with
  | nil => cases gives
  | append_singleton list item ih =>
    have others (earlier : givesDays list = true) :=
      ih earlier fun value mem => accepted value (List.mem_append_left _ mem)
    rw [List.foldl_append]
    match item with
    | .valued .consentDays value => exact accepted value (by simp)
    | .valued .consentCookie value => exact others (by simpa [givesDays] using gives)
    | .debug => exact others (by simpa [givesDays] using gives)

/-- Two lists in a row set what they set together, unless the second one ends without a lifetime
although it gives one, and the first one has a lifetime. -/
theorem ofTokens_append_eq_union_iff (whole : complete a = true) :
    ofTokens (a ++ b) = (ofTokens a).union (ofTokens b) ↔
      (givesDays (items b) = true → (ofTokens b).consentDays = none →
        (ofTokens a).consentDays = none) := by
  rw [ofTokens_append whole]
  by_cases gives : givesDays (items b) = true
  · cases second : (ofTokens b).consentDays with
    | none => simp [gives, union, second, eq_comm]
    | some days => simp [gives, union, second]
  · have silent := consentDays_of_not_givesDays (Bool.eq_false_iff.2 gives)
    simp [gives, union, silent]

theorem ofTokens_append_eq_union (whole : complete a = true) (accepted : LifetimesAccepted b) :
    ofTokens (a ++ b) = (ofTokens a).union (ofTokens b) := by
  rw [ofTokens_append_eq_union_iff whole]
  intro gives none
  refine absurd none (consentDays_ne_none gives fun value mem => ?_)
  obtain ⟨days, number, low, high⟩ := accepted value mem
  simp [days?_eq_some number low high]

end Flags

namespace FlagFile

/-- A text that is two others, one below the other: a line feed stands between them, which may be the
end of the first one. -/
inductive Joins : (first second text : List Char) → Prop where
  | apart (first second : List Char) : Joins first second (first ++ '\n' :: second)
  | ended (first second : List Char) : Joins (first ++ ['\n']) second (first ++ '\n' :: second)

theorem Joins.tokens_eq {first second text : List Char} (joins : Joins first second text) :
    tokens text = tokens first ++ tokens second := by
  cases joins with
  | apart => exact tokens_append_newline first second
  | ended first =>
    have nothing : tokens [] = [] := by rfl
    rw [tokens_append_newline, tokens_append_newline, nothing, List.append_nil]

/-- Two lists of tokens in a row, of which the first does not end in a flag that waits for its value and
the second has accepted lifetimes only, set what the two set together, with the second one counting
before the first. So a file with two such parts keeps the same flags as a global file with the first part
and a local one with the second. -/
theorem joined_parts_merge {a b : List String} (whole : Flags.complete a = true)
    (accepted : Flags.LifetimesAccepted b) :
    Flags.ofTokens (a ++ b) = (Flags.ofTokens a).union (Flags.ofTokens b) ∧
    ∀ (first second text : List Char) (tree : FileTree) (joined globalPath localPath : String),
      tokens first = a → tokens second = b → Joins first second text →
      tree.read joined = .content (Utf8.encode text) →
      tree.read globalPath = .content (Utf8.encode first) →
      tree.read localPath = .content (Utf8.encode second) →
      (load FileTree.storage joined).run tree = (.ok (.ofTokens (a ++ b)), tree) ∧
      ∀ given, (resolve FileTree.storage globalPath localPath given false false).run tree =
        (.ok ((Flags.ofTokens (a ++ b)).union given), tree) := by
  have lists := Flags.ofTokens_append_eq_union whole accepted
  refine ⟨lists, ?_⟩
  rintro first second text tree joined globalPath localPath rfl rfl joins both globalRead localRead
  refine ⟨?_, fun given => ?_⟩
  · rw [run_load, both, kept?_content, joins.tokens_eq]
    rfl
  · rw [lists]
    apply run_resolve_of_kept
    · rw [globalRead, kept?_content]
    · rw [localRead, kept?_content]

/-- A tree with a global and a local file, and one in which the two stand one below the other. -/
def parted : FileTree :=
  (((FileTree.empty ["home"]).set ["home", "global"]
    (some (.file (Utf8.encode "--consent-cookie --debug\n--consent-days=7\n".toList)))).set
      ["home", "local"] (some (.file (Utf8.encode "# a month\n--consent-days 30\n".toList)))).set
        ["home", "joined"] (some (.file (Utf8.encode
          "--consent-cookie --debug\n--consent-days=7\n# a month\n--consent-days 30\n".toList)))

/-- The first part has a cookie that is named like a flag, and both parts have a lifetime. -/
theorem joined_parts_merge_lifetimes :
    Flags.ofTokens ["--consent-cookie", "--debug", "--consent-days=7", "--consent-days", "30"] =
      ⟨false, some "--debug", some 30⟩ ∧
    (resolve FileTree.storage "global" "local" ⟨true, none, none⟩ false false).run parted =
      (.ok ⟨true, some "--debug", some 30⟩, parted) := by
  have accepted : Flags.LifetimesAccepted ["--consent-days", "30"] := by
    intro value mem
    have reads : Flags.items ["--consent-days", "30"] = [.valued .consentDays "30"] := by rfl
    obtain rfl : value = "30" := by simpa [reads] using mem
    exact ⟨30, rfl, by decide, by decide⟩
  obtain ⟨lists, files⟩ := joined_parts_merge
    (a := ["--consent-cookie", "--debug", "--consent-days=7"]) rfl accepted
  obtain ⟨-, resolved⟩ := files "--consent-cookie --debug\n--consent-days=7\n".toList
    "# a month\n--consent-days 30\n".toList _ parted "joined" "global" "local" (by decide) (by decide)
    (.ended "--consent-cookie --debug\n--consent-days=7".toList _) (by decide) (by decide) (by decide)
  exact ⟨lists, resolved ⟨true, none, none⟩⟩

end FlagFile

end DraftDesk
