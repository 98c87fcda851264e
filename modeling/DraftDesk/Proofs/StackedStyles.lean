import DraftDesk.Proofs.ToolbarRuns
import Mathlib.Data.List.Chain

/-!
# Stacked styles

No two styles open with the same character or close with the same one. A part that is wrapped in
one style therefore carries no delimiter of another at its edges, the next style is put around it as
a whole, and the styles of a stack come off from the outside in.
-/

namespace DraftDesk

namespace Style

/-- A part between the delimiters of a style. -/
def wrap (style : Style) (part : List Char) : List Char :=
  style.delimiters.opening.toList ++ part ++ style.delimiters.closing.toList

/-- A part between the delimiters of some styles, the first of them innermost. -/
def stack (styles : List Style) (part : List Char) : List Char :=
  styles.reverse.flatMap (·.delimiters.opening.toList) ++ part ++
    styles.flatMap (·.delimiters.closing.toList)

theorem stack_nil (part : List Char) : stack [] part = part := by simp [stack]

theorem stack_cons (style : Style) (styles : List Style) (part : List Char) :
    stack (style :: styles) part = stack styles (style.wrap part) := by
  simp [stack, wrap]

theorem stack_append (inner outer : List Style) (part : List Char) :
    stack (inner ++ outer) part = stack outer (stack inner part) := by
  simp [stack]

example : stack [.bold, .underline] "x".toList = "<u>**x**</u>".toList := by decide

/-! ## Styles do not mix -/

theorem eq_of_head?_opening {s t : Style}
    (h : s.delimiters.opening.toList.head? = t.delimiters.opening.toList.head?) : s = t := by
  revert h
  cases s <;> cases t <;> decide

theorem eq_of_getLast?_closing {s t : Style}
    (h : s.delimiters.closing.toList.getLast? = t.delimiters.closing.toList.getLast?) : s = t := by
  revert h
  cases s <;> cases t <;> decide

theorem opening_ne_nil (s : Style) : s.delimiters.opening.toList ≠ [] := by
  cases s <;> decide

theorem closing_ne_nil (s : Style) : s.delimiters.closing.toList ≠ [] := by
  cases s <;> decide

variable {inner outer : Style}

theorem not_prefix_wrap (different : inner ≠ outer) (part : List Char) :
    ¬ outer.delimiters.opening.toList <+: inner.wrap part := by
  rintro ⟨rest, begins⟩
  have heads := congrArg List.head? begins
  rw [List.head?_append_of_ne_nil _ outer.opening_ne_nil, wrap, List.append_assoc,
    List.head?_append_of_ne_nil _ inner.opening_ne_nil] at heads
  exact different (eq_of_head?_opening heads.symm)

theorem not_suffix_wrap (different : inner ≠ outer) (part : List Char) :
    ¬ outer.delimiters.closing.toList <:+ inner.wrap part := by
  rintro ⟨front, ends⟩
  have lasts := congrArg List.getLast? ends
  rw [List.getLast?_append_of_ne_nil _ outer.closing_ne_nil, wrap,
    List.getLast?_append_of_ne_nil _ inner.closing_ne_nil] at lasts
  exact different (eq_of_getLast?_closing lasts.symm)

end Style

/-! ## One style -/

namespace TextSurface

variable {σ : Type} [TextSurface σ]

/-- Toggles styles one after another; tells of each whether anything changed. -/
def applyStyles (styles : List Style) (surface : σ) : List Bool × σ :=
  applyAll (styles.map Style.delimiters) surface

theorem applyStyles_cons (style : Style) (rest : List Style) (surface : σ) :
    applyStyles (style :: rest) surface =
      ((applyStyle style surface).1 :: (applyStyles rest (applyStyle style surface).2).1,
        (applyStyles rest (applyStyle style surface).2).2) :=
  rfl

theorem applyStyles_append (first second : List Style) (surface : σ) :
    applyStyles (first ++ second) surface =
      ((applyStyles first surface).1 ++ (applyStyles second (applyStyles first surface).2).1,
        (applyStyles second (applyStyles first surface).2).2) := by
  rw [applyStyles, List.map_append, applyAll_append]
  rfl

end TextSurface

namespace Buffer
open DraftDesk.Units TextSurface

variable {b : Buffer} {style inner first next : Style} {styles rest done : List Style}
  {left part right : List Char} {revision : Nat}

/-- A changed buffer with a part of its text selected. -/
def covering (left part right : List Char) (revision : Nat) : Buffer :=
  ⟨String.ofList (left ++ part ++ right), ⟨total left, total left + total part, .forward⟩, true,
    revision⟩

theorem cut_covering (left part right : List Char) (revision : Nat) :
    (covering left part right revision).cut = ⟨left, part, right⟩ :=
  Cut.at_ofList_append left part right

/-- A part is selected that carries no delimiter of a style at its edges. -/
structure Bare (style : Style) (b : Buffer) (left part right : List Char) : Prop where
  active : b.selection.isActive
  cut : b.cut = ⟨left, part, right⟩
  begins : ¬ style.delimiters.opening.toList <+: part
  ends : ¬ style.delimiters.closing.toList <:+ part

theorem Bare.toggle_eq (h : Bare style b left part right) :
    toggle b.text b.selection style.delimiters =
      some ⟨String.ofList (left ++ style.wrap part ++ right),
        ⟨total left, total left + total (style.wrap part), .forward⟩, .wrapped⟩ :=
  Toggle.toggle_wraps h.active h.cut h.begins h.ends

theorem Bare.applyStyle (h : Bare style b left part right) :
    applyStyle style b = (true, covering left (style.wrap part) right (b.revision + 1)) :=
  applyDelimiters_some h.toggle_eq

/-- A part in one style carries no delimiter of another. -/
theorem bare_covering (different : inner ≠ style) (left part right : List Char) (revision : Nat) :
    Bare style (covering left (inner.wrap part) right revision) left (inner.wrap part) right where
  active := rfl
  cut := cut_covering ..
  begins := Style.not_prefix_wrap different part
  ends := Style.not_suffix_wrap different part

theorem applyStyle_wrap (style : Style) (left part right : List Char) (revision : Nat) :
    applyStyle style (covering left (style.wrap part) right revision) =
      (true, covering left part right (revision + 1)) :=
  applyDelimiters_some (Toggle.toggle_unwraps rfl (cut_covering ..))

/-! ## A stack of styles -/

theorem Bare.applyStyles (h : Bare first b left part right)
    (different : List.IsChain (· ≠ ·) (first :: rest)) :
    applyStyles (first :: rest) b =
      (List.replicate (first :: rest).length true,
        covering left (Style.stack (first :: rest) part) right (b.revision + (first :: rest).length)) := by
  induction rest generalizing first b part with
  | nil => rw [applyStyles_cons, h.applyStyle, Style.stack_cons, Style.stack_nil]; rfl
  | cons second rest ih =>
    obtain ⟨apart, different⟩ := List.isChain_cons_cons.1 different
    have bare := bare_covering apart left part right (b.revision + 1)
    rw [applyStyles_cons, h.applyStyle, ih bare different, Style.stack_cons first]
    have revision : (covering left (first.wrap part) right (b.revision + 1)).revision +
        (second :: rest).length = b.revision + (first :: second :: rest).length := by
      simp only [covering, List.length_cons]
      omega
    rw [revision]
    rfl

/-- Wherever a stack is broken off, the part so far carries no delimiter of the next style. -/
theorem Bare.after (h : Bare first b left part right)
    (different : List.IsChain (· ≠ ·) (first :: rest)) (reached : done ++ [next] <+: first :: rest) :
    Bare next (TextSurface.applyStyles done b).2 left (Style.stack done part) right := by
  -- Each style taken off the front of `done` goes around the part, and the rest is stacked on that.
  induction done generalizing first b part rest with
  | nil =>
    obtain ⟨rfl, -⟩ := List.cons_prefix_cons.1 reached
    rwa [Style.stack_nil]
  | cons style done ih =>
    obtain ⟨rfl, further⟩ := List.cons_prefix_cons.1 reached
    rw [applyStyles_cons, h.applyStyle, Style.stack_cons]
    cases rest with
    | nil => simp at further
    | cons second rest =>
      obtain ⟨apart, different⟩ := List.isChain_cons_cons.1 different
      exact ih (bare_covering apart left part right (b.revision + 1)) different further

/-- The styles of a stack come off from the outside in. -/
theorem applyStyles_reverse (styles : List Style) (left part right : List Char) (revision : Nat) :
    applyStyles styles.reverse (covering left (Style.stack styles part) right revision) =
      (List.replicate styles.length true, covering left part right (revision + styles.length)) := by
  induction styles generalizing part with
  | nil => rw [Style.stack_nil]; rfl
  | cons style styles ih =>
    rw [List.reverse_cons, applyStyles_append, Style.stack_cons, ih, applyStyles_cons,
      applyStyle_wrap, List.length_cons, List.replicate_succ', Nat.add_assoc]
    rfl

theorem Bare.selectedText_after (h : Bare first b left part right)
    (different : List.IsChain (· ≠ ·) (first :: rest)) (reached : done ++ [next] <+: first :: rest) :
    (TextSurface.applyStyles (done ++ [next]) b).2.selectedText.toList =
      Style.stack (done ++ [next]) part := by
  have last := (h.after different reached).applyStyle
  rw [applyStyles_append, applyStyles_cons, last, Style.stack_append, Style.stack_cons,
    Style.stack_nil]
  simp only [TextSurface.applyStyles, List.map_nil, applyAll, selectedText, cut_covering,
    String.toList_ofList]

theorem Bare.applyStyles_back (h : Bare first b left part right)
    (different : List.IsChain (· ≠ ·) (first :: rest)) :
    TextSurface.applyStyles ((first :: rest) ++ (first :: rest).reverse) b =
      (List.replicate (2 * (first :: rest).length) true,
        covering left part right (b.revision + 2 * (first :: rest).length)) := by
  have off := applyStyles_reverse (first :: rest) left part right
    (b.revision + (first :: rest).length)
  rw [applyStyles_append, h.applyStyles different, off, List.replicate_append_replicate,
    Nat.add_assoc, ← Nat.two_mul]

/-- Styles of which no two neighbours are the same, put on one after another, each wrap the
selected part, and toggled once more in reverse order they leave the text as it was, with the part
selected again. -/
theorem stacked_styles_come_off (b : Buffer) (selection : Selection) (active : selection.isActive)
    (first : Style) (rest : List Style) (different : List.IsChain (· ≠ ·) (first :: rest))
    (begins : ¬ first.delimiters.opening.toList <+: (b.select selection).selectedText.toList)
    (ends : ¬ first.delimiters.closing.toList <:+ (b.select selection).selectedText.toList) :
    let start := b.select selection
    let styles := first :: rest
    (∀ done next, done ++ [next] <+: styles →
      let before := (applyStyles done start).2
      (toggle before.text before.selection next.delimiters).map Toggled.change = some .wrapped ∧
      (applyStyles (done ++ [next]) start).2.selectedText.toList =
        Style.stack (done ++ [next]) start.selectedText.toList) ∧
    ∃ last, applyStyles (styles ++ styles.reverse) start =
        (List.replicate (2 * styles.length) true, last) ∧
      last.text = b.text ∧
      last.selection = ⟨snap start.selection.start b.text.toList,
        snap start.selection.stop b.text.toList, .forward⟩ ∧
      last.selectedText = start.selectedText ∧
      last.revision = b.revision + 2 * styles.length := by
  intro start styles
  have whole : start.cut.left ++ start.cut.middle ++ start.cut.right = b.text.toList :=
    Cut.append_at ..
  have stop : total start.cut.left + total start.cut.middle =
      snap (max start.selection.start start.selection.stop) b.text.toList := Cut.total_middle_at ..
  rw [Nat.max_eq_right (inRange_select selection b).ordered] at stop
  have selected : start.selectedText.toList = start.cut.middle := String.toList_ofList
  have bare : Bare first start start.cut.left start.cut.middle start.cut.right := by
    refine ⟨?_, rfl, selected ▸ begins, selected ▸ ends⟩
    simpa [start, select, Selection.clamp, Selection.isActive] using active
  constructor
  · intro done next reached
    refine ⟨by rw [(bare.after different reached).toggle_eq]; rfl, ?_⟩
    rw [selected, bare.selectedText_after different reached]
  · refine ⟨_, bare.applyStyles_back different, ?_, ?_, ?_, rfl⟩
    · rw [covering, whole, String.ofList_toList]
    · rw [covering, stop]
      rfl
    · rw [selectedText, cut_covering, selectedText]

/-- The offsets lie behind the text and inside a character of two units. Bold is put on twice, with an
underline between. -/
theorem stacked_styles_come_off_around_pair :
    let start := (ofText "_😀*").select ⟨9, 2, .backward⟩
    let styles := [Style.bold, .underline, .bold]
    ((⟨9, 2, .backward⟩ : Selection).isActive ∧ List.IsChain (· ≠ ·) styles ∧
      start.selectedText = "😀*") ∧
    (applyStyles styles start).2.selectedText.toList = "**<u>**😀***</u>**".toList ∧
    ∃ last, applyStyles (styles ++ styles.reverse) start =
        ([true, true, true, true, true, true], last) ∧
      last.text = "_😀*" ∧ last.selection = ⟨1, 4, .forward⟩ ∧ last.selectedText = "😀*" ∧
      last.revision = 6 := by
  intro start styles
  have different : List.IsChain (· ≠ ·) styles := by decide
  have selected : start.selectedText = "😀*" := by decide
  obtain ⟨stacked, last, off, text, selection, back, revision⟩ :=
    stacked_styles_come_off (ofText "_😀*") ⟨9, 2, .backward⟩ rfl .bold [.underline, .bold] different
      (by decide) (by decide)
  have on := (stacked [.bold, .underline] .bold (List.prefix_refl _)).2
  exact ⟨⟨rfl, different, selected⟩, on, last, off, text, selection, back.trans selected, revision⟩

end Buffer

end DraftDesk
