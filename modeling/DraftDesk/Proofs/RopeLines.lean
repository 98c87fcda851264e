import DraftDesk.Proofs.RopeBuffer
import DraftDesk.Proofs.TextLines
import Mathlib.Data.List.DropRight

/-!
# Lines of a rope

A rope gives the lines of its text with what ends them, and refuses a line past the last. A buffer on
a rope takes the ending off by taking first every line feed and then every carriage return off the
end of a line. As a line has neither of them before its own ending, that takes off the ending and no
more, so the lines that are read are those of the buffer's view.
-/

namespace DraftDesk
open Line

/-- A rope that gives the lines of its text. -/
class LinedRope (ρ : Type) [Rope ρ] where
  lineCount : ρ → Nat
  /-- A line with what ends it; `none` stands for a refused number. -/
  line? : ρ → Nat → Option String

/-- The lines of a rope are the lines of its text. -/
class LawfulLinedRope (ρ : Type) [Rope ρ] [LinedRope ρ] : Prop where
  broken (r : ρ) : ∃ lines, Broken (Rope.text r).toList lines ∧
    LinedRope.lineCount r = lines.length ∧
    ∀ index, LinedRope.line? r index = lines[index]?.map String.ofList

instance : LinedRope String where
  lineCount text := (split text.toList).length
  line? text index := (split text.toList)[index]?.map fun line => String.ofList line.chars

instance : LawfulLinedRope String where
  broken text := by
    refine ⟨(split text.toList).map chars, (falls_split text.toList).broken, ?_, ?_⟩
    · rw [List.length_map]
      rfl
    · intro index
      rw [List.getElem?_map, Option.map_map]
      rfl

/-! ## Endings taken off -/

namespace Line

/-- A line without the line feeds at its end, and then without the carriage returns. -/
def trimmed (line : List Char) : List Char :=
  (line.rdropWhile (· == '\n')).rdropWhile (· == '\r')

theorem rdropWhile_of_not_mem {cs : List Char} {c : Char} (h : c ∉ cs) :
    cs.rdropWhile (· == c) = cs := by
  rw [List.rdropWhile_eq_self_iff]
  intro some last
  rw [beq_iff_eq] at last
  exact h (last ▸ List.getLast_mem some)

/-- What is taken off a line that is read is its own ending. -/
theorem Clean.trimmed_chars {l : Line} (clean : l.Clean) : trimmed l.chars = l.content := by
  have keeps_lf := rdropWhile_of_not_mem clean.lf
  have keeps_cr := rdropWhile_of_not_mem clean.cr
  obtain ⟨content, ending⟩ := l
  cases ending with
  | absent => rw [trimmed, chars, Ending.chars, List.append_nil, keeps_lf, keeps_cr]
  | lf =>
    rw [trimmed, chars, Ending.chars, List.rdropWhile_concat_pos _ _ _ rfl, keeps_lf, keeps_cr]
  | cr =>
    rw [trimmed, chars, Ending.chars, List.rdropWhile_concat_neg _ _ _ (by decide),
      List.rdropWhile_concat_pos _ _ _ rfl, keeps_cr]
  | crlf =>
    have both : content ++ ['\r', '\n'] = content ++ ['\r'] ++ ['\n'] := by rw [List.append_assoc]; rfl
    rw [trimmed, chars, Ending.chars, both, List.rdropWhile_concat_pos _ _ _ rfl,
      List.rdropWhile_concat_neg _ _ _ (by decide), List.rdropWhile_concat_pos _ _ _ rfl, keeps_cr]

end Line

/-! ## Lines of a buffer -/

namespace RopeBuffer

variable {ρ : Type} [Rope ρ] [LinedRope ρ]

def lineCount (b : RopeBuffer ρ) : Nat := LinedRope.lineCount b.rope

/-- The content of a line, `some none` if there is no such line; `none` if the rope refuses it. -/
def line? (b : RopeBuffer ρ) (index : Nat) : Option (Option String) :=
  if b.lineCount ≤ index then some none
  else do
    let line ← LinedRope.line? b.rope index
    return some (String.ofList (trimmed line.toList))

variable [LawfulLinedRope ρ]

theorem lineCount_eq (b : RopeBuffer ρ) : b.lineCount = b.view.lineCount := by
  obtain ⟨lines, broken, count, -⟩ := LawfulLinedRope.broken b.rope
  rw [lineCount, count, broken_iff_split.1 broken, List.length_map]
  rfl

theorem line?_eq (b : RopeBuffer ρ) (index : Nat) : b.line? index = some (b.view.line? index) := by
  obtain ⟨lines, broken, -, given⟩ := LawfulLinedRope.broken b.rope
  have found := given index
  rw [broken_iff_split.1 broken, List.getElem?_map, Option.map_map] at found
  have same : Line.split (Rope.text b.rope).toList = b.view.lines := rfl
  rw [same] at found
  rw [line?, lineCount_eq, Buffer.lineCount, Buffer.line?, found]
  by_cases past : b.view.lines.length ≤ index
  · rw [if_pos past, List.getElem?_eq_none past]
    rfl
  · have inside := Nat.not_le.1 past
    have clean := (losesOnlyBreaks_split _).clean _ (List.getElem_mem inside)
    rw [if_neg past, List.getElem?_eq_getElem inside]
    simp [clean.trimmed_chars]

/-- Reading a buffer line by line loses the line feeds and carriage returns that end lines and nothing
else. There is a line for each number below their count; the lines with what ends them make up the
text; no line has a line feed or carriage return in it, any other break is the end of its line, and
every line but the last ends with a break. -/
theorem lines_lose_only_breaks (b : RopeBuffer ρ) :
    (∀ index, (∃ content, b.line? index = some (some content)) ↔ index < b.lineCount) ∧
    ∃ lines, lines.length = b.lineCount ∧
      (∀ index, b.line? index = some (lines[index]?.map fun line => String.ofList line.content)) ∧
      LosesOnlyBreaks b.text.toList lines ∧
      b.view.lines = lines := by
  have read : ∀ index, b.line? index =
      some (b.view.lines[index]?.map fun line => String.ofList line.content) := b.line?_eq
  have count : b.view.lines.length = b.lineCount := b.lineCount_eq.symm
  refine ⟨?_, b.view.lines, count, read, losesOnlyBreaks_split _, rfl⟩
  intro index
  rw [read, ← count]
  constructor
  · rintro ⟨content, found⟩
    obtain ⟨line, present, -⟩ := Option.map_eq_some_iff.1 (Option.some.inj found)
    exact (List.getElem?_eq_some_iff.1 present).1
  · intro inside
    rw [List.getElem?_eq_getElem inside]
    exact ⟨_, rfl⟩

/-- Every ending in turn, also at the end of another line, in front of another line and after a break
that stays in its line. -/
theorem lines_lose_only_breaks_mixed :
    LawfulLinedRope String ∧
    ∃ lines, LosesOnlyBreaks "a\r\n\n\rb\x0b\r\u2028c".toList lines ∧
      lines = [⟨['a'], .crlf⟩, ⟨[], .lf⟩, ⟨[], .cr⟩, ⟨['b', '\x0b'], .absent⟩, ⟨[], .cr⟩,
        ⟨['\u2028'], .absent⟩, ⟨['c'], .absent⟩] := by
  obtain ⟨-, lines, -, -, loses, rfl⟩ := lines_lose_only_breaks
    (ofText "a\r\n\n\rb\x0b\r\u2028c" : RopeBuffer String)
  exact ⟨inferInstance, _, loses, by decide⟩

end RopeBuffer

end DraftDesk
