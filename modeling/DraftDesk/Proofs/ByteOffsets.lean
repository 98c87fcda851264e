import DraftDesk.Proofs.ByteSlices
import Mathlib.Order.GaloisConnection.Defs

/-!
# Places of a stored text

A stored text has a place in front of each of its characters and one at its end, and a place is told
by the number of bytes before it. `seek` finds the place for an offset in one pass over the
characters; it is the last one with at most so many units before it. So the way from offsets to
places is the upper adjoint of the way back, and what is known of adjoints gives the rest.
-/

namespace DraftDesk.Bytes
open DraftDesk.Units

/-! ## Sizes of beginnings -/

variable {text : String} {start back : List Char} {c : Char}

@[simp] theorem size_cons (c : Char) (cs : List Char) : size (c :: cs) = c.utf8Size + size cs := by
  rw [← List.singleton_append, size_append, size, ← String.singleton_eq_ofList,
    String.utf8ByteSize_singleton]

theorem size_pos {cs : List Char} (h : cs ≠ []) : 0 < size cs := by
  obtain ⟨c, rest, rfl⟩ := List.exists_cons_of_ne_nil h
  have pos := c.utf8Size_pos
  rw [size_cons]
  omega

theorem isValid_size (begins : start <+: text.toList) :
    (⟨size start⟩ : String.Pos.Raw).IsValid text := by
  obtain ⟨back, whole⟩ := begins
  refine String.Pos.Raw.isValid_iff_exists_append.2 ⟨String.ofList start, String.ofList back, ?_, rfl⟩
  rw [← String.ofList_append, whole, String.ofList_toList]

/-! ## Places -/

instance instPreorderPos : Preorder text.Pos where
  le_refl := String.Pos.le_refl
  le_trans _ _ _ := String.Pos.le_trans
  lt_iff_le_not_ge p q := by
    simp only [String.Pos.lt_iff, String.Pos.le_iff, String.Pos.Raw.lt_iff, String.Pos.Raw.le_iff]
    omega

/-- What comes before a place. -/
def before (p : text.Pos) : List Char := (text.sliceTo p).copy.toList

/-- The number of units before a place. -/
def unitsBefore (p : text.Pos) : Nat := total (before p)

/-- The place that an offset stands for. -/
def place (text : String) (offset : Nat) : text.Pos :=
  ⟨⟨byteOffset text offset⟩, isValid_size (isPrefix_fit offset text.toList)⟩

theorem before_isPrefix (p : text.Pos) : before p <+: text.toList := by
  have parts := congrArg String.toList p.splits.eq_append
  rw [String.toList_append] at parts
  exact ⟨_, parts.symm⟩

theorem size_before (p : text.Pos) : size (before p) = p.offset.byteIdx := by
  rw [size, before, String.ofList_toList]
  exact (congrArg String.Pos.Raw.byteIdx p.splits.offset_eq_rawEndPos).symm

/-- Both sides say that what comes before the place begins what the offset has room for. -/
theorem galoisConnection_place (text : String) : GaloisConnection unitsBefore (place text) := by
  intro p offset
  have cut := longest_fit offset text.toList
  have room : total (before p) ≤ offset ↔ before p <+: fit offset text.toList := by
    constructor
    · exact cut.longest (before p) (before_isPrefix p)
    · rintro ⟨rest, whole⟩
      have fits := cut.fits
      rw [← whole, total_append] at fits
      omega
  rw [isPrefix_iff_le size_append size_pos (before_isPrefix p) cut.begins, size_before] at room
  exact room

theorem byteOffset_unitsBefore (p : text.Pos) : byteOffset text (unitsBefore p) = p.offset.byteIdx := by
  obtain ⟨back, whole⟩ := before_isPrefix p
  rw [← size_before, byteOffset, ← whole, unitsBefore, fit_total, utf8ByteSize_ofList]

/-! ## One pass over the characters -/

/-- Passes over the characters of a text, with the units and bytes passed so far, up to the first one
that the offset has no room for. -/
def seek (offset : Nat) (units byte : Nat) : List Char → Nat
  | [] => byte
  | c :: cs =>
    if offset < units + width c then byte
    else seek offset (units + width c) (byte + c.utf8Size) cs

theorem seek_eq {offset units : Nat} (reached : units ≤ offset) (byte : Nat) (cs : List Char) :
    seek offset units byte cs = byte + size (fit (offset - units) cs) := by
  induction cs generalizing units byte with
  | nil => rfl
  | cons c cs ih =>
    by_cases past : offset < units + width c
    · have none_fits : ¬ width c ≤ offset - units := by omega
      rw [seek, if_pos past, fit, if_neg none_fits, size_nil, Nat.add_zero]
    · have fits : width c ≤ offset - units := by omega
      rw [seek, if_neg past, ih (Nat.le_of_not_lt past), fit, if_pos fits, size_cons, Nat.sub_add_eq]
      omega

/-! ## Offsets and places -/

theorem byteOffset_of_total_le {offset : Nat} (past : total text.toList ≤ offset) :
    byteOffset text offset = text.utf8ByteSize := by
  rw [byteOffset, fit_of_total_le past, String.ofList_toList]

theorem byteOffset_inside (whole : text.toList = start ++ c :: back) {unit : Nat}
    (inside : unit < width c) : byteOffset text (total start + unit) = size start := by
  rw [byteOffset, whole, fit_inside inside, utf8ByteSize_ofList]

/-- The byte offset for an offset in units is that of the last place with at most so many units
before it. It never falls when the offset grows; past the end it is the end, and inside a character
it is the start of that character; and the units before a place lead back to that place. -/
theorem byteOffset_upper_adjoint (text : String) :
    (∀ offset, byteOffset text offset = seek offset 0 0 text.toList) ∧
    (∀ offset, (⟨byteOffset text offset⟩ : String.Pos.Raw).IsValid text) ∧
    (∀ (p : text.Pos) (offset : Nat),
      unitsBefore p ≤ offset ↔ p.offset.byteIdx ≤ byteOffset text offset) ∧
    Monotone (byteOffset text) ∧
    (∀ offset, total text.toList ≤ offset → byteOffset text offset = text.utf8ByteSize) ∧
    (∀ start c back unit, text.toList = start ++ c :: back → unit < width c →
      byteOffset text (total start + unit) = size start) ∧
    (∀ p : text.Pos, byteOffset text (unitsBefore p) = p.offset.byteIdx) := by
  have adjoint := galoisConnection_place text
  refine ⟨?pass, fun offset => (place text offset).isValid, adjoint, ?monotone,
    fun _ => byteOffset_of_total_le, ?inside, byteOffset_unitsBefore⟩
  case pass =>
    intro offset
    rw [seek_eq (Nat.zero_le offset), Nat.zero_add]
    rfl
  case monotone =>
    intro a b le
    exact adjoint.monotone_u le
  case inside =>
    intro start c back unit whole inside
    exact byteOffset_inside whole inside

example : [0, 1, 2, 3, 4, 9].map (byteOffset "ä😀x") = [0, 2, 2, 6, 7, 7] := by decide

end DraftDesk.Bytes
