import DraftDesk.Proofs.Boundaries

/-!
# Slices by byte offsets

A text stored as UTF-8 can be sliced at byte offsets, but only in order and between characters:
`slice?` fails otherwise. A slice at the sizes of the parts a text is made of is one of those
parts, and the byte offset of a cut is such a size.
-/

namespace DraftDesk.Bytes
open DraftDesk.Units

/-- The part of a text between two byte offsets. It fails if the offsets are out of order, past the
end or inside a character. -/
def slice? (text : String) (a b : Nat) : Option String :=
  if h : a ≤ b ∧ (⟨a⟩ : String.Pos.Raw).IsValid text ∧ (⟨b⟩ : String.Pos.Raw).IsValid text then
    some (text.extract (text.pos ⟨a⟩ h.2.1) (text.pos ⟨b⟩ h.2.2))
  else none

/-- The part of a text between two byte offsets, taken in ascending order. -/
def between? (text : String) (a b : Nat) : Option String :=
  if a ≤ b then slice? text a b else slice? text b a

/-- A difference that fails where it would be negative. -/
def sub? (a b : Nat) : Option Nat := if b ≤ a then some (a - b) else none

theorem between?_comm (text : String) (a b : Nat) : between? text a b = between? text b a := by
  unfold between?
  rcases Nat.lt_trichotomy a b with less | rfl | greater
  · rw [if_pos (Nat.le_of_lt less), if_neg (Nat.not_le.2 less)]
  · rfl
  · rw [if_neg (Nat.not_le.2 greater), if_pos (Nat.le_of_lt greater)]

/-! ## The parts of a text -/

theorem slice?_append (left middle right : String) :
    slice? (left ++ middle ++ right) left.utf8ByteSize (left.utf8ByteSize + middle.utf8ByteSize) =
      some middle := by
  have first : (⟨left.utf8ByteSize⟩ : String.Pos.Raw).IsValid (left ++ middle ++ right) :=
    (String.Pos.Raw.isValid_rawEndPos.append_right middle).append_right right
  have last : (⟨left.utf8ByteSize + middle.utf8ByteSize⟩ : String.Pos.Raw).IsValid
      (left ++ middle ++ right) := by
    rw [← String.utf8ByteSize_append]
    exact String.Pos.Raw.isValid_rawEndPos.append_right right
  rw [slice?, dif_pos ⟨Nat.le_add_right .., first, last⟩, Option.some.injEq, ← String.toByteArray_inj]
  -- The bytes before the part are skipped, and the part is what the rest begins with.
  have skipped : (left.toByteArray ++ (middle.toByteArray ++ right.toByteArray)).extract
      (left.toByteArray.size + 0) (left.toByteArray.size + middle.toByteArray.size) =
        (middle.toByteArray ++ right.toByteArray).extract 0 middle.toByteArray.size :=
    ByteArray.extract_append_size_add
  rw [ByteArray.extract_append_eq_left rfl, ← ByteArray.append_assoc] at skipped
  simpa using skipped

example : slice? "a😀b" 1 5 = some "😀" ∧ slice? "a😀b" 1 3 = none := by decide

/-- The number of bytes of a text. -/
def size (cs : List Char) : Nat := (String.ofList cs).utf8ByteSize

@[simp] theorem utf8ByteSize_ofList (cs : List Char) : (String.ofList cs).utf8ByteSize = size cs := rfl

@[simp] theorem size_nil : size [] = 0 := rfl

@[simp] theorem size_append (xs ys : List Char) : size (xs ++ ys) = size xs + size ys := by
  rw [size, String.ofList_append, String.utf8ByteSize_append, utf8ByteSize_ofList, utf8ByteSize_ofList]

theorem sub?_size_append (front back : List Char) :
    sub? (size (front ++ back)) (size back) = some (size front) := by
  rw [size_append, sub?, if_pos (Nat.le_add_left ..), Nat.add_sub_cancel]

theorem slice?_ofList (left middle right : List Char) :
    slice? (String.ofList (left ++ middle ++ right)) (size left) (size left + size middle) =
      some (String.ofList middle) := by
  rw [String.ofList_append, String.ofList_append]
  exact slice?_append ..

theorem slice?_start (middle right : List Char) :
    slice? (String.ofList (middle ++ right)) 0 (size middle) = some (String.ofList middle) := by
  simpa using slice?_ofList [] middle right

theorem slice?_end (left middle : List Char) :
    slice? (String.ofList (left ++ middle)) (size left) (size (left ++ middle)) =
      some (String.ofList middle) := by
  simpa using slice?_ofList left middle []

/-! ## Offsets of cuts -/

theorem byteOffset_mono (text : String) {a b : Nat} (h : a ≤ b) :
    byteOffset text a ≤ byteOffset text b := by
  have longer := fit_eq_fit_append text.toList h
  rw [byteOffset, byteOffset, longer, String.ofList_append, String.utf8ByteSize_append]
  exact Nat.le_add_right ..

theorem byteOffset_max (text : String) (a b : Nat) :
    byteOffset text (max a b) = max (byteOffset text b) (byteOffset text a) := by
  rcases Nat.le_total a b with le | le
  · rw [Nat.max_eq_right le, Nat.max_eq_left (byteOffset_mono text le)]
  · rw [Nat.max_eq_left le, Nat.max_eq_right (byteOffset_mono text le)]

/-! ## Slices of a cut text -/

variable {text : String} {start stop : Nat} {left middle right : List Char}

theorem text_of_cut (found : Cut.at text.toList start stop = ⟨left, middle, right⟩) :
    text = String.ofList (left ++ middle ++ right) := by
  have whole := Cut.append_at text.toList start stop
  rw [found] at whole
  rw [whole, String.ofList_toList]

theorem byteOffset_of_cut (found : Cut.at text.toList start stop = ⟨left, middle, right⟩) :
    byteOffset text start = size left := by
  rw [byteOffset, utf8ByteSize_ofList, ← Cut.left_at text.toList start stop, found]

theorem max_byteOffset_of_cut (found : Cut.at text.toList start stop = ⟨left, middle, right⟩) :
    max (byteOffset text stop) (byteOffset text start) = size (left ++ middle) := by
  have reach := Cut.left_append_middle_at text.toList start stop
  rw [found] at reach
  rw [← byteOffset_max, byteOffset, utf8ByteSize_ofList, ← reach]

/-- The slices at the byte offsets of a cut are the parts of the cut. -/
theorem slices_of_cut (found : Cut.at text.toList start stop = ⟨left, middle, right⟩) :
    slice? text 0 (size left) = some (String.ofList left) ∧
    slice? text 0 (size (left ++ middle)) = some (String.ofList (left ++ middle)) ∧
    slice? text (size left) (size (left ++ middle)) = some (String.ofList middle) ∧
    slice? text (size (left ++ middle)) text.utf8ByteSize = some (String.ofList right) := by
  obtain rfl := text_of_cut found
  refine ⟨?_, slice?_start .., ?_, slice?_end ..⟩
  · rw [List.append_assoc, slice?_start]
  · rw [size_append, slice?_ofList]

end DraftDesk.Bytes
