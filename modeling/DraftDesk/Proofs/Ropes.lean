import DraftDesk.Proofs.Boundaries

/-!
# Ropes

A rope stores a text for edits at character positions, so an offset in units is first turned into
a position. Positions that are out of order or past the end are refused. What a rope owes to its
text is said in `LawfulRope`; from that, the position of an offset is the number of characters in
front of the boundary at which `fit` cuts the text, and an edit at the lengths of the parts a text
is made of is an edit of those parts.
-/

namespace DraftDesk
open DraftDesk.Units

/-- A text stored for edits at character positions; `none` stands for a refused position. -/
class Rope (ρ : Type) where
  ofText : String → ρ
  text : ρ → String
  /-- The length in units. -/
  length : ρ → Nat
  /-- The position of the character to which a unit belongs. -/
  position? : ρ → Nat → Option Nat
  /-- The number of units in front of a position. -/
  offset? : ρ → Nat → Option Nat
  slice? : ρ → Nat → Nat → Option String
  remove? : ρ → Nat → Nat → Option ρ
  insert? : ρ → Nat → String → Option ρ

/-- The operations of a rope are those of its text. -/
class LawfulRope (ρ : Type) [Rope ρ] : Prop where
  text_ofText (text : String) : Rope.text (Rope.ofText text : ρ) = text
  length_eq (r : ρ) : Rope.length r = total (Rope.text r).toList
  /-- Both units of a character that has two belong to that character. -/
  position?_unit (r : ρ) {before after : List Char} {c : Char} {unit : Nat} :
    (Rope.text r).toList = before ++ c :: after → unit < width c →
      Rope.position? r (total before + unit) = some before.length
  position?_end (r : ρ) :
    Rope.position? r (total (Rope.text r).toList) = some (Rope.text r).toList.length
  position?_past (r : ρ) {n : Nat} : total (Rope.text r).toList < n → Rope.position? r n = none
  offset?_eq (r : ρ) (n : Nat) :
    Rope.offset? r n =
      if n ≤ (Rope.text r).toList.length then some (total ((Rope.text r).toList.take n)) else none
  slice?_eq (r : ρ) (a b : Nat) :
    Rope.slice? r a b =
      if a ≤ b ∧ b ≤ (Rope.text r).toList.length then
        some (String.ofList (((Rope.text r).toList.take b).drop a))
      else none
  text_remove? (r : ρ) (a b : Nat) :
    (Rope.remove? r a b).map Rope.text =
      if a ≤ b ∧ b ≤ (Rope.text r).toList.length then
        some (String.ofList ((Rope.text r).toList.take a ++ (Rope.text r).toList.drop b))
      else none
  text_insert? (r : ρ) (a : Nat) (typed : String) :
    (Rope.insert? r a typed).map Rope.text =
      if a ≤ (Rope.text r).toList.length then
        some (String.ofList
          ((Rope.text r).toList.take a ++ typed.toList ++ (Rope.text r).toList.drop a))
      else none

/-! ## Plain texts -/

/-- A plain text is a rope. -/
instance : Rope String where
  ofText text := text
  text text := text
  length text := total text.toList
  position? text n := if n ≤ total text.toList then some (fit n text.toList).length else none
  offset? text n := if n ≤ text.toList.length then some (total (text.toList.take n)) else none
  slice? text a b :=
    if a ≤ b ∧ b ≤ text.toList.length then some (String.ofList ((text.toList.take b).drop a)) else none
  remove? text a b :=
    if a ≤ b ∧ b ≤ text.toList.length then
      some (String.ofList (text.toList.take a ++ text.toList.drop b))
    else none
  insert? text a typed :=
    if a ≤ text.toList.length then
      some (String.ofList (text.toList.take a ++ typed.toList ++ text.toList.drop a))
    else none

instance : LawfulRope String where
  text_ofText _ := rfl
  length_eq _ := rfl
  position?_unit := by
    intro text before after c unit (whole : text.toList = before ++ c :: after) inside
    have room : total before + unit ≤ total text.toList := by
      rw [whole, total_append, total_cons]
      omega
    have cut : fit (total before + unit) text.toList = before := by rw [whole, fit_inside inside]
    simp only [Rope.position?, if_pos room, cut]
  position?_end := by
    intro text
    have cut : fit (total text.toList) text.toList = text.toList := by
      simpa using fit_total text.toList []
    simp [Rope.position?, Rope.text, cut]
  position?_past := by
    intro text n past
    exact if_neg (Nat.not_le.2 past)
  offset?_eq _ _ := rfl
  slice?_eq _ _ _ := rfl
  text_remove? text a b := by
    simp only [Rope.remove?, Rope.text]
    split <;> rfl
  text_insert? text a typed := by
    simp only [Rope.insert?, Rope.text]
    split <;> rfl

/-! ## The parts of a rope -/

namespace Rope

variable {ρ : Type} [Rope ρ] [LawfulRope ρ] {left middle right : List Char}

theorem position?_eq (r : ρ) {n : Nat} (inside : n ≤ total (text r).toList) :
    position? r n = some (fit n (text r).toList).length := by
  have whole := fit_append_beyond n (text r).toList
  have fits := total_fit_le n (text r).toList
  cases rest : beyond n (text r).toList with
  | nil =>
    rw [rest, List.append_nil] at whole
    rw [whole] at fits ⊢
    rw [Nat.le_antisymm inside fits, LawfulRope.position?_end]
  | cons c after =>
    -- What is left of the offset does not reach past the next character.
    have short := lt_total_fit_of_beyond rest
    have unit : n - total (fit n (text r).toList) < width c := by omega
    rw [rest] at whole
    have found := LawfulRope.position?_unit r whole.symm unit
    rwa [Nat.add_sub_cancel' fits] at found

example : Rope.position? "a😀b" 2 = some 1 ∧ Rope.position? "a😀b" 5 = none := by decide

theorem slice?_part {r : ρ} (whole : (text r).toList = left ++ middle ++ right) :
    slice? r left.length (left ++ middle).length = some (String.ofList middle) := by
  have ordered : left.length ≤ (left ++ middle).length := by simp
  have inside : (left ++ middle).length ≤ (left ++ middle ++ right).length := by
    simp only [List.length_append]
    omega
  rw [LawfulRope.slice?_eq, whole, if_pos ⟨ordered, inside⟩, List.take_left, List.drop_left]

theorem exists_remove?_part {r : ρ} (whole : (text r).toList = left ++ middle ++ right) :
    ∃ removed, remove? r left.length (left ++ middle).length = some removed ∧
      (text removed).toList = left ++ right := by
  have ordered : left.length ≤ (left ++ middle).length := by simp
  have inside : (left ++ middle).length ≤ (left ++ middle ++ right).length := by
    simp only [List.length_append]
    omega
  have removal := LawfulRope.text_remove? r left.length (left ++ middle).length
  rw [whole, if_pos ⟨ordered, inside⟩, List.drop_left, List.append_assoc, List.take_left] at removal
  obtain ⟨removed, done, shown⟩ := Option.map_eq_some_iff.1 removal
  exact ⟨removed, done, by rw [shown, String.toList_ofList]⟩

theorem exists_insert?_between {r : ρ} (whole : (text r).toList = left ++ right) (typed : String) :
    ∃ inserted, insert? r left.length typed = some inserted ∧
      (text inserted).toList = left ++ typed.toList ++ right := by
  have inside : left.length ≤ (left ++ right).length := by simp
  have insertion := LawfulRope.text_insert? r left.length typed
  rw [whole, if_pos inside, List.take_left, List.drop_left] at insertion
  obtain ⟨inserted, done, shown⟩ := Option.map_eq_some_iff.1 insertion
  exact ⟨inserted, done, by rw [shown, String.toList_ofList]⟩

theorem offset?_part {r : ρ} (whole : (text r).toList = left ++ right) :
    offset? r left.length = some (total left) := by
  have inside : left.length ≤ (left ++ right).length := by simp
  rw [LawfulRope.offset?_eq, whole, if_pos inside, List.take_left]

end Rope

end DraftDesk
