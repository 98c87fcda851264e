/-!
# Selections

A selection is a range of a text in UTF-16 units together with the end on which its caret sits.
`Selection.between` puts its bounds in order; a selection read from outside may have them
reversed, so the order is no part of the type.
-/

namespace DraftDesk

/-- Which end of a selection the caret sits on. -/
inductive Direction where
  | forward
  | backward
  /-- Nothing is selected. -/
  | inactive
  deriving DecidableEq, Repr, Inhabited

namespace Direction

/-- All directions, in the order in which they are offered. -/
def all : List Direction := [.forward, .backward, .inactive]

def name : Direction → String
  | .forward => "forward"
  | .backward => "backward"
  | .inactive => "none"

end Direction

/-- A range of a text, in UTF-16 units. -/
structure Selection where
  start : Nat
  stop : Nat
  direction : Direction
  deriving DecidableEq, Repr, Inhabited

namespace Selection

/-- The selection between two offsets given in either order. -/
def between (a b : Nat) (direction : Direction) : Selection :=
  if a ≤ b then ⟨a, b, direction⟩ else ⟨b, a, direction⟩

/-- A forward selection between two offsets. -/
def forward (a b : Nat) : Selection := between a b .forward

/-- A caret with nothing selected. -/
def caret (offset : Nat) : Selection := ⟨offset, offset, .inactive⟩

/-- The number of units between the bounds. -/
def length (s : Selection) : Nat := s.stop - s.start

def isEmpty (s : Selection) : Bool := s.start == s.stop

/-- Whether anything is selected at all. -/
def isActive (s : Selection) : Bool := s.direction != .inactive

/-- The selection with both bounds brought down to a limit, in order. -/
def clamp (limit : Nat) (s : Selection) : Selection :=
  between (min s.start limit) (min s.stop limit) s.direction

theorem between_of_le {a b : Nat} (h : a ≤ b) (d : Direction) : between a b d = ⟨a, b, d⟩ := by
  simp [between, h]

theorem start_between_le_stop (a b : Nat) (d : Direction) :
    (between a b d).start ≤ (between a b d).stop := by
  unfold between
  split
  · assumption
  · exact Nat.le_of_not_ge ‹_›

@[simp] theorem direction_between (a b : Nat) (d : Direction) : (between a b d).direction = d := by
  unfold between; split <;> rfl

theorem start_clamp_le_stop (limit : Nat) (s : Selection) :
    (s.clamp limit).start ≤ (s.clamp limit).stop :=
  start_between_le_stop ..

theorem stop_clamp_le (limit : Nat) (s : Selection) : (s.clamp limit).stop ≤ limit := by
  unfold clamp between
  split <;> exact Nat.min_le_right ..

theorem clamp_of_ordered {s : Selection} (ordered : s.start ≤ s.stop) (limit : Nat) :
    s.clamp limit = ⟨min s.start limit, min s.stop limit, s.direction⟩ := by
  have kept : min s.start limit ≤ min s.stop limit := by omega
  rw [clamp, between_of_le kept]

theorem clamp_of_le {limit : Nat} {s : Selection} (ordered : s.start ≤ s.stop)
    (inside : s.stop ≤ limit) : s.clamp limit = s := by
  rw [clamp_of_ordered ordered, Nat.min_eq_left inside, Nat.min_eq_left (Nat.le_trans ordered inside)]

end Selection

end DraftDesk
