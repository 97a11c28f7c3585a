import MazeDuel.Vocabulary
/-!
Cells of the plane, the four facings and the directions of movement. North is up: it adds one to
the second coordinate.
-/

namespace MazeDuel

structure Cell where
  x : Int
  y : Int
  deriving DecidableEq, Repr, Inhabited

namespace Cell

def display (c : Cell) : String := "(" ++ toString c.x ++ ", " ++ toString c.y ++ ")"

/-- Column first, then row. -/
instance : Ord Cell := ⟨compareLex (compareOn Cell.x) (compareOn Cell.y)⟩

instance : Std.TransOrd Cell :=
  inferInstanceAs (Std.TransCmp (compareLex (compareOn Cell.x) (compareOn Cell.y)))

instance : Std.LawfulEqOrd Cell where
  compare_self := Std.ReflCmp.compare_self
  eq_of_compare {c d} h := by
    have h : (compare c.x d.x).then (compare c.y d.y) = .eq := h
    rw [Ordering.then_eq_eq, Int.compare_eq_eq, Int.compare_eq_eq] at h
    cases c; cases d
    simp_all

end Cell

inductive Facing where
  | north
  | south
  | east
  | west
  deriving DecidableEq, Repr, Inhabited

namespace Facing

def all : List Facing := [north, south, east, west]

instance : Vocabulary Facing where
  kind := "Facing"
  all := all
  word
    | north => "north"
    | south => "south"
    | east => "east"
    | west => "west"
  find_word p := by cases p <;> decide

/-- A quarter turn clockwise. -/
def right : Facing → Facing
  | north => east
  | east => south
  | south => west
  | west => north

/-- A quarter turn against the clock. -/
def left : Facing → Facing
  | north => west
  | west => south
  | south => east
  | east => north

def opposite : Facing → Facing
  | north => south
  | south => north
  | east => west
  | west => east

def delta : Facing → Cell
  | north => ⟨0, 1⟩
  | south => ⟨0, -1⟩
  | east => ⟨1, 0⟩
  | west => ⟨-1, 0⟩

def ahead (f : Facing) (cells : Int) (c : Cell) : Cell :=
  ⟨c.x + f.delta.x * cells, c.y + f.delta.y * cells⟩

def step (f : Facing) (c : Cell) : Cell := ⟨c.x + f.delta.x, c.y + f.delta.y⟩

@[simp] theorem opposite_opposite (f : Facing) : f.opposite.opposite = f := by cases f <;> rfl

@[simp] theorem left_right (f : Facing) : f.right.left = f := by cases f <;> rfl

@[simp] theorem right_left (f : Facing) : f.left.right = f := by cases f <;> rfl

theorem ahead_one (f : Facing) (c : Cell) : f.ahead 1 c = f.step c := by
  simp [ahead, step]

theorem step_opposite (f : Facing) (c : Cell) : f.opposite.step (f.step c) = c := by
  obtain ⟨x, y⟩ := c
  cases f <;> simp only [step, opposite, delta, Cell.mk.injEq] <;> omega

end Facing

/-- The directions that scripts name; up is north. -/
inductive MoveDir where
  | up
  | down
  | left
  | right
  deriving DecidableEq, Repr, Inhabited

namespace MoveDir

def all : List MoveDir := [up, down, left, right]

instance : Vocabulary MoveDir where
  kind := "MoveDir"
  all := all
  word
    | up => "up"
    | down => "down"
    | left => "left"
    | right => "right"
  find_word p := by cases p <;> decide

def facing : MoveDir → Facing
  | up => .north
  | down => .south
  | left => .west
  | right => .east

/-- The direction read from someone who faces `f`: up is forward, left and right are sideways. -/
def relativeTo (f : Facing) : MoveDir → Facing
  | up => f
  | down => f.opposite
  | left => f.left
  | right => f.right

def token : MoveDir → String
  | up => "MoveUp"
  | down => "MoveDown"
  | left => "MoveLeft"
  | right => "MoveRight"

end MoveDir

end MazeDuel
