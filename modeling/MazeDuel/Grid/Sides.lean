import MazeDuel.Cell
/-!
Sets of sides of a cell.
-/

namespace MazeDuel

@[ext] structure Sides where
  north : Bool
  south : Bool
  east : Bool
  west : Bool
  deriving DecidableEq, Repr, Inhabited

namespace Sides

def full : Sides := ⟨true, true, true, true⟩

def empty : Sides := ⟨false, false, false, false⟩

def has (s : Sides) : Facing → Bool
  | .north => s.north
  | .south => s.south
  | .east => s.east
  | .west => s.west

def set (s : Sides) (f : Facing) (up : Bool) : Sides :=
  match f with
  | .north => { s with north := up }
  | .south => { s with south := up }
  | .east => { s with east := up }
  | .west => { s with west := up }

def ofTest (p : Facing → Bool) : Sides := ⟨p .north, p .south, p .east, p .west⟩

def ofList (sides : List Facing) : Sides := ofTest sides.contains

/-- The sides in the order of their names. -/
def toList (s : Sides) : List Facing := [.east, .north, .south, .west].filter s.has

theorem has_set (s : Sides) (f d : Facing) (up : Bool) :
    (s.set f up).has d = if d = f then up else s.has d := by
  cases f <;> cases d <;> rfl

@[simp] theorem has_ofTest (p : Facing → Bool) (f : Facing) : (ofTest p).has f = p f := by
  cases f <;> rfl

@[simp] theorem has_full (f : Facing) : full.has f = true := by cases f <;> rfl

@[simp] theorem ofList_toList (s : Sides) : ofList s.toList = s := by
  rcases s with ⟨n, s, e, w⟩
  cases n <;> cases s <;> cases e <;> cases w <;> rfl

end Sides

end MazeDuel
