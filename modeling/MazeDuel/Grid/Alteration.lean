import MazeDuel.Grid.Places
/-!
Alterations: the operations that change a grid, asked for at any places. One that fails leaves the
grid as it was, but for a wall that is noted on the near side of an edge before the far side turns
out not to be noted at all.
-/

namespace MazeDuel.Grid

/-- An operation that changes a grid, with places as rows of values. -/
inductive Alteration where
  | wall (values : List Json) (side : Facing) (up : Bool)
  | carve (a b : List Json)
  | exit (values : List Json)
  | lay (values : List Json) (kind : Powerup)
  | take (values : List Json)

/-- The grid with an alteration made. -/
def altered (g : Grid) : Alteration → Except Fault Grid
  | .wall values side up => g.setWallAt (.ofValues values) side up
  | .carve a b => g.carveAt (.ofValues a) (.ofValues b)
  | .exit values => g.setExitAt (.ofValues values)
  | .lay values kind => g.placePowerupAt (.ofValues values) kind
  | .take values => do return (g.takePowerupAt (← (Place.ofValues values).asKey)).2

/-- The grid with a wall noted on the near side of an edge, if it can be noted there. -/
def noteNear (g : Grid) (p : Place) (side : Facing) (up : Bool) : Grid :=
  (g.noteWallAt p side up).toOption.getD g

/-- What an alteration that fails leaves behind. -/
def leftover (g : Grid) : Alteration → Grid
  | .wall values side up => g.noteNear (.ofValues values) side up
  | .carve a b =>
    match sideTowards (.ofValues a) (.ofValues b) Facing.all with
    | .ok (some side) => g.noteNear (.ofValues a) side false
    | _ => g
  | _ => g

/-- The grid after an alteration, whether it is made or fails. -/
def alter (g : Grid) (a : Alteration) : Grid :=
  match g.altered a with
  | .ok g' => g'
  | .error _ => g.leftover a

def alterAll (g : Grid) (alterations : List Alteration) : Grid := alterations.foldl alter g

end MazeDuel.Grid
