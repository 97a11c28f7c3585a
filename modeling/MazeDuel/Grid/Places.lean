import MazeDuel.Grid.Basic
import MazeDuel.Place.Step
/-!
Operations of a grid at places. At a place that is equal to a cell they are those of the cell; other
places have entries of their own, apart from the cells.
-/

namespace MazeDuel

def Place.asKey (p : Place) : Except Fault Place := if p.isKey then .ok p else .error .wrongType

@[simp] theorem Place.asKey_cell (c : Cell) : (cell c).asKey = .ok (cell c) := rfl

theorem Place.isKey_of_asKey {p q : Place} (h : p.asKey = .ok q) : q = p ∧ p.isKey = true := by
  unfold asKey at h
  split at h
  · next hkey => exact ⟨(Except.ok.inj h).symm, hkey⟩
  · cases h

namespace Grid

def within (size : Nat) (value : Json) : Except Fault Bool := do
  let q ← value.toQuantity
  return (Quantity.whole 0).le q && q.lt (Int.ofNat size)

/-- Whether a place lies on the grid. It needs two numbers for that; the second is not looked at if
the first lies outside. -/
def contains (g : Grid) : Place → Except Fault Bool
  | .cell c => .ok (g.inBounds c)
  | .row [x, y] => do if ← within g.width x then within g.height y else return false
  | .row _ => .error .wrongLength

@[simp] theorem contains_cell (g : Grid) (c : Cell) :
    g.contains (.cell c) = .ok (g.inBounds c) := rfl

def sidesAt? (g : Grid) (p : Place) : Option Sides :=
  match p.cell? with
  | some c => g.walls[c]?
  | none => g.oddments.walls.find? p

def hasWallAt (g : Grid) (p : Place) (side : Facing) : Bool :=
  match g.sidesAt? p with
  | some sides => sides.has side
  | none => true

@[simp] theorem hasWallAt_cell (g : Grid) (c : Cell) (side : Facing) :
    g.hasWallAt (.cell c) side = g.hasWall c side := rfl

/-- The places next to `p` that are in bounds, walls or not. -/
def neighborsAt (g : Grid) (p : Place) : Except Fault (List Place) := do
  let places ← Facing.all.mapM p.step
  places.filterM g.contains

def wallsAt (g : Grid) (p : Place) : Except Fault Sides := do
  match g.sidesAt? (← p.asKey) with
  | some sides => return sides
  | none => throw (.unknownPlace p)

def putSides (g : Grid) (p : Place) (sides : Sides) : Grid :=
  match p.cell? with
  | some c =>
    let forms := if g.walls.contains c then g.oddments.walls else g.oddments.walls.setForm c p
    { g with walls := g.walls.insert c sides, oddments := { g.oddments with walls := forms } }
  | none => { g with oddments := { g.oddments with walls := g.oddments.walls.insert p sides } }

/-- Notes a wall on one side of a place, which must have been noted. -/
def noteWallAt (g : Grid) (p : Place) (side : Facing) (up : Bool) : Except Fault Grid := do
  return g.putSides p ((← g.wallsAt p).set side up)

def setWallAt (g : Grid) (p : Place) (side : Facing) (up : Bool) : Except Fault Grid :=
  match p with
  | .cell c => g.setWall c side up
  | .row _ => do
    let g ← g.noteWallAt p side up
    let next ← p.step side
    if ← g.contains next then g.noteWallAt next side.opposite up else return g

/-- The side of a place on which another one lies. -/
def sideTowards (a b : Place) : List Facing → Except Fault (Option Facing)
  | [] => .ok none
  | side :: rest => do if (← a.step side).same b then return some side else sideTowards a b rest

def carveAt (g : Grid) (a b : Place) : Except Fault Grid :=
  match a, b with
  | .cell a, .cell b => g.carveBetween a b
  | _, _ => do
    match ← sideTowards a b Facing.all with
    | some side => g.setWallAt a side false
    | none => throw (.notAdjacent a b)

def setExitAt (g : Grid) (p : Place) : Except Fault Grid :=
  match p with
  | .cell c => g.setExit c
  | .row _ => do
    if ← g.contains p then return { g with exit := some p }
    else throw (.exitOutside p g.widthJson g.heightJson)

def placePowerupAt (g : Grid) (p : Place) (kind : Powerup) : Except Fault Grid := do
  if !(← g.contains p) then throw (.powerupOutside p)
  match p.cell? with
  | some c =>
    let forms :=
      if g.powerups.contains c then g.oddments.powerups else g.oddments.powerups.setForm c p
    return { g with
      powerups := g.powerups.insert c kind, oddments := { g.oddments with powerups := forms } }
  | none =>
    return { g with
      oddments := { g.oddments with powerups := g.oddments.powerups.insert p kind } }

def takePowerupAt (g : Grid) (p : Place) : Option Powerup × Grid :=
  match p.cell? with
  | some c => g.takePowerup c
  | none =>
    (g.oddments.powerups.find? p,
      { g with oddments := { g.oddments with powerups := g.oddments.powerups.erase p } })

@[simp] theorem takePowerupAt_cell (g : Grid) (c : Cell) :
    g.takePowerupAt (.cell c) = g.takePowerup c := rfl

end Grid

end MazeDuel
