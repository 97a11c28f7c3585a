import Std.Data.TreeMap
import MazeDuel.Grid.Loose
import MazeDuel.Grid.Sides
import MazeDuel.Document
import MazeDuel.Powerup
/-!
Grids: a rectangle of cells with walls on their sides, perhaps an exit, and the pickups that lie
about. A wall between two cells is noted on both; cells that are not noted have every side walled.
Here are the operations at cells; those at other places are in `MazeDuel.Grid.Places`.
-/

namespace MazeDuel

/-- What a grid holds besides cells, and in which forms it was given. -/
structure Grid.Oddments where
  walls : Loose Sides := {}
  powerups : Loose Powerup := {}
  /-- Whether the width of one was given as a truth value. -/
  widthIsFlag : Bool := false
  heightIsFlag : Bool := false
  deriving Inhabited

structure Grid where
  width : Nat
  height : Nat
  exit : Option Place := none
  powerups : Std.TreeMap Cell Powerup := ∅
  walls : Std.TreeMap Cell Sides := ∅
  oddments : Grid.Oddments := {}

namespace Grid

def cellsOf (width height : Nat) : List Cell :=
  (List.range width).flatMap fun (x : Nat) => (List.range height).map fun (y : Nat) => ⟨x, y⟩

def cells (g : Grid) : List Cell := cellsOf g.width g.height

/-- The south-west corner is `(0, 0)`. -/
def inBounds (g : Grid) (c : Cell) : Bool :=
  0 ≤ c.x && c.x < g.width && 0 ≤ c.y && c.y < g.height

def borderSides (g : Grid) (c : Cell) : Sides := Sides.ofTest fun f => !g.inBounds (f.step c)

/-- A grid with every wall up, or with those of the border only. -/
def build (width height : Nat) (closed : Bool) : Grid :=
  let g : Grid := { width, height }
  { g with
    walls := g.cells.foldl
      (fun walls c => walls.insert c (if closed then Sides.full else g.borderSides c)) ∅ }

/-- Builds a grid of a size given from outside. A size below one is named before it is asked whether
the sizes are whole. -/
def make (width height : Json) (closed : Bool) : Except Fault Grid := do
  let w ← width.toQuantity
  if w.below 1 then throw (.gridNotPositive width height)
  let h ← height.toQuantity
  if h.below 1 then throw (.gridNotPositive width height)
  let isFlag (value : Json) : Bool := value matches .bool _
  return { build (← width.toInt).toNat (← height.toInt).toNat closed with
    oddments := { widthIsFlag := isFlag width, heightIsFlag := isFlag height } }

def widthJson (g : Grid) : Json := if g.oddments.widthIsFlag then .bool true else .whole g.width

def heightJson (g : Grid) : Json := if g.oddments.heightIsFlag then .bool true else .whole g.height

def hasWall (g : Grid) (c : Cell) (side : Facing) : Bool :=
  match g.walls[c]? with
  | some sides => sides.has side
  | none => true

def exitAt (g : Grid) (p : Place) : Bool := g.exit.any (·.same p)

/-- The cells next to `c` that are in bounds, walls or not. -/
def neighbors (g : Grid) (c : Cell) : List Cell :=
  (Facing.all.map fun f => f.step c).filter g.inBounds

/-- Notes a wall on one side of a cell, and nothing else. -/
def noteWall (g : Grid) (c : Cell) (side : Facing) (up : Bool) : Grid :=
  match g.walls[c]? with
  | some sides => { g with walls := g.walls.insert c (sides.set side up) }
  | none => g

/-- Puts a wall up or takes it down, on both sides of the edge where there are two. -/
def setWall (g : Grid) (c : Cell) (side : Facing) (up : Bool) : Except Fault Grid :=
  if g.walls.contains c then
    let g' := g.noteWall c side up
    .ok (if g.inBounds (side.step c) then g'.noteWall (side.step c) side.opposite up else g')
  else .error (.unknownPlace c)

def addWall (g : Grid) (c : Cell) (side : Facing) : Except Fault Grid := g.setWall c side true

def removeWall (g : Grid) (c : Cell) (side : Facing) : Except Fault Grid := g.setWall c side false

def carveBetween (g : Grid) (a b : Cell) : Except Fault Grid :=
  match Facing.all.find? fun f => f.step a == b with
  | some side => g.removeWall a side
  | none => .error (.notAdjacent a b)

def wallsOf (g : Grid) (c : Cell) : Except Fault Sides :=
  match g.walls[c]? with
  | some sides => .ok sides
  | none => .error (.unknownPlace c)

def setExit (g : Grid) (c : Cell) : Except Fault Grid :=
  if g.inBounds c then .ok { g with exit := some (.cell c) }
  else .error (.exitOutside c g.widthJson g.heightJson)

/-- Lays a pickup down; what lay there before is gone. -/
def placePowerup (g : Grid) (c : Cell) (p : Powerup) : Except Fault Grid :=
  if g.inBounds c then .ok { g with powerups := g.powerups.insert c p }
  else .error (.powerupOutside c)

/-- What lies on a cell, and the grid without it. -/
def takePowerup (g : Grid) (c : Cell) : Option Powerup × Grid :=
  (g.powerups[c]?, { g with powerups := g.powerups.erase c })

def powerupCount (g : Grid) : Nat := g.powerups.size + g.oddments.powerups.entries.length

def display (g : Grid) : String :=
  "MazeGrid(" ++ g.widthJson.display ++ "x" ++ g.heightJson.display ++ ", exit=" ++
    (match g.exit with
      | some p => p.display
      | none => "None") ++
    ", powerups=" ++ toString g.powerupCount ++ ")"

end Grid

end MazeDuel
