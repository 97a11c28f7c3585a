import Std.Data.TreeSet
import MazeDuel.Grid.Places
import MazeDuel.Journal
import MazeDuel.Player
import MazeDuel.Random.Chooser
/-!
Mazes: passages carved by a depth-first walk that steps back when it is stuck, spawn corners on one
edge with the exit on the opposite one, and pickups scattered over the free cells.
-/

namespace MazeDuel.Maze

open MazeDuel.Random (Chooser Twister)

structure Layout where
  grid : Grid
  spawns : Duo Cell

variable {G : Type} (c : Chooser G)

/-- The walk: carve towards some neighbour not yet visited, or step back. The fuel bounds the number
of steps. -/
def carveLoop : Nat → Grid → Std.TreeSet Cell → List Cell → G → Except Fault Grid × G
  | 0, grid, _, _, g => (.ok grid, g)
  | _ + 1, grid, _, [], g => (.ok grid, g)
  | fuel + 1, grid, visited, current :: path, g =>
    match (grid.neighbors current).filter fun cell => !visited.contains cell with
    | [] => carveLoop fuel grid visited path g
    | cell :: others =>
      let (next, g) := c.pick g cell others
      match grid.carveBetween current next with
      | .error fault => (.error fault, g)
      | .ok grid => carveLoop fuel grid (visited.insert next) (next :: current :: path) g

/-- The maze carved from a cell, and the generator after it. Every cell is entered once and left
once, so twice their number bounds the walk. It fails only on the way in from a cell outside. -/
def carve (grid : Grid) (start : Cell) (g : G) : Except Fault Grid × G :=
  carveLoop c (2 * (grid.width * grid.height) + 2) grid (Std.TreeSet.empty.insert start) [start] g

/-- The maze carved from any place. The walk does not come far from a place that is no cell: there
is no wall to take down on the first step. -/
def carveFrom (grid : Grid) (start : Place) (g : G) : Except Fault Grid × G :=
  match start.cell? with
  | some cell => carve c grid cell g
  | none =>
    match start.asKey >>= grid.neighborsAt with
    | .error fault => (.error fault, g)
    | .ok [] => (.ok grid, g)
    | .ok (next :: others) =>
      let (next, g) := c.pick g next others
      (grid.carveAt start next, g)

/-- The spawn corners for an exit on a given side: the two corners of the opposite edge. -/
def spawnsFor (width height : Nat) : Facing → Duo Cell
  | .east => ⟨⟨0, 0⟩, ⟨0, height - 1⟩⟩
  | .west => ⟨⟨width - 1, 0⟩, ⟨width - 1, height - 1⟩⟩
  | .north => ⟨⟨0, 0⟩, ⟨width - 1, 0⟩⟩
  | .south => ⟨⟨0, height - 1⟩, ⟨width - 1, height - 1⟩⟩

def edgeCell (width height : Nat) (offset : Nat) : Facing → Cell
  | .east => ⟨width - 1, offset⟩
  | .west => ⟨0, offset⟩
  | .north => ⟨offset, height - 1⟩
  | .south => ⟨offset, 0⟩

def edgeLength (width height : Nat) : Facing → Nat
  | .east | .west => height
  | .north | .south => width

/-- The side of the exit from two choices of two. -/
def exitSide (acrossRows reversed : Bool) : Facing :=
  match acrossRows, reversed with
  | false, false => .east
  | false, true => .west
  | true, false => .north
  | true, true => .south

/-- Chooses an edge for the exit and a cell on it, and opens the outer wall there. -/
def placeSpawnsAndExit (grid : Grid) (g : G) : Except Fault (Layout × G) := do
  let (first, g) := c.below g 2 (by decide)
  let (second, g) := c.below g 2 (by decide)
  let side := exitSide (first.val == 1) (second.val == 1)
  let length := edgeLength grid.width grid.height side
  let (offset, g) : Nat × G :=
    if h : 0 < length then
      let (i, g) := c.below g length h
      (i.val, g)
    else (0, g)
  let cell := edgeCell grid.width grid.height offset side
  let grid' ← grid.setExit cell
  let grid' ← grid'.removeWall cell side
  return (⟨grid', spawnsFor grid.width grid.height side⟩, g)

/-- Lays down `each` pickups of every kind on distinct cells, as long as free cells are left. -/
def scatter (grid : Grid) (forbidden : List Place) (each : Nat) (g : G) :
    Except Fault Grid × G :=
  let free := grid.cells.filter fun (cell : Cell) => !forbidden.any (·.same cell)
  let (shuffled, g) := c.shuffle g free
  let each := min each free.length
  let kinds := List.replicate each Powerup.phase ++ List.replicate each Powerup.trueRadar
  ((shuffled.zip kinds).foldlM
    (fun (grid : Grid) (placed : Cell × Powerup) => grid.placePowerup placed.1 placed.2) grid, g)

/-- Lays down a number of pickups given from outside. Whether it is a number is found out when the
free cells are shuffled. -/
def scatterGiven (grid : Grid) (forbidden : List Place) (each : Json) (g : G) :
    Except Fault Grid × G :=
  match forbidden.mapM Place.asKey with
  | .error fault => (.error fault, g)
  | .ok forbidden =>
    match each.toInt with
    | .ok each => scatter c grid forbidden each.toNat g
    | .error fault => (.error fault, (scatter c grid forbidden 0 g).2)

def minSize : Nat := 3

def layout (width height each : Nat) (g : G) : Except Fault (Layout × G) := do
  let (carved, g) := carve c (Grid.build width height true) ⟨0, 0⟩ g
  let (placed, g) ← placeSpawnsAndExit c (← carved) g
  let forbidden := [Place.cell placed.spawns.a, .cell placed.spawns.b] ++ placed.grid.exit.toList
  let (grid, g) := scatter c placed.grid forbidden each g
  return (⟨← grid, placed.spawns⟩, g)

/-- The generator that a seed stands for. A whole number stands for the same one every time; which
one it is without a seed, and for a text or a real number, is left to `seeds`. -/
def generator (seeds : Json → Twister) : Json → Except Fault Twister
  | .whole n => .ok (.ofSeed n)
  | .bool b => .ok (.ofSeed (if b then 1 else 0))
  | .list _ | .object _ => .error .wrongType
  | seed => .ok (seeds seed)

/-- A size that is large enough. Both sizes are named if one is not. -/
def checkSize (width height size : Json) : Except Fault Unit := do
  if (← size.toQuantity).below minSize then throw (.mazeTooSmall width height)

/-- The maze of a seed; without a number of pickups there is one of each kind for four columns.
Sizes that are too small are named before it is asked whether they are whole. -/
def build (seeds : Json → Twister) (width height seed each : Json) : Except Fault Layout := do
  checkSize width height width
  checkSize width height height
  let w ← width.toInt
  let h ← height.toInt
  let rng ← generator seeds seed
  let each ← match each with
    | .null => pure (w / 4)
    | each => each.toInt
  return (← layout Twister.chooser w.toNat h.toNat each.toNat rng).1

def madeRecord (width height seed : Json) (made : Layout) : Record :=
  ⟨.info, "duel.world.maze", "Generated " ++ width.display ++ "x" ++ height.display ++
    " maze (seed=" ++ seed.plainText ++ "): spawns A=" ++ made.spawns.a.display ++ " B=" ++
    made.spawns.b.display ++ " exit=" ++ (made.grid.exit.map Place.display).getD "None" ++
    " powerups=" ++ toString made.grid.powerupCount⟩

def generate (seeds : Json → Twister) (width height seed each : Json) :
    Logged (Except Fault Layout) :=
  match build seeds width height seed each with
  | .error fault => pure (.error fault)
  | .ok made => ⟨.ok made, [madeRecord width height seed made]⟩

end MazeDuel.Maze
