import MazeDuel.Grid.Basic
/-!
Pictures of a grid in plain text, north at the top: two lines for each row of cells and one for the
southern border, four characters for each cell and one for the eastern border.
-/

namespace MazeDuel.Grid

/-- What stands on a cell: the last mark set there, or the exit, or a pickup. -/
def inscription (g : Grid) (marks : List (Place × String)) (c : Cell) : String :=
  match marks.reverse.find? (·.1.same c) with
  | some mark => mark.2
  | none => if g.exitAt c then "E" else if g.powerups.contains c then "*" else " "

/-- A stretch of horizontal wall, or the gap in its place. -/
def fence (up : Bool) : String := if up then "---" else "   "

def post (up : Bool) : String := if up then "|" else " "

/-- The walls on one side of a row of cells, between corner posts. -/
def fenceLine (g : Grid) (y : Int) (side : Facing) : String :=
  "+" ++ String.join
    ((List.range g.width).map fun (x : Nat) => fence (g.hasWall ⟨x, y⟩ side) ++ "+")

/-- The cells of a row, each with its western wall, and the eastern wall of the last. -/
def rowLine (g : Grid) (marks : List (Place × String)) (y : Int) : String :=
  String.join ((List.range g.width).map fun (x : Nat) =>
    post (g.hasWall ⟨x, y⟩ .west) ++ " " ++ g.inscription marks ⟨x, y⟩ ++ " ") ++
  post (g.hasWall ⟨(g.width : Int) - 1, y⟩ .east)

def picture (g : Grid) (marks : List (Place × String)) : List String :=
  ((List.range g.height).reverse.flatMap fun (y : Nat) =>
    [g.fenceLine y .north, g.rowLine marks y]) ++ [g.fenceLine 0 .south]

end MazeDuel.Grid
