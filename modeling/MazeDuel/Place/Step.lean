import MazeDuel.Document
/-!
Steps from place to place. From a cell every step leads to a cell; other places need two numbers to
be left at all, and from them a step leads to the place with the numbers moved.
-/

namespace MazeDuel.Place

def shift (value : Json) (amount : Quantity) : Except Fault Json := do
  let q ← value.toQuantity
  if q.combines amount then return (q.add amount).toJson else throw .numberTooLarge

/-- A row of values with its first two moved; the others are left out. -/
def shiftRow (f : Facing) (cells : Quantity) : List Json → Except Fault Place
  | [] => .error .noCoordinate
  | x :: rest => do
    let x ← shift x (.mul f.delta.x cells)
    match rest with
    | [] => throw .noCoordinate
    | y :: _ => return ofValues [x, ← shift y (.mul f.delta.y cells)]

def ahead (f : Facing) (cells : Quantity) (p : Place) : Except Fault Place :=
  match p, cells with
  | .cell c, .whole n => .ok (.cell (f.ahead n c))
  | _, _ => shiftRow f cells p.values

def step (f : Facing) : Place → Except Fault Place
  | .cell c => .ok (.cell (f.step c))
  | .row values => shiftRow f (.whole 1) values

@[simp] theorem step_cell (f : Facing) (c : Cell) : (cell c).step f = .ok (cell (f.step c)) := rfl

end MazeDuel.Place
