import MazeDuel.Grid.Places
/-!
Grids as documents. Writing lists every noted place with its walls, in the order of the places;
reading starts from the border walls and takes each listed place as it stands, without a look at
its neighbours.
-/

namespace MazeDuel

namespace Place

/-- Whether a row of values comes before another one; values of two kinds have no order. -/
def before? : List Json → List Json → Option Bool
  | [], others => some !others.isEmpty
  | _ :: _, [] => some false
  | a :: values, b :: others =>
    if a.same b then before? values others
    else
      match a, b with
      | .text s, .text t => some (s < t)
      | _, _ => do return (← Quantity.ofJson? a).lt (← Quantity.ofJson? b)

def insertEntry (entry : Place × α) : List (Place × α) → Except Fault (List (Place × α))
  | [] => .ok [entry]
  | first :: rest =>
    match before? entry.1.values first.1.values with
    | some true => .ok (entry :: first :: rest)
    | some false => (first :: ·) <$> insertEntry entry rest
    | none => .error .wrongType

end Place

namespace Grid

/-- All entries of a table, in order, with those of the cells in the forms in which they were
given. -/
def entries (cells : List (Cell × α)) (loose : Loose α) : Except Fault (List (Place × α)) :=
  loose.entries.foldlM (fun entries entry => Place.insertEntry entry entries)
    (cells.map fun entry => (loose.form entry.1, entry.2))

@[simp] theorem entries_empty (cells : List (Cell × α)) :
    entries cells {} = .ok (cells.map fun entry => (.cell entry.1, entry.2)) := rfl

def document (g : Grid) : Except Fault Json := do
  let walls ← entries g.walls.toList g.oddments.walls
  let powerups ← entries g.powerups.toList g.oddments.powerups
  return .object [
    ("width", g.widthJson),
    ("height", g.heightJson),
    ("exit", Json.ofOption Place.toJson g.exit),
    ("walls", .list (walls.map fun (p, sides) =>
      .object [("cell", p.toJson), ("sides", .list (sides.toList.map wordJson))])),
    ("powerups", .list (powerups.map fun (p, kind) =>
      .object [("cell", p.toJson), ("type", wordJson kind)]))]

/-- The grid as a document; null for one whose places have no order. -/
def toJson (g : Grid) : Json := g.document.toOption.getD .null

/-- Notes the walls of one listed place, in bounds or not. -/
def readWalls (g : Grid) (entry : Json) : Except Fault Grid := do
  let sides ← (← (← entry.field "sides").parts).mapM readWord
  let p ← Place.ofJson (← entry.field "cell")
  return g.putSides (← p.asKey) (Sides.ofList sides)

def readPowerup (g : Grid) (entry : Json) : Except Fault Grid := do
  let p ← Place.ofJson (← entry.field "cell")
  g.placePowerupAt p (← readWord (← entry.field "type"))

def readExit (g : Grid) (value : Json) : Except Fault Grid := do
  match value with
  | .null => return g
  | value => g.setExitAt (← Place.ofJson value)

def ofJson (data : Json) : Except Fault Grid := do
  let g ← make (← data.field "width") (← data.field "height") false
  let g ← (← (data.findD "walls" (.list [])).parts).foldlM readWalls g
  let g ← g.readExit (data.findD "exit" .null)
  (← (data.findD "powerups" (.list [])).parts).foldlM readPowerup g

end Grid

end MazeDuel
