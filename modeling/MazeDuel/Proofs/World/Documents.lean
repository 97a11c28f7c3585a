import MazeDuel.Proofs.World.Orderly
/-!
Documents of grids, read row by row. The walls that a document lists are rows of a table, noted one
after the other over the border walls; its pickups are laid down one after the other likewise.
-/

namespace MazeDuel.Grid

/-- The place that an entry of a document lists, with its walls. -/
def wallRow (entry : Json) : Except Fault (Place × Sides) := do
  let sides ← (← (← entry.field "sides").parts).mapM readWord
  let p ← Place.ofJson (← entry.field "cell")
  return (← p.asKey, Sides.ofList sides)

def powerupRow (entry : Json) : Except Fault (Place × Powerup) := do
  let p ← Place.ofJson (← entry.field "cell")
  return (p, ← readWord (← entry.field "type"))

/-- The walls that a document lists, in its order. -/
def wallRows (data : Json) : Except Fault (List (Place × Sides)) := do
  (← (data.findD "walls" (.list [])).parts).mapM wallRow

/-- A place that is listed can be noted and is plain. -/
theorem place_of_wallRow {entry : Json} {row : Place × Sides} (h : wallRow entry = .ok row) :
    row.1.isKey = true ∧ row.1.Plain := by
  obtain ⟨_, -, h⟩ := exists_ok_of_bind h
  obtain ⟨_, -, h⟩ := exists_ok_of_bind h
  obtain ⟨sides, -, h⟩ := exists_ok_of_bind h
  obtain ⟨_, -, h⟩ := exists_ok_of_bind h
  obtain ⟨p, hp, h⟩ := exists_ok_of_bind h
  obtain ⟨q, hq, h⟩ := exists_ok_of_bind h
  obtain ⟨heq, hkey⟩ := Place.isKey_of_asKey hq
  cases h
  rw [heq]
  exact ⟨hkey, Place.plain_ofJson hp⟩

theorem place_of_powerupRow {entry : Json} {row : Place × Powerup}
    (h : powerupRow entry = .ok row) : row.1.Plain := by
  obtain ⟨_, -, h⟩ := exists_ok_of_bind h
  obtain ⟨p, hp, h⟩ := exists_ok_of_bind h
  obtain ⟨_, -, h⟩ := exists_ok_of_bind h
  obtain ⟨kind, -, h⟩ := exists_ok_of_bind h
  cases h
  exact Place.plain_ofJson hp

theorem readWalls_eq (g : Grid) (entry : Json) :
    g.readWalls entry = (fun row => g.putSides row.1 row.2) <$> wallRow entry := by
  simp only [readWalls, wallRow, map_bind, map_pure]

theorem readPowerup_eq (g : Grid) (entry : Json) :
    g.readPowerup entry = powerupRow entry >>= fun row => g.placePowerupAt row.1 row.2 := by
  simp only [readPowerup, powerupRow, bind_assoc, pure_bind]

theorem foldlM_readWalls (g : Grid) (entries : List Json) : entries.foldlM readWalls g =
    (fun rows => g.withWalls (g.wallTable.putAll rows)) <$> entries.mapM wallRow := by
  induction entries generalizing g with
  | nil => rfl
  | cons entry entries ih =>
    rw [List.foldlM_cons, List.mapM_cons, readWalls_eq]
    cases wallRow entry with
    | error fault => rfl
    | ok row =>
      show entries.foldlM readWalls (g.putSides row.1 row.2) = _
      rw [ih, putSides_eq]
      cases entries.mapM wallRow <;> rfl

/-- A document is read in three stages: the walls, the exit, the pickups. -/
theorem ofJson_eq (data : Json) : ofJson data = (do
    let bare ← make (← data.field "width") (← data.field "height") false
    let rows ← wallRows data
    let g ← (bare.withWalls (bare.wallTable.putAll rows)).readExit (data.findD "exit" .null)
    (← (data.findD "powerups" (.list [])).parts).foldlM readPowerup g) := by
  simp only [ofJson, wallRows, foldlM_readWalls, bind_assoc, bind_map_left]

end MazeDuel.Grid
