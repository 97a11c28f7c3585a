import MazeDuel.Proofs.World.Given
/-!
Consistency of grids that are read. A document is taken as it stands: the walls of a cell are those
of the entry that names it last, and nobody looks at the cell on the other side. So the grid agrees
with itself just if the document does.
-/

namespace MazeDuel.Grid

/-- A grid on which both sides of every edge agree, and everything outside is walled. -/
structure Consistent (g : Grid) : Prop where
  agree : ∀ c side, g.inBounds c = true → g.inBounds (side.step c) = true →
    g.hasWall c side = g.hasWall (side.step c) side.opposite
  outside : ∀ c side, g.inBounds c = false → g.hasWall c side = true

/-- The walls in the last of some rows that is of a cell. -/
def lastListed (c : Cell) : List (Place × Sides) → Option Sides
  | [] => none
  | row :: rows => (lastListed c rows).or (if row.1.cell? = some c then some row.2 else none)

theorem exists_row_of_lastListed {c : Cell} {sides : Sides} {rows : List (Place × Sides)}
    (h : lastListed c rows = some sides) : ∃ row ∈ rows, row.1.cell? = some c ∧ row.2 = sides := by
  induction rows with
  | nil => cases h
  | cons row rows ih =>
    rcases Option.or_eq_some_iff.mp h with hlater | ⟨-, hfirst⟩
    · obtain ⟨later, hmem, hlater⟩ := ih hlater
      exact ⟨later, .tail row hmem, hlater⟩
    · split at hfirst
      · next hcell => exact ⟨row, .head rows, hcell, Option.some.inj hfirst⟩
      · cases hfirst

/-- Whether a list of walls agrees with itself: what is listed of a cell in bounds is listed from
the other side too, where that is in bounds, and what is listed of a cell outside is all walled. -/
structure ListsBothSides (g : Grid) (rows : List (Place × Sides)) : Prop where
  agree : ∀ c sides side, lastListed c rows = some sides → g.inBounds c = true →
    g.inBounds (side.step c) = true →
      sides.has side = ((lastListed (side.step c) rows).map (·.has side.opposite)).getD false
  outside : ∀ c sides side, lastListed c rows = some sides → g.inBounds c = false →
    sides.has side = true

theorem getElem?_putAll (t : Table Sides) (rows : List (Place × Sides)) (c : Cell) :
    (t.putAll rows).cells[c]? = (lastListed c rows).or t.cells[c]? := by
  induction rows generalizing t with
  | nil => rfl
  | cons row rows ih =>
    have hput : (t.put row.1 row.2).cells[c]? =
        (if row.1.cell? = some c then some row.2 else none).or t.cells[c]? := by
      rw [Table.getElem?_put]
      split <;> rfl
    show ((t.put row.1 row.2).putAll rows).cells[c]? = _
    rw [ih, hput, lastListed, Option.or_assoc]

/-- A grid made open has the border walls on each of its cells, and nothing outside. -/
theorem getElem?_make {width height : Json} {g : Grid} (h : make width height false = .ok g)
    (c : Cell) :
    g.walls[c]? = if g.inBounds c = true then some (g.borderSides c) else none := by
  obtain ⟨w, k, _, _, -, -, -, -, rfl⟩ := exists_build_of_make h
  exact getElem?_build w k false c

/-- Whether two grids are of one size and have the same walls noted on their cells. -/
structure SameWalls (g g' : Grid) : Prop where
  width : g'.width = g.width
  height : g'.height = g.height
  walls : g'.walls = g.walls

namespace SameWalls

variable {g g' g'' : Grid}

theorem refl (g : Grid) : g.SameWalls g := ⟨rfl, rfl, rfl⟩

theorem trans (h : g.SameWalls g') (h' : g'.SameWalls g'') : g.SameWalls g'' :=
  ⟨h'.width.trans h.width, h'.height.trans h.height, h'.walls.trans h.walls⟩

theorem of_setExitAt {p : Place} (h : g.setExitAt p = .ok g') : g.SameWalls g' := by
  obtain ⟨-, heq⟩ := exit_of_setExitAt h
  rw [heq]
  exact ⟨rfl, rfl, rfl⟩

theorem of_readExit {value : Json} (h : g.readExit value = .ok g') : g.SameWalls g' := by
  unfold readExit at h
  split at h
  · cases h
    exact refl g
  · obtain ⟨p, -, h⟩ := exists_ok_of_bind h
    exact of_setExitAt h

theorem of_readPowerup {entry : Json} (h : g.readPowerup entry = .ok g') : g.SameWalls g' := by
  rw [readPowerup_eq] at h
  obtain ⟨row, -, h⟩ := exists_ok_of_bind h
  rw [placePowerupAt_eq (contains_of_placePowerupAt h)] at h
  rw [← Except.ok.inj h]
  exact ⟨rfl, rfl, rfl⟩

end SameWalls

/-- Every cell has the walls that are listed of it last, and else those of the border. -/
theorem exists_rows_of_ofJson {data : Json} {g : Grid} (h : ofJson data = .ok g) :
    ∃ rows, wallRows data = .ok rows ∧ ∀ c, g.walls[c]? =
      (lastListed c rows).or (if g.inBounds c = true then some (g.borderSides c) else none) := by
  rw [ofJson_eq] at h
  obtain ⟨width, -, h⟩ := exists_ok_of_bind h
  obtain ⟨height, -, h⟩ := exists_ok_of_bind h
  obtain ⟨bare, hbare, h⟩ := exists_ok_of_bind h
  obtain ⟨rows, hrows, h⟩ := exists_ok_of_bind h
  obtain ⟨opened, hopened, h⟩ := exists_ok_of_bind h
  obtain ⟨powerups, -, h⟩ := exists_ok_of_bind h
  have hsame : (bare.withWalls (bare.wallTable.putAll rows)).SameWalls g :=
    foldlM_keeps (fun _ _ _ hg hread => hg.trans (.of_readPowerup hread))
      (.of_readExit hopened) h
  refine ⟨rows, hrows, fun c => ?_⟩
  have hin : g.inBounds c = bare.inBounds c := by
    unfold inBounds
    rw [hsame.width, hsame.height]
    rfl
  have hborder : g.borderSides c = bare.borderSides c := by
    unfold borderSides inBounds
    rw [hsame.width, hsame.height]
    rfl
  rw [hsame.walls, hin, hborder, ← getElem?_make hbare c]
  exact getElem?_putAll bare.wallTable rows c

variable {g : Grid} {rows : List (Place × Sides)} {c : Cell}

/-- Towards a cell in bounds there is a wall just if one is listed. -/
theorem hasWall_inside (hwalls : g.walls[c]? =
      (lastListed c rows).or (if g.inBounds c = true then some (g.borderSides c) else none))
    (hc : g.inBounds c = true) {side : Facing} (hnext : g.inBounds (side.step c) = true) :
    g.hasWall c side = ((lastListed c rows).map (·.has side)).getD false := by
  unfold hasWall
  rw [hwalls, if_pos hc]
  cases lastListed c rows with
  | some sides => rfl
  | none =>
    show (g.borderSides c).has side = false
    rw [borderSides, Sides.has_ofTest, hnext]
    rfl

theorem hasWall_outside (hwalls : g.walls[c]? =
      (lastListed c rows).or (if g.inBounds c = true then some (g.borderSides c) else none))
    (hc : g.inBounds c = false) (side : Facing) :
    g.hasWall c side = ((lastListed c rows).map (·.has side)).getD true := by
  unfold hasWall
  rw [hwalls, if_neg (Bool.eq_false_iff.mp hc)]
  cases lastListed c rows <;> rfl

/-- A grid that is read has on each cell the walls that its document lists of it last, and else
those of the border; it is consistent just if the listing is. -/
theorem consistent_iff {data : Json} {g : Grid} (h : ofJson data = .ok g) :
    ∃ rows, wallRows data = .ok rows ∧
      (∀ c, g.walls[c]? =
        (lastListed c rows).or (if g.inBounds c = true then some (g.borderSides c) else none)) ∧
      (g.Consistent ↔ g.ListsBothSides rows) := by
  obtain ⟨rows, hrows, hwalls⟩ := exists_rows_of_ofJson h
  have hback (c : Cell) (side : Facing) (hc : g.inBounds c = true) :
      g.inBounds (side.opposite.step (side.step c)) = true := by
    rwa [Facing.step_opposite]
  refine ⟨rows, hrows, hwalls, fun hconsistent => ?_, fun hlists => ?_⟩
  · refine ⟨fun c sides side hlisted hc hnext => ?_, fun c sides side hlisted hc => ?_⟩
    · have hagree := hconsistent.agree c side hc hnext
      rw [hasWall_inside (hwalls c) hc hnext,
        hasWall_inside (hwalls (side.step c)) hnext (hback c side hc), hlisted] at hagree
      exact hagree
    · have hwalled := hconsistent.outside c side hc
      rw [hasWall_outside (hwalls c) hc, hlisted] at hwalled
      exact hwalled
  · refine ⟨fun c side hc hnext => ?_, fun c side hc => ?_⟩
    · rw [hasWall_inside (hwalls c) hc hnext,
        hasWall_inside (hwalls (side.step c)) hnext (hback c side hc)]
      -- whichever of the two cells is listed tells about the other; if neither is, both are open
      cases hnear : lastListed c rows with
      | some sides => exact hlists.agree c sides side hnear hc hnext
      | none =>
        cases hfar : lastListed (side.step c) rows with
        | none => rfl
        | some sides =>
          have hagree := hlists.agree (side.step c) sides side.opposite hfar hnext (hback c side hc)
          rw [Facing.step_opposite, hnear] at hagree
          exact hagree.symm
    · rw [hasWall_outside (hwalls c) hc]
      cases hlisted : lastListed c rows with
      | none => rfl
      | some sides => exact hlists.outside c sides side hlisted hc

/-- A document of two cells that lists a wall between them from both sides, and one of them twice.
-/
def paired : Json := .object [("width", .whole 2), ("height", .whole 1),
  ("walls", .list [
    .object [("cell", .list [.whole 0, .whole 0]), ("sides", .list [])],
    .object [("cell", .list [.bool true, .whole 0]), ("sides", .list [.text "west"])],
    .object [("cell", .list [.whole 0, .whole 0]), ("sides", .list [.text "east"])]])]

/-- The rows of that document are of its two cells. -/
theorem cell_of_lastListed_paired {rows : List (Place × Sides)} (hrows : wallRows paired = .ok rows)
    {c : Cell} {sides : Sides} (h : lastListed c rows = some sides) : c = ⟨0, 0⟩ ∨ c = ⟨1, 0⟩ := by
  cases hrows
  obtain ⟨row, hrow, hcell, -⟩ := exists_row_of_lastListed h
  rcases List.mem_cons.mp hrow with rfl | hrow
  · exact .inl (Option.some.inj hcell).symm
  · rcases List.mem_cons.mp hrow with rfl | hrow
    · exact .inr (Option.some.inj hcell).symm
    · rw [List.mem_singleton.mp hrow] at hcell
      exact .inl (Option.some.inj hcell).symm

/-- The later of the two rows of a cell stands. -/
theorem consistent_iff_paired : ∃ g, ofJson paired = .ok g ∧ g.Consistent := by
  obtain ⟨g, hg⟩ : ∃ g, ofJson paired = .ok g := ⟨_, rfl⟩
  obtain ⟨rows, hrows, -, hiff⟩ := consistent_iff hg
  refine ⟨g, hg, hiff.mpr ⟨fun c sides side hlisted hc hnext => ?_,
    fun c sides side hlisted hc => ?_⟩⟩
  · have hcell := cell_of_lastListed_paired hrows hlisted
    cases hg
    cases hrows
    rcases hcell with rfl | rfl
    · cases side with
      | east =>
        cases hlisted
        rfl
      | west => cases hnext
      | north => cases hnext
      | south => cases hnext
    · cases side with
      | east => cases hnext
      | west =>
        cases hlisted
        rfl
      | north => cases hnext
      | south => cases hnext
  · have hcell := cell_of_lastListed_paired hrows hlisted
    cases hg
    rcases hcell with rfl | rfl
    · cases hc
    · cases hc

/-- A document of two cells that lists a wall between them from one side only, and a cell outside
with no walls at all. -/
def oneSided : Json := .object [("width", .whole 2), ("height", .whole 1),
  ("walls", .list [
    .object [("cell", .list [.whole 0, .whole 0]), ("sides", .list [.text "east"])],
    .object [("cell", .list [.whole 5, .whole 5]), ("sides", .list [])]])]

/-- The wall that is listed of one cell is not noted on the other, and the cell outside is open. -/
theorem oneSided_not_consistent : ∃ g, ofJson oneSided = .ok g ∧ ¬ g.Consistent ∧
    g.inBounds ⟨5, 5⟩ = false ∧ g.hasWall ⟨5, 5⟩ .north = false := by
  refine ⟨_, rfl, fun hconsistent => ?_, rfl, rfl⟩
  have hagree := hconsistent.agree ⟨0, 0⟩ .east rfl rfl
  cases hagree

end MazeDuel.Grid
