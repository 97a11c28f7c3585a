import MazeDuel.Grid.Picture
import MazeDuel.Proofs.World.Edits
/-!
Pictures of grids. Every line of a picture has the same length, four characters for each cell and
one more, and is made of blocks of four. So a picture can be taken apart into the blocks of its
cells. Each wall is drawn from one of its two sides only; where both sides of every edge agree, the
picture tells of all walls, of the exit, and of the pickups on all other cells.
-/

namespace MazeDuel.Grid

/-- Whether both sides of every edge agree. -/
def TwoSided (g : Grid) : Prop :=
  ∀ c side, g.inBounds c = true → g.inBounds (side.step c) = true →
    g.hasWall c side = g.hasWall (side.step c) side.opposite

/-- Whether the exit, if there is one, is a cell in bounds. -/
def ExitOnGrid (g : Grid) : Prop := ∀ p, g.exit = some p → ∃ c, p = .cell c ∧ g.inBounds c = true

/-- The picture without marks, as a text. -/
def drawing (g : Grid) : String := "\n".intercalate (g.picture [])

/-- The lines of a text. -/
def linesOf (text : String) : List (List Char) := text.toList.splitOn '\n'

/-- What is drawn for a cell in its row: the wall in its west, and what stands on it. -/
def cellBlock (wall exit pickup : Bool) : List Char :=
  (post wall ++ " " ++ (if exit then "E" else if pickup then "*" else " ") ++ " ").toList

/-- What is drawn for a cell above or below it, up to the next corner post. -/
def fenceBlock (up : Bool) : List Char := (fence up ++ "+").toList

theorem length_cellBlock (wall exit pickup : Bool) : (cellBlock wall exit pickup).length = 4 := by
  revert wall exit pickup
  decide

theorem length_fenceBlock (up : Bool) : (fenceBlock up).length = 4 := by
  revert up
  decide

theorem newline_notMem_cellBlock (wall exit pickup : Bool) :
    '\n' ∉ cellBlock wall exit pickup := by
  revert wall exit pickup
  decide

theorem newline_notMem_fenceBlock (up : Bool) : '\n' ∉ fenceBlock up := by
  revert up
  decide

theorem fenceBlock_inj {up up' : Bool} (h : fenceBlock up = fenceBlock up') : up = up' := by
  revert up up'
  decide

theorem post_inj {up up' : Bool} (h : (post up).toList = (post up').toList) : up = up' := by
  revert up up'
  decide

theorem cellBlock_inj {wall exit pickup wall' exit' pickup' : Bool}
    (h : cellBlock wall exit pickup = cellBlock wall' exit' pickup') :
    wall = wall' ∧ exit = exit' ∧ (exit = false → pickup = pickup') := by
  revert wall exit pickup wall' exit' pickup'
  decide

/-- Blocks of one length are found again in what is put together of them. -/
theorem flatMap_inj {α β : Type} {f f' : α → List β} {n : Nat} (hf : ∀ a, (f a).length = n)
    (hf' : ∀ a, (f' a).length = n) {items : List α} (h : items.flatMap f = items.flatMap f') :
    ∀ a ∈ items, f a = f' a := by
  have hlengths : (items.map f).map List.length = (items.map f').map List.length := by
    simp [hf, hf']
  rw [List.flatMap_def, List.flatMap_def] at h
  exact List.map_inj_left.mp (List.eq_iff_flatten_eq.mpr ⟨h, hlengths⟩)

theorem inscription_unmarked (g : Grid) (c : Cell) : g.inscription [] c =
    if g.exitAt c then "E" else if g.powerups.contains c then "*" else " " := rfl

theorem toList_fenceLine (g : Grid) (y : Int) (side : Facing) : (g.fenceLine y side).toList =
    '+' :: (List.range g.width).flatMap fun (x : Nat) => fenceBlock (g.hasWall ⟨x, y⟩ side) := by
  simp [fenceLine, fenceBlock, List.flatMap_map]

theorem toList_rowLine (g : Grid) (y : Int) : (g.rowLine [] y).toList =
    ((List.range g.width).flatMap fun (x : Nat) =>
      cellBlock (g.hasWall ⟨x, y⟩ .west) (g.exitAt (.cell ⟨x, y⟩)) (g.powerups.contains ⟨x, y⟩)) ++
    (post (g.hasWall ⟨(g.width : Int) - 1, y⟩ .east)).toList := by
  simp [rowLine, cellBlock, inscription_unmarked, List.flatMap_map]

theorem length_fenceLine (g : Grid) (y : Int) (side : Facing) :
    (g.fenceLine y side).toList.length = 4 * g.width + 1 := by
  rw [toList_fenceLine]
  simp [List.length_flatMap, length_fenceBlock]
  omega

theorem length_rowLine (g : Grid) (y : Int) :
    (g.rowLine [] y).toList.length = 4 * g.width + 1 := by
  have hpost : ∀ up, (post up).toList.length = 1 := by decide
  rw [toList_rowLine, List.length_append, hpost]
  simp [List.length_flatMap, length_cellBlock]
  omega

theorem newline_notMem_fenceLine (g : Grid) (y : Int) (side : Facing) :
    '\n' ∉ (g.fenceLine y side).toList := by
  rw [toList_fenceLine, List.mem_cons, List.mem_flatMap]
  rintro (hpost | ⟨x, -, hblock⟩)
  · exact absurd hpost (by decide)
  · exact newline_notMem_fenceBlock _ hblock

theorem newline_notMem_rowLine (g : Grid) (y : Int) : '\n' ∉ (g.rowLine [] y).toList := by
  have hpost : ∀ up, '\n' ∉ (post up).toList := by decide
  rw [toList_rowLine, List.mem_append, List.mem_flatMap]
  rintro (⟨x, -, hblock⟩ | hlast)
  · exact newline_notMem_cellBlock _ _ _ hblock
  · exact hpost _ hlast

/-- Every line of a picture is drawn between two rows of cells or across one. -/
theorem line_cases {g : Grid} {line : String} (h : line ∈ g.picture []) :
    (∃ y side, line = g.fenceLine y side) ∨ ∃ y, line = g.rowLine [] y := by
  rw [picture, List.mem_append, List.mem_flatMap, List.mem_singleton] at h
  obtain ⟨y, -, hline⟩ | hbottom := h
  · rw [List.mem_cons, List.mem_singleton] at hline
    obtain hfence | hrow := hline
    · exact .inl ⟨_, _, hfence⟩
    · exact .inr ⟨_, hrow⟩
  · exact .inl ⟨_, _, hbottom⟩

theorem length_picture (g : Grid) : (g.picture []).length = 2 * g.height + 1 := by
  simp [picture, List.length_flatMap]
  omega

theorem length_line {g : Grid} {line : String} (h : line ∈ g.picture []) :
    line.toList.length = 4 * g.width + 1 := by
  obtain ⟨y, side, rfl⟩ | ⟨y, rfl⟩ := line_cases h
  · exact g.length_fenceLine y side
  · exact g.length_rowLine y

/-- The lines of the text are those that were drawn. -/
theorem linesOf_drawing (g : Grid) : linesOf g.drawing = (g.picture []).map String.toList := by
  rw [linesOf, drawing, String.toList_intercalate]
  apply List.splitOn_intercalate
  · intro line hline
    obtain ⟨drawn, hdrawn, rfl⟩ := List.mem_map.mp hline
    obtain ⟨y, side, rfl⟩ | ⟨y, rfl⟩ := line_cases hdrawn
    · exact g.newline_notMem_fenceLine y side
    · exact g.newline_notMem_rowLine y
  · simp [picture]

variable {g g' : Grid}

theorem picture_of_drawing (h : g.drawing = g'.drawing) : g.picture [] = g'.picture [] := by
  have hlines : (g.picture []).map String.toList = (g'.picture []).map String.toList := by
    rw [← linesOf_drawing, ← linesOf_drawing, h]
  exact List.map_injective_iff.mpr (fun _ _ => String.toList_inj.mp) hlines

theorem lines_of_picture (hh : g'.height = g.height) (h : g.picture [] = g'.picture []) :
    (∀ y, y < g.height → g.fenceLine y .north = g'.fenceLine y .north ∧
      g.rowLine [] y = g'.rowLine [] y) ∧ g.fenceLine 0 .south = g'.fenceLine 0 .south := by
  rw [picture, picture, hh] at h
  obtain ⟨hrows, hbottom⟩ := List.append_inj' h rfl
  refine ⟨fun y hy => ?_, List.singleton_inj.mp hbottom⟩
  have hpair := flatMap_inj (n := 2) (fun _ => rfl) (fun _ => rfl) hrows y (by simpa using hy)
  exact ⟨(List.cons.inj hpair).1, List.singleton_inj.mp (List.cons.inj hpair).2⟩

/-- A line between two rows tells of each wall along it. -/
theorem hasWall_of_fenceLine (hw : g'.width = g.width) {y : Int} {side : Facing}
    (h : g.fenceLine y side = g'.fenceLine y side) {x : Nat} (hx : x < g.width) :
    g.hasWall ⟨x, y⟩ side = g'.hasWall ⟨x, y⟩ side := by
  have hchars : (g.fenceLine y side).toList = (g'.fenceLine y side).toList := by rw [h]
  rw [toList_fenceLine, toList_fenceLine, hw] at hchars
  have hblocks := flatMap_inj (fun _ => length_fenceBlock _) (fun _ => length_fenceBlock _)
    (List.cons.inj hchars).2 x (List.mem_range.mpr hx)
  exact fenceBlock_inj hblocks

/-- The line of a row tells of the western wall of each cell, of what stands on it, and of the
eastern wall of the last. -/
theorem cells_of_rowLine (hw : g'.width = g.width) {y : Int}
    (h : g.rowLine [] y = g'.rowLine [] y) :
    (∀ x : Nat, x < g.width → g.hasWall ⟨x, y⟩ .west = g'.hasWall ⟨x, y⟩ .west ∧
      g.exitAt (.cell ⟨x, y⟩) = g'.exitAt (.cell ⟨x, y⟩) ∧
      (g.exitAt (.cell ⟨x, y⟩) = false →
        g.powerups.contains ⟨x, y⟩ = g'.powerups.contains ⟨x, y⟩)) ∧
      g.hasWall ⟨(g.width : Int) - 1, y⟩ .east = g'.hasWall ⟨(g.width : Int) - 1, y⟩ .east := by
  have hpost : ∀ up up', (post up).toList.length = (post up').toList.length := by decide
  have hchars : (g.rowLine [] y).toList = (g'.rowLine [] y).toList := by rw [h]
  rw [toList_rowLine, toList_rowLine, hw] at hchars
  obtain ⟨hrow, hlast⟩ := List.append_inj' hchars (hpost _ _)
  refine ⟨fun x hx => ?_, post_inj hlast⟩
  have hblocks := flatMap_inj (fun _ => length_cellBlock _ _ _) (fun _ => length_cellBlock _ _ _)
    hrow x (List.mem_range.mpr hx)
  exact cellBlock_inj hblocks

theorem TwoSided.south (hg : g.TwoSided) {x y : Nat} (hx : x < g.width) (hy : y + 1 < g.height) :
    g.hasWall ⟨x, (y + 1 : Nat)⟩ .south = g.hasWall ⟨x, y⟩ .north := by
  have hstep : Facing.south.step ⟨x, (y + 1 : Nat)⟩ = ⟨x, y⟩ := by
    simp [Facing.step, Facing.delta]
  have hagree := hg ⟨x, (y + 1 : Nat)⟩ .south (by simp [inBounds]; omega)
  rw [hstep] at hagree
  exact hagree (by simp [inBounds]; omega)

theorem TwoSided.east (hg : g.TwoSided) {x y : Nat} (hx : x + 1 < g.width) (hy : y < g.height) :
    g.hasWall ⟨x, y⟩ .east = g.hasWall ⟨(x + 1 : Nat), y⟩ .west := by
  have hstep : Facing.east.step ⟨x, y⟩ = ⟨(x + 1 : Nat), y⟩ := by
    simp [Facing.step, Facing.delta]
  have hagree := hg ⟨x, y⟩ .east (by simp [inBounds]; omega)
  rw [hstep] at hagree
  exact hagree (by simp [inBounds]; omega)

/-- Every side of a cell is drawn: in the line above its row, in its row, or from the cell next to
it, unless it is at the southern or the eastern border. -/
theorem hasWall_of_picture (hg : g.TwoSided) (hg' : g'.TwoSided) (hw : g'.width = g.width)
    (hh : g'.height = g.height) (h : g.picture [] = g'.picture []) {x y : Nat} (hx : x < g.width)
    (hy : y < g.height) (side : Facing) : g.hasWall ⟨x, y⟩ side = g'.hasWall ⟨x, y⟩ side := by
  obtain ⟨hlines, hbottom⟩ := lines_of_picture hh h
  have hnorth {y : Nat} (hy : y < g.height) :
      g.hasWall ⟨x, y⟩ .north = g'.hasWall ⟨x, y⟩ .north :=
    hasWall_of_fenceLine hw (hlines y hy).1 hx
  obtain ⟨hwest, hlast⟩ := cells_of_rowLine hw (hlines y hy).2
  cases side with
  | north => exact hnorth hy
  | south =>
    cases y with
    | zero => exact hasWall_of_fenceLine hw hbottom hx
    | succ y => rw [hg.south hx hy, hg'.south (hw ▸ hx) (hh ▸ hy), hnorth (by omega)]
  | east =>
    by_cases hnext : x + 1 < g.width
    · rw [hg.east hnext hy, hg'.east (hw ▸ hnext) (hh ▸ hy), (hwest (x + 1) hnext).1]
    · have hend : (g.width : Int) - 1 = x := by omega
      rwa [hend] at hlast
  | west => exact (hwest x hx).1

theorem exitAt_cell_iff (hg : g.ExitOnGrid) (c : Cell) :
    g.exitAt (.cell c) = true ↔ g.exit = some (.cell c) := by
  unfold exitAt
  cases hexit : g.exit with
  | none => simp
  | some p =>
    obtain ⟨d, rfl, -⟩ := hg p hexit
    simp

/-- Exits that are seen at the same cells are the same. -/
theorem exit_eq_of_exitAt (hg : g.ExitOnGrid) (hg' : g'.ExitOnGrid)
    (hin : ∀ c, g'.inBounds c = g.inBounds c)
    (h : ∀ c, g.inBounds c = true → g.exitAt (.cell c) = g'.exitAt (.cell c)) :
    g.exit = g'.exit := by
  have hmove {a b : Grid} (ha : a.ExitOnGrid) (hb : b.ExitOnGrid)
      (hsame : ∀ c, a.inBounds c = true → a.exitAt (.cell c) = b.exitAt (.cell c)) {p : Place}
      (hp : a.exit = some p) : b.exit = some p := by
    obtain ⟨c, rfl, hc⟩ := ha p hp
    rw [← exitAt_cell_iff hb, ← hsame c hc, exitAt_cell_iff ha, hp]
  cases hexit : g.exit with
  | some p => exact (hmove hg hg' h hexit).symm
  | none =>
    cases hexit' : g'.exit with
    | none => rfl
    | some p =>
      have hback := hmove hg' hg (fun c hc => (h c ((hin c).symm.trans hc)).symm) hexit'
      rw [hexit] at hback
      cases hback

/-- A picture has two lines for each row of cells and one more, all of four characters for each cell
and one more. Where both sides of every edge agree it is faithful: two grids of one size that give
the same text have the same walls on each side of each cell, their exit at the same cell and pickups
on the same cells, but for the one of the exit. -/
theorem picture_faithful :
    (∀ g : Grid, (linesOf g.drawing).length = 2 * g.height + 1 ∧
      ∀ line ∈ linesOf g.drawing, line.length = 4 * g.width + 1) ∧
    ∀ g g' : Grid, g.TwoSided → g'.TwoSided → g'.width = g.width → g'.height = g.height →
      g.drawing = g'.drawing →
        (∀ c, g.inBounds c = true → (∀ side, g.hasWall c side = g'.hasWall c side) ∧
          g.exitAt (.cell c) = g'.exitAt (.cell c) ∧
          (g.exitAt (.cell c) = false → g.powerups.contains c = g'.powerups.contains c)) ∧
        (g.ExitOnGrid → g'.ExitOnGrid → g.exit = g'.exit) := by
  refine ⟨fun g => ⟨?_, fun line hline => ?_⟩, fun g g' hg hg' hw hh hdrawing => ?_⟩
  · rw [linesOf_drawing, List.length_map, length_picture]
  · rw [linesOf_drawing] at hline
    obtain ⟨drawn, hdrawn, rfl⟩ := List.mem_map.mp hline
    exact length_line hdrawn
  · have hpicture := picture_of_drawing hdrawing
    have hcells : ∀ c, g.inBounds c = true → (∀ side, g.hasWall c side = g'.hasWall c side) ∧
        g.exitAt (.cell c) = g'.exitAt (.cell c) ∧
        (g.exitAt (.cell c) = false → g.powerups.contains c = g'.powerups.contains c) := by
      intro c hc
      obtain ⟨s, rfl⟩ := Site.exists_of_inBounds rfl rfl hc
      have hrow := (lines_of_picture hh hpicture).1 s.2 s.2.isLt
      exact ⟨hasWall_of_picture hg hg' hw hh hpicture s.1.isLt s.2.isLt,
        ((cells_of_rowLine hw hrow.2).1 s.1 s.1.isLt).2⟩
    have hin : ∀ c, g'.inBounds c = g.inBounds c := by
      intro c
      rw [inBounds, inBounds, hw, hh]
    exact ⟨hcells, fun hexit hexit' =>
      exit_eq_of_exitAt hexit hexit' hin fun c hc => (hcells c hc).2.1⟩

/-- A closed square with a passage and an open one with three walls look the same, whatever kind of
pickup lies in the north-west, and whether or not there is one under the exit. -/
theorem picture_faithful_square :
    let g := (build 2 2 true).edited [.carveBetween ⟨0, 0⟩ ⟨1, 0⟩, .setExit ⟨1, 1⟩,
      .placePowerup ⟨0, 1⟩ .phase, .placePowerup ⟨1, 1⟩ .phase]
    let g' := (build 2 2 false).edited [.setExit ⟨1, 1⟩, .placePowerup ⟨0, 1⟩ .trueRadar,
      .addWall ⟨0, 1⟩ .south, .addWall ⟨1, 1⟩ .west, .addWall ⟨1, 0⟩ .north]
    g.TwoSided ∧ g'.TwoSided ∧ g'.width = g.width ∧ g'.height = g.height ∧
      g.drawing = g'.drawing ∧ g.ExitOnGrid ∧ g'.ExitOnGrid ∧
      (linesOf g.drawing).length = 5 ∧ g.inBounds ⟨0, 1⟩ = true ∧
      (∀ side, g.hasWall ⟨0, 1⟩ side = g'.hasWall ⟨0, 1⟩ side) ∧
      g.exitAt (.cell ⟨0, 1⟩) = false ∧
      g.powerups.contains ⟨0, 1⟩ = g'.powerups.contains ⟨0, 1⟩ ∧ g.exit = g'.exit := by
  intro g g'
  have hg : g.Coherent := ((coherent_build 2 2 true {} rfl rfl).edited _).1
  have hg' : g'.Coherent := ((coherent_build 2 2 false {} rfl rfl).edited _).1
  have hdrawing : g.drawing = g'.drawing := by decide +kernel
  have hin : g.inBounds ⟨0, 1⟩ = true := by decide +kernel
  have hnone : g.exitAt (.cell ⟨0, 1⟩) = false := by decide +kernel
  obtain ⟨hlines, hfaithful⟩ := picture_faithful
  have hheight : g.height = 2 := by decide +kernel
  have hcount : (linesOf g.drawing).length = 5 := by rw [(hlines g).1, hheight]
  obtain ⟨hcells, hexit⟩ := hfaithful g g' hg.agree hg'.agree rfl rfl hdrawing
  obtain ⟨hwalls, -, hpickups⟩ := hcells ⟨0, 1⟩ hin
  exact ⟨hg.agree, hg'.agree, rfl, rfl, hdrawing, hg.exit, hg'.exit, hcount, hin, hwalls,
    hnone, hpickups hnone, hexit hg.exit hg'.exit⟩

end MazeDuel.Grid
