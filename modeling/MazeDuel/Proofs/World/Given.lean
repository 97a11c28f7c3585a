import MazeDuel.Maze
import MazeDuel.Proofs.World.Documents
/-!
Where grids come from: they are made of a size, laid out as mazes or read from documents. All of
them are orderly.
-/

namespace MazeDuel

/-- What holds at the start of a fold and is kept by its steps holds at its end. -/
theorem foldlM_keeps {ε α β : Type} {P : β → Prop} {f : β → α → Except ε β}
    (hstep : ∀ b a b', P b → f b a = .ok b' → P b') {items : List α} {b b' : β} (hstart : P b)
    (h : items.foldlM f b = .ok b') : P b' := by
  induction items generalizing b with
  | nil =>
    cases h
    exact hstart
  | cons a items ih =>
    rw [List.foldlM_cons] at h
    obtain ⟨next, hnext, h⟩ := exists_ok_of_bind h
    exact ih (hstep b a next hstart hnext) h

namespace Grid

theorem orderly_make {width height : Json} {closed : Bool} {g : Grid}
    (h : make width height closed = .ok g) : g.Orderly := by
  have hcoherent := coherent_make h
  obtain ⟨w, k, _, _, hwide, hhigh, hwidth, hheight, rfl⟩ := exists_build_of_make h
  exact hcoherent.orderly hwide hhigh hwidth hheight

theorem orderly_ofJson {data : Json} {g : Grid} (h : ofJson data = .ok g) : g.Orderly := by
  unfold ofJson at h
  obtain ⟨width, -, h⟩ := exists_ok_of_bind h
  obtain ⟨height, -, h⟩ := exists_ok_of_bind h
  obtain ⟨bare, hbare, h⟩ := exists_ok_of_bind h
  obtain ⟨walls, -, h⟩ := exists_ok_of_bind h
  obtain ⟨walled, hwalled, h⟩ := exists_ok_of_bind h
  obtain ⟨opened, hopened, h⟩ := exists_ok_of_bind h
  obtain ⟨powerups, -, h⟩ := exists_ok_of_bind h
  have hwalls : walled.Orderly := by
    refine foldlM_keeps (fun g entry g' hg hread => ?_) (orderly_make hbare) hwalled
    rw [readWalls_eq] at hread
    cases hrow : wallRow entry with
    | error fault =>
      rw [hrow] at hread
      cases hread
    | ok row =>
      rw [hrow] at hread
      cases hread
      obtain ⟨hkey, hplain⟩ := place_of_wallRow hrow
      exact hg.putSides hkey hplain row.2
  have hexit : opened.Orderly := by
    unfold readExit at hopened
    split at hopened
    · cases hopened
      exact hwalls
    · obtain ⟨p, hp, hset⟩ := exists_ok_of_bind hopened
      exact hwalls.written (.setExitAt (Place.plain_ofJson hp) hset)
  refine foldlM_keeps (fun g entry g' hg hread => ?_) hexit h
  rw [readPowerup_eq] at hread
  obtain ⟨row, hrow, hplace⟩ := exists_ok_of_bind hread
  exact hg.written (.placePowerupAt (place_of_powerupRow hrow) hplace)

/-- A grid of a size whose width and height were given as numbers, and which is coherent. -/
structure Clean (width height : Nat) (g : Grid) : Prop where
  coherent : g.Coherent
  width_eq : g.width = width
  height_eq : g.height = height
  oddments : g.oddments = {}

theorem clean_build (width height : Nat) (closed : Bool) :
    (build width height closed).Clean width height :=
  ⟨coherent_build width height closed {} rfl rfl, rfl, rfl, rfl⟩

namespace Clean

variable {width height : Nat} {g g' : Grid}

theorem setWall (h : g.Clean width height) {c : Cell} {side : Facing} {up : Bool}
    (hset : g.setWall c side up = .ok g') : g'.Clean width height := by
  by_cases hc : g.inBounds c = true
  · obtain ⟨walls, hwalls, hcoherent⟩ := h.coherent.setWall hc side up
    cases hwalls.symm.trans hset
    exact { h with coherent := hcoherent }
  · rw [Edit.setWall_refused h.coherent.charted hc] at hset
    cases hset

theorem carveBetween (h : g.Clean width height) {a b : Cell}
    (hcarve : g.carveBetween a b = .ok g') :
    g'.Clean width height := by
  unfold Grid.carveBetween at hcarve
  split at hcarve
  · exact h.setWall hcarve
  · cases hcarve

theorem setExit (h : g.Clean width height) {c : Cell} (hset : g.setExit c = .ok g') :
    g'.Clean width height := by
  by_cases hc : g.inBounds c = true
  · cases (if_pos hc).symm.trans hset
    exact { h with coherent := h.coherent.setExit hc }
  · cases (if_neg hc).symm.trans hset

theorem placePowerup (h : g.Clean width height) {c : Cell} {kind : Powerup}
    (hplace : g.placePowerup c kind = .ok g') : g'.Clean width height := by
  by_cases hc : g.inBounds c = true
  · cases (if_pos hc).symm.trans hplace
    exact { h with coherent := h.coherent.placePowerup hc kind }
  · cases (if_neg hc).symm.trans hplace

theorem orderly (h : g.Clean width height) (hwidth : 1 ≤ width) (hheight : 1 ≤ height) :
    g.Orderly := by
  refine h.coherent.orderly ?_ ?_ ?_ ?_
  · rwa [h.width_eq]
  · rwa [h.height_eq]
  · rw [h.oddments]
    nofun
  · rw [h.oddments]
    nofun

end Clean

end Grid

namespace Maze

variable {G : Type} (c : Random.Chooser G) {width height : Nat} {grid grid' : Grid}

theorem clean_carveLoop (fuel : Nat) (visited : Std.TreeSet Cell) (path : List Cell) (g : G)
    (h : grid.Clean width height)
    (hcarve : (carveLoop c fuel grid visited path g).1 = .ok grid') : grid'.Clean width height := by
  induction fuel generalizing grid visited path g with
  | zero =>
    cases hcarve
    exact h
  | succ fuel ih =>
    cases path with
    | nil =>
      cases hcarve
      exact h
    | cons current path =>
      rw [carveLoop] at hcarve
      split at hcarve
      · exact ih visited path g h hcarve
      · dsimp only at hcarve
        split at hcarve
        · cases hcarve
        · next hstep => exact ih _ _ _ (h.carveBetween hstep) hcarve

theorem clean_placeSpawnsAndExit {placed : Layout} {g g' : G} (h : grid.Clean width height)
    (hplace : placeSpawnsAndExit c grid g = .ok (placed, g')) :
    placed.grid.Clean width height := by
  obtain ⟨marked, hmarked, hplace⟩ := exists_ok_of_bind hplace
  obtain ⟨opened, hopened, hplace⟩ := exists_ok_of_bind hplace
  cases hplace
  exact (h.setExit hmarked).setWall hopened

theorem clean_scatter (forbidden : List Place) (each : Nat) (g : G) (h : grid.Clean width height)
    (hscatter : (scatter c grid forbidden each g).1 = .ok grid') : grid'.Clean width height :=
  foldlM_keeps (fun _ _ _ hg hplace => hg.placePowerup hplace) h hscatter

theorem clean_layout {made : Layout} (each : Nat) {g g' : G}
    (h : layout c width height each g = .ok (made, g')) : made.grid.Clean width height := by
  obtain ⟨carved, hcarved, h⟩ := exists_ok_of_bind h
  obtain ⟨⟨placed, g''⟩, hplaced, h⟩ := exists_ok_of_bind h
  obtain ⟨scattered, hscattered, h⟩ := exists_ok_of_bind h
  cases h
  have hcarved : carved.Clean width height :=
    clean_carveLoop c (2 * (width * height) + 2) (Std.TreeSet.empty.insert ⟨0, 0⟩) [⟨0, 0⟩] g
      (Grid.clean_build width height true) hcarved
  exact clean_scatter c _ _ _ (clean_placeSpawnsAndExit c hcarved hplaced) hscattered

theorem three_le_of_checkSize {width height size : Json} {n : Int}
    (h : checkSize width height size = .ok ()) (hn : size.toInt = .ok n) : 3 ≤ n := by
  obtain ⟨q, hq, h⟩ := exists_ok_of_bind h
  split at h
  · cases h
  · next hlow => exact Grid.le_of_toInt hq hn hlow

theorem exists_clean_of_build {seeds : Json → Random.Twister} {width height seed each : Json}
    {made : Layout} (h : build seeds width height seed each = .ok made) :
    ∃ w k, 1 ≤ w ∧ 1 ≤ k ∧ made.grid.Clean w k := by
  obtain ⟨⟨⟩, hwidth, h⟩ := exists_ok_of_bind h
  obtain ⟨⟨⟩, hheight, h⟩ := exists_ok_of_bind h
  obtain ⟨w, hw, h⟩ := exists_ok_of_bind h
  obtain ⟨k, hk, h⟩ := exists_ok_of_bind h
  obtain ⟨rng, -, h⟩ := exists_ok_of_bind h
  have hlayout : ∃ count : Int, (do return (← layout Random.Twister.chooser w.toNat k.toNat
      count.toNat rng).1) = Except.ok made := by
    dsimp only at h
    split at h
    · exact ⟨w / 4, h⟩
    · obtain ⟨count, -, h⟩ := exists_ok_of_bind h
      exact ⟨count, h⟩
  obtain ⟨count, hlayout⟩ := hlayout
  obtain ⟨⟨laid, g⟩, hlaid, hmade⟩ := exists_ok_of_bind hlayout
  cases hmade
  have hwide := three_le_of_checkSize hwidth hw
  have hhigh := three_le_of_checkSize hheight hk
  have hclean := clean_layout Random.Twister.chooser count.toNat hlaid
  exact ⟨w.toNat, k.toNat, by omega, by omega, hclean⟩

end Maze

/-- How a grid comes about anew: it is made of a size, closed or open, or laid out as a maze. -/
inductive Grid.New : Grid → Prop
  | made {width height : Json} {closed : Bool} {g : Grid} :
    make width height closed = .ok g → New g
  | generated {seeds : Json → Random.Twister} {width height seed each : Json} {made : Maze.Layout} :
    (Maze.generate seeds width height seed each).value = .ok made → New made.grid

namespace Grid.New

variable {g : Grid}

theorem coherent_orderly (h : g.New) : g.Coherent ∧ g.Orderly := by
  cases h with
  | made h => exact ⟨coherent_make h, orderly_make h⟩
  | @generated seeds width height seed each made h =>
    unfold Maze.generate at h
    cases hbuild : Maze.build seeds width height seed each with
    | error fault =>
      rw [hbuild] at h
      cases h
    | ok laid =>
      rw [hbuild] at h
      cases h
      obtain ⟨w, k, hw, hk, hclean⟩ := Maze.exists_clean_of_build hbuild
      exact ⟨hclean.coherent, hclean.orderly hw hk⟩

/-- On a new grid walls are noted under cells only. -/
theorem exists_cell_of_noted (h : g.New) {p : Place} (hp : p ∈ g.noted) : ∃ c, p = .cell c := by
  obtain ⟨row, hrow, rfl⟩ := List.mem_map.mp hp
  obtain ⟨c, -, hplace⟩ := Table.exists_cell_of_mem_rows h.coherent_orderly.1.noLooseWalls hrow
  exact ⟨c, hplace⟩

end Grid.New

end MazeDuel
