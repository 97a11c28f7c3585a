import Mathlib.Data.List.ProdSigma
import MazeDuel.Proofs.World.Carving
import MazeDuel.Proofs.World.Pickups
/-!
The laying out of a maze. However the generator chooses, the spawns are two corners of one edge, the
exit lies on the edge across from them behind the only gap in the border, and the pickups lie on
free cells, as many of each kind as there is room for.
-/

namespace MazeDuel

namespace Random.Chooser

variable {G α : Type} (c : Chooser G)

theorem swapIfInBounds_perm (items : Array α) (i j : Nat) :
    (items.swapIfInBounds i j).Perm items := by
  rw [Array.swapIfInBounds_def]
  split
  · split
    · exact Array.swap_perm _ _
    · exact .refl items
  · exact .refl items

theorem shuffleFrom_perm (g : G) (count : Nat) (items : Array α) :
    (c.shuffleFrom g count items).1.Perm items := by
  induction count generalizing g items with
  | zero => exact .refl items
  | succ count ih =>
    cases count with
    | zero => exact .refl items
    | succ count =>
      let j := (c.below g (count + 2) (Nat.succ_pos _)).1
      have hrest := ih (c.below g (count + 2) (Nat.succ_pos _)).2
        (items.swapIfInBounds (count + 1) j)
      exact hrest.trans (swapIfInBounds_perm items (count + 1) j)

theorem shuffle_perm (g : G) (items : List α) : (c.shuffle g items).1.Perm items :=
  Array.perm_iff_toList_perm.mp (c.shuffleFrom_perm g items.length items.toArray)

end Random.Chooser

theorem map_fst_zip_eq_take {α β : Type} (xs : List α) (ys : List β) :
    (xs.zip ys).map Prod.fst = xs.take ys.length := by
  induction xs generalizing ys with
  | nil => simp
  | cons x xs ih =>
    cases ys with
    | nil => rfl
    | cons y ys => simp [ih]

theorem map_snd_zip_eq_take {α β : Type} (xs : List α) (ys : List β) :
    (xs.zip ys).map Prod.snd = ys.take xs.length := by
  induction xs generalizing ys with
  | nil => simp
  | cons x xs ih =>
    cases ys with
    | nil => rfl
    | cons y ys => simp [ih]

/-- What is left of a list without some of its members. -/
theorem length_filter_without {α : Type} [BEq α] [LawfulBEq α] {xs ys : List α} (hxs : xs.Nodup)
    (hys : ys.Nodup) (hsub : ∀ y ∈ ys, y ∈ xs) :
    (xs.filter fun x => !ys.contains x).length = xs.length - ys.length := by
  have hperm : xs.Perm (ys ++ xs.filter fun x => !ys.contains x) := by
    have hboth : (ys ++ xs.filter fun x => !ys.contains x).Nodup := by
      refine List.nodup_append'.mpr ⟨hys, hxs.filter _, fun x hx hfree => ?_⟩
      simp [hx] at hfree
    refine (List.perm_ext_iff_of_nodup hxs hboth).mpr fun x => ?_
    by_cases hx : x ∈ ys
    · simp [hx, hsub x hx]
    · simp [hx]
  rw [hperm.length_eq, List.length_append]
  omega

namespace Grid

theorem exists_noteWall_eq (g : Grid) (c : Cell) (side : Facing) (up : Bool) :
    ∃ walls, g.noteWall c side up = { g with walls := walls } := by
  unfold noteWall
  split
  · exact ⟨_, rfl⟩
  · exact ⟨g.walls, rfl⟩

theorem exists_setWall_eq {g g' : Grid} {c : Cell} {side : Facing} {up : Bool}
    (h : g.setWall c side up = .ok g') : ∃ walls, g' = { g with walls := walls } := by
  obtain ⟨near, hnear⟩ := exists_noteWall_eq g c side up
  obtain ⟨far, hfar⟩ :=
    exists_noteWall_eq (g.noteWall c side up) (side.step c) side.opposite up
  unfold setWall at h
  split at h
  · cases h
    split
    · exact ⟨far, by rw [hfar, hnear]⟩
    · exact ⟨near, hnear⟩
  · cases h

theorem exists_carveBetween_eq {g g' : Grid} {a b : Cell} (h : g.carveBetween a b = .ok g') :
    ∃ walls, g' = { g with walls := walls } := by
  unfold carveBetween at h
  split at h
  · exact exists_setWall_eq h
  · cases h

theorem cellsOf_eq (width height : Nat) : cellsOf width height =
    (List.range width ×ˢ List.range height).map fun p => (⟨(p.1 : Nat), (p.2 : Nat)⟩ : Cell) := by
  simp only [cellsOf, SProd.sprod, List.product, List.map_flatMap, List.map_map]
  rfl

theorem nodup_cells (g : Grid) : g.cells.Nodup := by
  rw [cells, cellsOf_eq]
  refine (List.nodup_range.product List.nodup_range).map ?_
  rintro ⟨x, y⟩ ⟨x', y'⟩ h
  simp only [Cell.mk.injEq, Int.natCast_inj] at h
  rw [h.1, h.2]

theorem length_cells (g : Grid) : g.cells.length = g.width * g.height := by
  rw [cells, cellsOf_eq, List.length_map, List.length_product, List.length_range, List.length_range]

/-- A cell of the grid that has nothing beyond it on a side. -/
def OnEdge (g : Grid) (side : Facing) (c : Cell) : Prop :=
  g.inBounds c = true ∧ g.inBounds (side.step c) = false

/-- A cell where two edges meet. -/
def Corner (g : Grid) (c : Cell) : Prop := ∃ side : Facing, g.OnEdge side c ∧ g.OnEdge side.left c

theorem inBounds_iff {g : Grid} {c : Cell} :
    g.inBounds c = true ↔ (0 ≤ c.x ∧ c.x < g.width) ∧ 0 ≤ c.y ∧ c.y < g.height := by
  simp only [inBounds, Bool.and_eq_true, decide_eq_true_eq, and_assoc]

/-- The coordinate that all cells of an edge share. -/
theorem onEdge_iff {g : Grid} {side : Facing} {c : Cell} :
    g.OnEdge side c ↔ g.inBounds c = true ∧
      match side with
      | .north => c.y = g.height - 1
      | .south => c.y = 0
      | .east => c.x = g.width - 1
      | .west => c.x = 0 := by
  rw [OnEdge, ← Bool.not_eq_true, inBounds_iff, inBounds_iff]
  cases side <;> simp only [Facing.step, Facing.delta] <;> omega

/-- No cell lies on two edges across from each other. -/
theorem OnEdge.not_across {g : Grid} (hw : 2 ≤ g.width) (hh : 2 ≤ g.height) {side : Facing}
    {c : Cell} (h : g.OnEdge side c) : ¬ g.OnEdge side.opposite c := by
  intro hacross
  rw [onEdge_iff] at h hacross
  cases side <;> simp only [Facing.opposite] at h hacross <;> omega

/-- Entries for a map of pickups, one after the other. -/
def layDown (powerups : Std.TreeMap Cell Powerup) (placed : List (Cell × Powerup)) :
    Std.TreeMap Cell Powerup :=
  placed.foldl (fun m x => m.insert x.1 x.2) powerups

/-- Pickups on cells in bounds are laid down, and nothing else changes. -/
theorem foldlM_placePowerup (g : Grid) (placed : List (Cell × Powerup))
    (h : ∀ x ∈ placed, g.inBounds x.1 = true) :
    placed.foldlM (fun (g : Grid) x => g.placePowerup x.1 x.2) g =
      .ok { g with powerups := layDown g.powerups placed } := by
  induction placed generalizing g with
  | nil => rfl
  | cons x rest ih =>
    have hplace : g.placePowerup x.1 x.2 =
        .ok { g with powerups := g.powerups.insert x.1 x.2 } := by
      rw [placePowerup, if_pos (h x List.mem_cons_self)]
    have hrest := ih { g with powerups := g.powerups.insert x.1 x.2 }
      fun y hy => h y (List.mem_cons_of_mem x hy)
    rw [List.foldlM_cons, hplace]
    exact hrest

/-- A pickup on a cell where none lies is one more entry. -/
theorem toList_perm_insert {m : Std.TreeMap Cell Powerup} {c : Cell} (h : m.contains c = false)
    (kind : Powerup) : (m.insert c kind).toList.Perm ((c, kind) :: m.toList) := by
  have hinsert : (m.insert c kind).toList.Perm
      ((c, kind) :: m.toList.filter fun x => decide ¬(c == x.1) = true) :=
    Std.TreeMap.toList_insert_perm
  have hkept : (m.toList.filter fun x => decide ¬(c == x.1) = true) = m.toList := by
    rw [List.filter_eq_self]
    intro x hx
    have hthere : m[x.1]? = some x.2 := Std.TreeMap.mem_toList_iff_getElem?_eq_some.mp hx
    have hapart : ¬ c = x.1 := by
      rintro rfl
      rw [Std.TreeMap.contains_eq_isSome_getElem?, hthere] at h
      cases h
    simpa using hapart
  rwa [hkept] at hinsert

/-- Pickups on distinct cells where none lies are as many more entries. -/
theorem toList_perm_layDown (powerups : Std.TreeMap Cell Powerup) (placed : List (Cell × Powerup))
    (hnodup : (placed.map Prod.fst).Nodup)
    (hnew : ∀ x ∈ placed, powerups.contains x.1 = false) :
    (layDown powerups placed).toList.Perm (placed ++ powerups.toList) := by
  induction placed generalizing powerups with
  | nil => exact .refl _
  | cons x rest ih =>
    obtain ⟨hx, hrest⟩ := List.nodup_cons.mp hnodup
    have hstill : ∀ y ∈ rest, (powerups.insert x.1 x.2).contains y.1 = false := by
      intro y hy
      have hinsert : (powerups.insert x.1 x.2).contains y.1 =
          (compare x.1 y.1 == .eq || powerups.contains y.1) := Std.TreeMap.contains_insert
      have hapart : ¬ x.1 = y.1 := fun heq => hx (heq ▸ List.mem_map_of_mem hy)
      rw [hinsert, hnew y (List.mem_cons_of_mem x hy)]
      simpa using hapart
    have hmore := ih (powerups.insert x.1 x.2) hrest hstill
    have hfirst := toList_perm_insert (hnew x List.mem_cons_self) x.2
    exact hmore.trans ((hfirst.append_left rest).trans List.perm_middle)

theorem toList_perm_layDown_empty {placed : List (Cell × Powerup)}
    (hnodup : (placed.map Prod.fst).Nodup) : (layDown ∅ placed).toList.Perm placed := by
  have hperm := toList_perm_layDown ∅ placed hnodup fun x _ => Std.TreeMap.contains_emptyc
  have hempty : (∅ : Std.TreeMap Cell Powerup).toList = [] := rfl
  rwa [hempty, List.append_nil] at hperm

/-- When one wall of the border is taken down, it is the only one that is down. -/
theorem gap_of_opened {g : Grid} (hborder : ∀ c d, g.OnEdge d c → g.hasWall c d = true)
    {walls : Std.TreeMap Cell Sides} {exit c : Cell} {side d : Facing}
    (hexit : g.OnEdge side exit) (hc : g.OnEdge d c)
    (hhas : hasWall { g with walls := walls } c d =
      if (c = exit ∧ d = side) ∨ (c = side.step exit ∧ d = side.opposite) then false
      else g.hasWall c d) :
    hasWall { g with walls := walls } c d = false ↔ c = exit ∧ d = side := by
  have hfar : ¬ (c = side.step exit ∧ d = side.opposite) := by
    rintro ⟨rfl, -⟩
    have hin : g.inBounds (side.step exit) = true := hc.1
    rw [hexit.2] at hin
    cases hin
  rw [hhas, hborder c d hc]
  by_cases hhere : c = exit ∧ d = side
  · rw [if_pos (.inl hhere)]
    exact iff_of_true rfl hhere
  · rw [if_neg (not_or.mpr ⟨hhere, hfar⟩)]
    exact iff_of_false Bool.true_eq_false_eq_False hhere

end Grid

namespace Maze

open MazeDuel.Random (Chooser)

variable {G : Type} (c : Chooser G)

/-- The kinds that are scattered, as far as there are cells for them. -/
theorem countP_scattered (cells : List Cell) (each : Nat) :
    let placed := cells.zip (List.replicate (min each cells.length) Powerup.phase ++
      List.replicate (min each cells.length) Powerup.trueRadar)
    placed.countP (·.2 == .phase) = min each cells.length ∧
      placed.countP (·.2 == .trueRadar) = min each (cells.length - min each cells.length) := by
  intro placed
  have hcount : ∀ kind : Powerup,
      placed.countP (·.2 == kind) = (placed.map Prod.snd).count kind := by
    intro kind
    rw [List.count, List.countP_map]
    rfl
  rw [hcount, hcount, map_snd_zip_eq_take, List.take_append, List.take_replicate,
    List.take_replicate, List.count_append, List.count_append, List.length_replicate]
  simp only [List.count_replicate]
  constructor
  · simp
  · simp
    omega

/-- The pickups lie on distinct free cells, and of each kind as many as asked for if there is room:
the first kind comes first. -/
theorem exists_scattered (grid : Grid) (forbidden : List Cell) (each : Nat) (g : G) :
    let free := grid.cells.filter fun cell => !forbidden.contains cell
    ∃ placed, (scatter c grid (forbidden.map .cell) each g).1 =
        .ok { grid with powerups := Grid.layDown grid.powerups placed } ∧
      (placed.map Prod.fst).Nodup ∧ (∀ x ∈ placed, x.1 ∈ free) ∧
      placed.countP (·.2 == .phase) = min each free.length ∧
      placed.countP (·.2 == .trueRadar) = min each (free.length - min each free.length) := by
  intro free
  have hfree : (grid.cells.filter fun (cell : Cell) =>
      !(forbidden.map Place.cell).any (·.same cell)) = free := by
    apply List.filter_congr
    intro cell _
    rw [List.any_map]
    congr 1
    exact List.any_beq'
  have hperm := c.shuffle_perm g free
  let kinds := List.replicate (min each free.length) Powerup.phase ++
    List.replicate (min each free.length) Powerup.trueRadar
  let placed := (c.shuffle g free).1.zip kinds
  have hcells : ∀ x ∈ placed, x.1 ∈ free := fun x hx => hperm.mem_iff.mp (List.of_mem_zip hx).1
  refine ⟨placed, ?_, ?_, hcells, ?_⟩
  · rw [scatter, hfree]
    exact Grid.foldlM_placePowerup grid placed fun x hx =>
      Grid.mem_cellsOf.mp (List.mem_filter.mp (hcells x hx)).1
  · rw [map_fst_zip_eq_take]
    have hnodup : (c.shuffle g free).1.Nodup :=
      hperm.nodup_iff.mpr ((Grid.nodup_cells grid).filter _)
    exact hnodup.sublist (List.take_sublist _ _)
  · have hcount := countP_scattered (c.shuffle g free).1 each
    rw [hperm.length_eq] at hcount
    exact hcount

section Edges

variable {grid : Grid} (hw : 2 ≤ grid.width) (hh : 2 ≤ grid.height) (side : Facing)

include hw hh

theorem onEdge_edgeCell {offset : Nat} (h : offset < edgeLength grid.width grid.height side) :
    grid.OnEdge side (edgeCell grid.width grid.height offset side) := by
  rw [Grid.onEdge_iff, Grid.inBounds_iff]
  cases side <;> simp only [edgeLength] at h <;> simp only [edgeCell, and_true] <;> omega

theorem onEdge_spawnsFor (p : Player) :
    grid.OnEdge side.opposite ((spawnsFor grid.width grid.height side).get p) := by
  rw [Grid.onEdge_iff, Grid.inBounds_iff]
  cases side <;> cases p <;> simp only [spawnsFor, Duo.get, Facing.opposite, and_true] <;>
    omega

theorem corner_spawnsFor (p : Player) :
    grid.Corner ((spawnsFor grid.width grid.height side).get p) := by
  have hback := onEdge_spawnsFor hw hh side p
  have hside : grid.OnEdge side.left ((spawnsFor grid.width grid.height side).get p) ∨
      grid.OnEdge side.right ((spawnsFor grid.width grid.height side).get p) := by
    rw [Grid.onEdge_iff, Grid.onEdge_iff, Grid.inBounds_iff]
    cases side <;> cases p <;>
      simp only [spawnsFor, Duo.get, Facing.left, Facing.right, and_true] <;> omega
  rcases hside with hleft | hright
  · refine ⟨side.left, hleft, ?_⟩
    have hturn : side.left.left = side.opposite := by cases side <;> rfl
    rwa [hturn]
  · refine ⟨side.opposite, hback, ?_⟩
    have hturn : side.opposite.left = side.right := by cases side <;> rfl
    rwa [hturn]

theorem spawnsFor_apart :
    (spawnsFor grid.width grid.height side).a ≠ (spawnsFor grid.width grid.height side).b := by
  cases side <;> simp only [spawnsFor, ne_eq, Cell.mk.injEq] <;> omega

end Edges

/-- The spawns are the two corners of an edge, the exit lies on the edge across from it, and the
wall behind the exit is the only one of the border that is down. -/
structure Layout.Faces (made : Layout) (side : Facing) (exit : Cell) : Prop where
  corners : ∀ p, made.grid.Corner (made.spawns.get p)
  behind : ∀ p, made.grid.OnEdge side.opposite (made.spawns.get p)
  apart : made.spawns.a ≠ made.spawns.b
  exit_eq : made.grid.exit = some (.cell exit)
  across : made.grid.OnEdge side exit
  gap : ∀ c d, made.grid.OnEdge d c → (made.grid.hasWall c d = false ↔ c = exit ∧ d = side)

/-- Whatever edge and cell the generator chooses, the exit is opened there, and no wall goes up. -/
theorem exists_placed {maze : Grid} (hcharted : maze.Charted)
    (hborder : ∀ c d, maze.OnEdge d c → maze.hasWall c d = true)
    (hw : 2 ≤ maze.width) (hh : 2 ≤ maze.height) (g : G) :
    ∃ spawns side exit walls g',
      let opened : Grid := { maze with exit := some (.cell exit), walls := walls }
      placeSpawnsAndExit c maze g = .ok (⟨opened, spawns⟩, g') ∧
        Layout.Faces ⟨opened, spawns⟩ side exit ∧
        ∀ d other, maze.inBounds d = true → maze.hasWall d other = false →
          opened.hasWall d other = false := by
  let first := c.below g 2 (by decide)
  let second := c.below first.2 2 (by decide)
  let side := exitSide (first.1.val == 1) (second.1.val == 1)
  have hlength : 0 < edgeLength maze.width maze.height side := by
    cases side <;> simp only [edgeLength] <;> omega
  let offset := c.below second.2 (edgeLength maze.width maze.height side) hlength
  let exit := edgeCell maze.width maze.height offset.1 side
  have hexit : maze.OnEdge side exit := onEdge_edgeCell hw hh side offset.1.isLt
  let marked : Grid := { maze with exit := some (.cell exit) }
  have hset : maze.setExit exit = .ok marked := if_pos hexit.1
  have hmarked : marked.Charted := hcharted
  obtain ⟨walls, hopen, -, hhas⟩ := Grid.exists_removeWall hmarked hexit.1 side
  refine ⟨spawnsFor maze.width maze.height side, side, exit, walls, offset.2, ?_, ?_, ?_⟩
  · rw [placeSpawnsAndExit]
    dsimp only
    rw [dif_pos hlength]
    dsimp only
    show (maze.setExit exit >>= _) = _
    rw [hset]
    show (marked.removeWall exit side >>= _) = _
    rw [hopen]
    rfl
  · constructor
    case corners => exact corner_spawnsFor hw hh side
    case behind => exact onEdge_spawnsFor hw hh side
    case apart => exact spawnsFor_apart hw hh side
    case exit_eq => rfl
    case across => exact hexit
    case gap => exact fun d other hd =>
      Grid.gap_of_opened (g := marked) hborder hexit hd (hhas d other hd.1)
  · intro d other hd hnone
    have hnone' : marked.hasWall d other = false := hnone
    rw [hhas d other hd, hnone', ite_self]

/-! ## Layouts -/

/-- What is right about a layout of a size, for a number of pickups of each kind. -/
structure Layout.WellLaid (made : Layout) (width height each : Nat) : Prop where
  width_eq : made.grid.width = width
  height_eq : made.grid.height = height
  faces : ∃ side exit, made.Faces side exit
  free : ∀ c, made.grid.powerups.contains c = true → made.grid.inBounds c = true ∧
    made.grid.exit ≠ some (.cell c) ∧ ∀ p, made.spawns.get p ≠ c
  noLoose : made.grid.oddments.powerups = {}
  phases : made.grid.countOf .phase = min each (width * height - 3)
  radars : made.grid.countOf .trueRadar =
    min each (width * height - 3 - min each (width * height - 3))

theorem Round.exists_walls {w w' : Walker} (h : Relation.ReflTransGen Round w w') :
    ∃ walls, w'.grid = { w.grid with walls := walls } := by
  induction h with
  | refl => exact ⟨w.grid.walls, rfl⟩
  | tail _ hround ih =>
    obtain ⟨walls, hwalls⟩ := ih
    cases hround with
    | back => exact ⟨walls, hwalls⟩
    | on _ _ _ _ _ _ _ hcarve =>
      obtain ⟨carved, hcarved⟩ := Grid.exists_carveBetween_eq hcarve
      refine ⟨carved, ?_⟩
      rw [hcarved]
      dsimp only at hwalls ⊢
      rw [hwalls]

/-- Spawns and exit are three cells, and all others are free. -/
theorem Layout.Faces.length_free {placed : Layout} {side : Facing} {exit : Cell}
    (h : placed.Faces side exit) (hw : 2 ≤ placed.grid.width) (hh : 2 ≤ placed.grid.height) :
    (placed.grid.cells.filter fun cell =>
      !([placed.spawns.a, placed.spawns.b, exit].contains cell)).length =
        placed.grid.width * placed.grid.height - 3 := by
  have haway : ∀ p, placed.spawns.get p ≠ exit := by
    rintro p rfl
    exact h.across.not_across hw hh (h.behind p)
  have hdistinct : [placed.spawns.a, placed.spawns.b, exit].Nodup := by
    have ha : placed.spawns.a ≠ exit := haway .a
    have hb : placed.spawns.b ≠ exit := haway .b
    simp [h.apart, ha, hb]
  have hspawn : ∀ p, placed.spawns.get p ∈ placed.grid.cells :=
    fun p => Grid.mem_cellsOf.mpr (h.behind p).1
  have hinside : ∀ cell ∈ [placed.spawns.a, placed.spawns.b, exit],
      cell ∈ placed.grid.cells := by
    intro cell hcell
    simp only [List.mem_cons, List.not_mem_nil, or_false] at hcell
    rcases hcell with rfl | rfl | rfl
    · exact hspawn .a
    · exact hspawn .b
    · exact Grid.mem_cellsOf.mpr h.across.1
  rw [length_filter_without (Grid.nodup_cells _) hdistinct hinside, Grid.length_cells]
  rfl

/-- Pickups scattered over a grid on which none lie are right for the cells that are left. -/
theorem Layout.Faces.exists_scattered {placed : Layout} {side : Facing} {exit : Cell}
    (h : placed.Faces side exit) (hnone : placed.grid.powerups = ∅)
    (hloose : placed.grid.oddments.powerups = {}) (hw : 2 ≤ placed.grid.width)
    (hh : 2 ≤ placed.grid.height) (each : Nat) (g : G) :
    ∃ powerups, let made : Layout := ⟨{ placed.grid with powerups := powerups }, placed.spawns⟩
      (scatter c placed.grid ([.cell placed.spawns.a, .cell placed.spawns.b] ++
        placed.grid.exit.toList) each g).1 = .ok made.grid ∧
      made.WellLaid placed.grid.width placed.grid.height each := by
  let forbidden := [placed.spawns.a, placed.spawns.b, exit]
  have hplaces : [.cell placed.spawns.a, .cell placed.spawns.b] ++ placed.grid.exit.toList =
      forbidden.map Place.cell := by
    rw [h.exit_eq]
    rfl
  obtain ⟨laid, hscatter, hnodup, hfree, hphases, hradars⟩ :=
    Maze.exists_scattered c placed.grid forbidden each g
  rw [h.length_free hw hh] at hphases hradars
  have hentries := Grid.toList_perm_layDown_empty hnodup
  have hcount : ∀ kind, Grid.countOf { placed.grid with powerups := Grid.layDown ∅ laid } kind =
      laid.countP (·.2 == kind) := by
    intro kind
    unfold Grid.countOf
    rw [hentries.countP_eq]
    dsimp only
    rw [hloose]
    rfl
  rw [hplaces]
  rw [hnone] at hscatter
  refine ⟨Grid.layDown ∅ laid, hscatter, ?_⟩
  constructor
  case width_eq => rfl
  case height_eq => rfl
  case faces => exact ⟨side, exit, { h with }⟩
  case free =>
    intro cell hcell
    dsimp only at hcell
    rw [Std.TreeMap.contains_eq_isSome_getElem?] at hcell
    obtain ⟨kind, hkind⟩ := Option.isSome_iff_exists.mp hcell
    have hmem : (cell, kind) ∈ laid :=
      hentries.mem_iff.mp (Std.TreeMap.mem_toList_iff_getElem?_eq_some.mpr hkind)
    obtain ⟨hin, hnot⟩ := List.mem_filter.mp (hfree _ hmem)
    have hnot : cell ∉ forbidden := by simpa using hnot
    simp only [forbidden, List.mem_cons, List.not_mem_nil, or_false, not_or] at hnot
    refine ⟨Grid.mem_cellsOf.mp hin, ?_, ?_⟩
    · intro hexit
      rw [h.exit_eq] at hexit
      exact hnot.2.2 (Place.cell.inj (Option.some.inj hexit)).symm
    · rintro (_ | _) rfl
      · exact hnot.1 rfl
      · exact hnot.2.1 rfl
  case noLoose => exact hloose
  case phases => rw [hcount, hphases]
  case radars => rw [hcount, hradars]

/-- Every size that is large enough is laid out, from a perfect maze in which no wall goes up any
more. -/
theorem exists_laid {width height : Nat} (hw : 2 ≤ width) (hh : 2 ≤ height) (each : Nat) (g : G) :
    ∃ (maze : Grid) (made : Layout) (g' : G), layout c width height each g = .ok (made, g') ∧
      maze.width = width ∧ maze.height = height ∧ maze.Perfect ∧
      (∀ d other, maze.inBounds d = true → maze.hasWall d other = false →
        made.grid.hasWall d other = false) ∧
      made.WellLaid width height each := by
  let start : Site width height := (⟨0, by omega⟩, ⟨0, by omega⟩)
  obtain ⟨maze, visited, hmaze, hrounds, hsound⟩ := carve_returns c g start
  obtain ⟨hwidth, hheight⟩ := And.intro hsound.width_eq hsound.height_eq
  obtain ⟨carved, hcarved⟩ := Round.exists_walls hrounds
  have hborder : ∀ d side, maze.OnEdge side d → maze.hasWall d side = true :=
    fun d side hd => hsound.border d side hd.1 hd.2
  let g₁ := (carve c (Grid.build width height true) start.cell g).2
  obtain ⟨spawns, side, exit, walls, g₂, hplaced, hfaces, hopened⟩ := exists_placed c hsound.charted
    hborder (hwidth ▸ hw) (hheight ▸ hh) g₁
  let placed : Grid := { maze with exit := some (.cell exit), walls := walls }
  have hnone : placed.powerups = ∅ := by
    show maze.powerups = ∅
    dsimp only at hcarved
    rw [hcarved]
    rfl
  have hloose : placed.oddments.powerups = {} := by
    show maze.oddments.powerups = {}
    dsimp only at hcarved
    rw [hcarved]
    rfl
  obtain ⟨powerups, hscatter, hlaid⟩ := hfaces.exists_scattered c hnone hloose
    (hwidth ▸ hw) (hheight ▸ hh) each g₂
  let forbidden := [Place.cell spawns.a, .cell spawns.b] ++ placed.exit.toList
  refine ⟨maze, ⟨{ placed with powerups := powerups }, spawns⟩,
    (scatter c placed forbidden each g₂).2, ?_, hwidth, hheight,
    hsound.perfect, hopened, ?_⟩
  · have hcarve : carve c (Grid.build width height true) ⟨0, 0⟩ g = (.ok maze, g₁) :=
      Prod.ext hmaze rfl
    rw [layout, hcarve]
    show (placeSpawnsAndExit c maze g₁ >>= _) = _
    rw [hplaced]
    show ((scatter c placed forbidden each g₂).1 >>= _) = _
    rw [hscatter]
    rfl
  · rw [← hwidth, ← hheight]
    exact hlaid

end Maze

end MazeDuel
