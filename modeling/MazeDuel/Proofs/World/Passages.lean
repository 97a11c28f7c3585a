import Mathlib.Combinatorics.SimpleGraph.Acyclic
import Mathlib.Combinatorics.SimpleGraph.Hasse
import Mathlib.Combinatorics.SimpleGraph.Operations
import Mathlib.Combinatorics.SimpleGraph.Prod
import MazeDuel.Grid.Basic
/-!
Passages: the graph of the cells of a grid in which two neighbours are joined where there is no wall
on either side between them. It lies within the lattice of all neighbours, which is connected. A
maze is perfect if its passages are a tree.
-/

namespace MazeDuel

namespace Facing

theorem mem_all (f : Facing) : f ∈ all := by cases f <;> decide

theorem step_ne (f : Facing) (c : Cell) : f.step c ≠ c := by
  obtain ⟨x, y⟩ := c
  intro h
  cases f <;> simp only [step, delta, Cell.mk.injEq] at h <;> omega

theorem step_left_injective {f d : Facing} {c : Cell} (h : f.step c = d.step c) : f = d := by
  obtain ⟨x, y⟩ := c
  simp only [step, Cell.mk.injEq] at h
  cases f <;> cases d <;> simp only [delta] at h <;> first | rfl | omega

theorem step_eq_comm {f : Facing} {a b : Cell} : f.step a = b ↔ f.opposite.step b = a := by
  constructor
  · intro h
    rw [← h, step_opposite]
  · intro h
    have hback := step_opposite f.opposite b
    rw [h, opposite_opposite] at hback
    exact hback

/-- An edge is the same one seen from its other end. -/
theorem same_edge {d side : Facing} {c a : Cell} :
    ((d.step c = a ∧ d.opposite = side) ∨
        (d.step c = side.step a ∧ d.opposite = side.opposite)) ↔
      (c = a ∧ d = side) ∨ (c = side.step a ∧ d = side.opposite) := by
  constructor
  · rintro (⟨rfl, rfl⟩ | ⟨hstep, hd⟩)
    · exact .inr ⟨(step_opposite d c).symm, (opposite_opposite d).symm⟩
    · have hside : d = side := by
        rw [← opposite_opposite d, hd, opposite_opposite]
      subst hside
      have hback := step_opposite d c
      rw [hstep, step_opposite] at hback
      exact .inl ⟨hback.symm, rfl⟩
  · rintro (⟨rfl, rfl⟩ | ⟨rfl, rfl⟩)
    · exact .inr ⟨rfl, rfl⟩
    · exact .inl ⟨step_opposite side a, opposite_opposite side⟩

end Facing

namespace Grid

/-- Whether the walls are noted of just the cells in bounds. -/
def Charted (g : Grid) : Prop := ∀ c, g.walls.contains c = g.inBounds c

theorem Charted.exists_sides {g : Grid} (h : g.Charted) {c : Cell} (hc : g.inBounds c = true) :
    ∃ sides, g.walls[c]? = some sides := by
  have hnoted : g.walls[c]?.isSome = true := by
    rw [← Std.TreeMap.contains_eq_isSome_getElem?, h c, hc]
  exact Option.isSome_iff_exists.mp hnoted

theorem hasWall_eq (g : Grid) (c : Cell) (side : Facing) :
    g.hasWall c side = g.walls[c]?.elim true (·.has side) := by
  rw [hasWall]
  cases g.walls[c]? <;> rfl

theorem Charted.hasWall_outside {g : Grid} (h : g.Charted) {c : Cell}
    (hc : g.inBounds c = false) (side : Facing) : g.hasWall c side = true := by
  have hnoted : g.walls[c]?.isSome = false := by
    rw [← Std.TreeMap.contains_eq_isSome_getElem?, h c, hc]
  have hnone : g.walls[c]? = none :=
    Option.isNone_iff_eq_none.mp (Option.isSome_eq_false_iff.mp hnoted)
  simp only [hasWall, hnone]

/-- Noting a wall of a cell in bounds changes that side of that cell. -/
theorem exists_noteWall {g : Grid} (h : g.Charted) {c : Cell} (hc : g.inBounds c = true)
    (side : Facing) (up : Bool) :
    ∃ walls, g.noteWall c side up = { g with walls := walls } ∧
      Charted { g with walls := walls } ∧
      ∀ d other, hasWall { g with walls := walls } d other =
        if d = c ∧ other = side then up else g.hasWall d other := by
  obtain ⟨sides, hs⟩ := h.exists_sides hc
  refine ⟨g.walls.insert c (sides.set side up), ?_, ?_, ?_⟩
  · simp only [noteWall, hs]
  · intro d
    have hcontains : (g.walls.insert c (sides.set side up)).contains d =
        (compare c d == .eq || g.walls.contains d) := Std.TreeMap.contains_insert
    show (g.walls.insert c (sides.set side up)).contains d = g.inBounds d
    rw [hcontains, h d]
    by_cases hd : compare c d = .eq
    · have hcd := Std.compare_eq_iff_eq.mp hd
      rw [← hcd, hc]
      simp
    · simp [hd]
  · intro d other
    have hget : (g.walls.insert c (sides.set side up))[d]? =
        if compare c d = .eq then some (sides.set side up) else g.walls[d]? :=
      Std.TreeMap.getElem?_insert
    rw [hasWall_eq, hasWall_eq, hget]
    by_cases hd : d = c
    · subst hd
      rw [hs]
      simp [Sides.has_set]
    · have hapart : ¬ compare c d = .eq := fun h => hd (Std.compare_eq_iff_eq.mp h).symm
      rw [if_neg hapart, if_neg (fun h => hd h.1)]

/-- A wall goes up or comes down on both sides of its edge, and no other wall changes. -/
theorem exists_setWall {g : Grid} (h : g.Charted) {c : Cell} (hc : g.inBounds c = true)
    (side : Facing) (up : Bool) :
    ∃ walls, g.setWall c side up = .ok { g with walls := walls } ∧
      Charted { g with walls := walls } ∧
      ∀ d other, g.inBounds d = true → hasWall { g with walls := walls } d other =
        if (d = c ∧ other = side) ∨ (d = side.step c ∧ other = side.opposite) then up
        else g.hasWall d other := by
  obtain ⟨near, hnear, hcharted, hhas⟩ := exists_noteWall h hc side up
  have hnoted : g.walls.contains c = true := by
    rw [h c, hc]
  by_cases hin : g.inBounds (side.step c) = true
  · obtain ⟨far, hfar, hcharted', hhas'⟩ := exists_noteWall hcharted hin side.opposite up
    refine ⟨far, ?_, hcharted', ?_⟩
    · rw [setWall, if_pos hnoted]
      dsimp only
      rw [if_pos hin, hnear, hfar]
    · intro d other hd
      rw [hhas', hhas]
      by_cases hthere : d = side.step c ∧ other = side.opposite
      · rw [if_pos hthere, if_pos (.inr hthere)]
      · rw [if_neg hthere]
        by_cases hhere : d = c ∧ other = side
        · rw [if_pos hhere, if_pos (.inl hhere)]
        · rw [if_neg hhere, if_neg (not_or.mpr ⟨hhere, hthere⟩)]
  · refine ⟨near, ?_, hcharted, ?_⟩
    · rw [setWall, if_pos hnoted]
      dsimp only
      rw [if_neg hin, hnear]
    · intro d other hd
      have hthere : ¬ (d = side.step c ∧ other = side.opposite) := by
        rintro ⟨rfl, -⟩
        exact hin hd
      rw [hhas]
      by_cases hhere : d = c ∧ other = side
      · rw [if_pos hhere, if_pos (.inl hhere)]
      · rw [if_neg hhere, if_neg (not_or.mpr ⟨hhere, hthere⟩)]

theorem exists_removeWall {g : Grid} (h : g.Charted) {c : Cell} (hc : g.inBounds c = true)
    (side : Facing) :
    ∃ walls, g.removeWall c side = .ok { g with walls := walls } ∧
      Charted { g with walls := walls } ∧
      ∀ d other, g.inBounds d = true → hasWall { g with walls := walls } d other =
        if (d = c ∧ other = side) ∨ (d = side.step c ∧ other = side.opposite) then false
        else g.hasWall d other :=
  exists_setWall h hc side false

/-- Two neighbours are carved apart on the side where they meet. -/
theorem carveBetween_step (g : Grid) (c : Cell) (side : Facing) :
    g.carveBetween c (side.step c) = g.removeWall c side := by
  have hmeets : ∀ f : Facing, (f.step c == side.step c) = (f == side) := by
    intro f
    rw [Bool.eq_iff_iff, beq_iff_eq, beq_iff_eq]
    exact ⟨Facing.step_left_injective, fun h => congrArg (·.step c) h⟩
  have hfind : Facing.all.find? (fun f => f.step c == side.step c) = some side := by
    simp only [hmeets]
    cases side <;> rfl
  rw [carveBetween, hfind]

end Grid

/-- The cells of a grid of a size. -/
abbrev Site (width height : Nat) := Fin width × Fin height

namespace Site

variable {width height : Nat}

def cell (s : Site width height) : Cell := ⟨(s.1 : Nat), (s.2 : Nat)⟩

theorem cell_injective {s t : Site width height} (h : s.cell = t.cell) : s = t := by
  simp only [cell, Cell.mk.injEq] at h
  apply Prod.ext
  · exact Fin.ext (by omega)
  · exact Fin.ext (by omega)

theorem cell_inj {s t : Site width height} : s.cell = t.cell ↔ s = t :=
  ⟨cell_injective, fun h => congrArg cell h⟩

theorem inBounds_cell {g : Grid} (hw : g.width = width) (hh : g.height = height)
    (s : Site width height) : g.inBounds s.cell = true := by
  have hx := s.1.isLt
  have hy := s.2.isLt
  simp [Grid.inBounds, cell, hw, hh]

theorem exists_of_inBounds {g : Grid} (hw : g.width = width) (hh : g.height = height) {c : Cell}
    (h : g.inBounds c = true) : ∃ s : Site width height, s.cell = c := by
  obtain ⟨x, y⟩ := c
  simp only [Grid.inBounds, Bool.and_eq_true, decide_eq_true_eq] at h
  refine ⟨(⟨x.toNat, by omega⟩, ⟨y.toNat, by omega⟩), ?_⟩
  simp only [cell, Cell.mk.injEq]
  omega

/-- All pairs of neighbours, walls or not. -/
def lattice (width height : Nat) : SimpleGraph (Site width height) :=
  (SimpleGraph.pathGraph width).boxProd (SimpleGraph.pathGraph height)

theorem lattice_adj {s t : Site width height} :
    (lattice width height).Adj s t ↔ ∃ side : Facing, side.step s.cell = t.cell := by
  obtain ⟨⟨x, hx⟩, ⟨y, hy⟩⟩ := s
  obtain ⟨⟨x', hx'⟩, ⟨y', hy'⟩⟩ := t
  simp only [lattice, SimpleGraph.boxProd_adj, SimpleGraph.pathGraph_adj, Fin.mk.injEq, cell]
  constructor
  · rintro (⟨h | h, heq⟩ | ⟨h | h, heq⟩)
    · exact ⟨.east, by simp only [Facing.step, Facing.delta, Cell.mk.injEq]; omega⟩
    · exact ⟨.west, by simp only [Facing.step, Facing.delta, Cell.mk.injEq]; omega⟩
    · exact ⟨.north, by simp only [Facing.step, Facing.delta, Cell.mk.injEq]; omega⟩
    · exact ⟨.south, by simp only [Facing.step, Facing.delta, Cell.mk.injEq]; omega⟩
  · rintro ⟨side, h⟩
    cases side <;> simp only [Facing.step, Facing.delta, Cell.mk.injEq] at h <;> omega

theorem lattice_connected (hw : 1 ≤ width) (hh : 1 ≤ height) :
    (lattice width height).Connected := by
  obtain ⟨w, rfl⟩ := Nat.exists_eq_add_of_le' hw
  obtain ⟨h, rfl⟩ := Nat.exists_eq_add_of_le' hh
  exact (SimpleGraph.pathGraph_connected w).boxProd (SimpleGraph.pathGraph_connected h)

/-- What holds of one cell and goes on to all its neighbours holds of every cell. -/
theorem induct {P : Site width height → Prop} (start : Site width height) (hstart : P start)
    (hstep : ∀ s t, P s → (lattice width height).Adj s t → P t) (s : Site width height) : P s := by
  have hw : 1 ≤ width := Nat.lt_of_le_of_lt (Nat.zero_le _) start.1.isLt
  have hh : 1 ≤ height := Nat.lt_of_le_of_lt (Nat.zero_le _) start.2.isLt
  have hpath : ∀ {a b : Site width height}, (lattice width height).Walk a b → P a → P b := by
    intro a b walk
    induction walk with
    | nil => exact id
    | cons hadj _ ih => exact fun ha => ih (hstep _ _ ha hadj)
  obtain ⟨walk⟩ := (lattice_connected hw hh).preconnected start s
  exact hpath walk hstart

end Site

namespace Grid

/-- The neighbours with no wall on either side between them. -/
def passages (g : Grid) (width height : Nat) : SimpleGraph (Site width height) where
  Adj s t := ∃ side : Facing, side.step s.cell = t.cell ∧ g.hasWall s.cell side = false ∧
    g.hasWall t.cell side.opposite = false
  symm := by
    refine ⟨fun s t ⟨side, hstep, hnear, hfar⟩ => ?_⟩
    refine ⟨side.opposite, Facing.step_eq_comm.mp hstep, hfar, ?_⟩
    rw [Facing.opposite_opposite]
    exact hnear
  loopless := by
    refine ⟨fun s ⟨side, hstep, _⟩ => ?_⟩
    exact Facing.step_ne side s.cell hstep

theorem passages_le_lattice (g : Grid) (width height : Nat) :
    g.passages width height ≤ Site.lattice width height := by
  rintro s t ⟨side, hstep, -⟩
  exact Site.lattice_adj.mpr ⟨side, hstep⟩

/-- Taking down the wall between two neighbours adds one passage. -/
theorem passages_opened {g g' : Grid} {width height : Nat} (hw : g.width = width)
    (hh : g.height = height) {s t : Site width height} {side : Facing}
    (hmeet : side.step s.cell = t.cell)
    (hhas : ∀ d other, g.inBounds d = true → g'.hasWall d other =
      if (d = s.cell ∧ other = side) ∨ (d = side.step s.cell ∧ other = side.opposite) then false
      else g.hasWall d other) :
    g'.passages width height = g.passages width height ⊔ SimpleGraph.edge s t := by
  have hne : s ≠ t := by
    rintro rfl
    exact Facing.step_ne side s.cell hmeet
  have hhas' : ∀ (a : Site width height) other, g'.hasWall a.cell other =
      if (a = s ∧ other = side) ∨ (a = t ∧ other = side.opposite) then false
      else g.hasWall a.cell other := by
    intro a other
    rw [hhas a.cell other (Site.inBounds_cell hw hh a), hmeet]
    simp only [Site.cell_inj]
  ext a b
  simp only [SimpleGraph.sup_adj, SimpleGraph.edge_adj, passages]
  constructor
  · rintro ⟨d, hstep, hnear, hfar⟩
    rw [hhas' a d] at hnear
    rw [hhas' b d.opposite] at hfar
    by_cases hthere : a = s ∧ d = side
    · obtain ⟨rfl, rfl⟩ := hthere
      have hb : b = t := Site.cell_injective (hstep.symm.trans hmeet)
      exact .inr ⟨.inl ⟨rfl, hb⟩, by rw [hb]; exact hne⟩
    · by_cases hback : a = t ∧ d = side.opposite
      · obtain ⟨rfl, rfl⟩ := hback
        have hb : b = s := Site.cell_injective (hstep.symm.trans (Facing.step_eq_comm.mp hmeet))
        exact .inr ⟨.inr ⟨rfl, hb⟩, by rw [hb]; exact hne.symm⟩
      · rw [if_neg (not_or.mpr ⟨hthere, hback⟩)] at hnear
        have hfar' : ¬ ((b = s ∧ d.opposite = side) ∨ (b = t ∧ d.opposite = side.opposite)) := by
          intro hsame
          simp only [← Site.cell_inj, ← hstep, ← hmeet] at hsame hthere hback
          exact not_or.mpr ⟨hthere, hback⟩ (Facing.same_edge.mp hsame)
        rw [if_neg hfar'] at hfar
        exact .inl ⟨d, hstep, hnear, hfar⟩
  · rintro (⟨d, hstep, hnear, hfar⟩ | ⟨⟨rfl, rfl⟩ | ⟨rfl, rfl⟩, -⟩)
    · refine ⟨d, hstep, ?_, ?_⟩
      · rw [hhas' a d, hnear, ite_self]
      · rw [hhas' b d.opposite, hfar, ite_self]
    · refine ⟨side, hmeet, ?_, ?_⟩
      · rw [hhas', if_pos (.inl ⟨rfl, rfl⟩)]
      · rw [hhas', if_pos (.inr ⟨rfl, rfl⟩)]
    · refine ⟨side.opposite, Facing.step_eq_comm.mp hmeet, ?_, ?_⟩
      · rw [hhas', if_pos (.inr ⟨rfl, rfl⟩)]
      · rw [hhas', Facing.opposite_opposite, if_pos (.inl ⟨rfl, rfl⟩)]

/-- A maze whose passages are a tree that spans the lattice, with the same wall on both sides of
every edge and no gap in its border. -/
structure Perfect (g : Grid) : Prop where
  spanning : g.passages g.width g.height ≤ Site.lattice g.width g.height
  edges : (g.passages g.width g.height).edgeSet.ncard = g.width * g.height - 1
  connected : (g.passages g.width g.height).Connected
  path : ∀ s t, ∃! p : (g.passages g.width g.height).Walk s t, p.IsPath
  agree : ∀ c side, g.inBounds c = true → g.inBounds (side.step c) = true →
    g.hasWall c side = g.hasWall (side.step c) side.opposite
  border : ∀ c side, g.inBounds c = true → g.inBounds (side.step c) = false →
    g.hasWall c side = true

theorem mem_cellsOf {g : Grid} {c : Cell} : c ∈ g.cells ↔ g.inBounds c = true := by
  obtain ⟨x, y⟩ := c
  simp only [cells, cellsOf, List.mem_flatMap, List.mem_map, List.mem_range, Cell.mk.injEq]
  constructor
  · rintro ⟨i, hi, j, hj, rfl, rfl⟩
    simp [inBounds, hi, hj]
  · intro h
    simp only [inBounds, Bool.and_eq_true, decide_eq_true_eq] at h
    exact ⟨x.toNat, by omega, y.toNat, by omega, by omega, by omega⟩

theorem getElem?_foldl_insert (cells : List Cell) (sides : Cell → Sides)
    (walls : Std.TreeMap Cell Sides) (c : Cell) :
    (cells.foldl (fun walls c => walls.insert c (sides c)) walls)[c]? =
      if c ∈ cells then some (sides c) else walls[c]? := by
  induction cells generalizing walls with
  | nil => simp
  | cons d rest ih =>
    have hget : (walls.insert d (sides d))[c]? =
        if compare d c = .eq then some (sides d) else walls[c]? :=
      Std.TreeMap.getElem?_insert
    rw [List.foldl_cons, ih, hget]
    by_cases hrest : c ∈ rest
    · rw [if_pos hrest, if_pos (List.mem_cons_of_mem d hrest)]
    · rw [if_neg hrest]
      by_cases hd : d = c
      · subst hd
        simp
      · have hcd : ¬ c = d := fun h => hd h.symm
        simp [hd, hcd, hrest]

theorem getElem?_build (width height : Nat) (closed : Bool) (c : Cell) :
    (build width height closed).walls[c]? =
      if (build width height closed).inBounds c = true then
        some (if closed then Sides.full else (build width height closed).borderSides c)
      else none := by
  have hfold := getElem?_foldl_insert (build width height closed).cells
    (fun d => if closed then Sides.full else (build width height closed).borderSides d) ∅ c
  have hempty : (∅ : Std.TreeMap Cell Sides)[c]? = none := Std.TreeMap.getElem?_emptyc
  rw [hempty] at hfold
  simp only [mem_cellsOf] at hfold
  exact hfold

theorem charted_build (width height : Nat) (closed : Bool) :
    (build width height closed).Charted := by
  intro c
  rw [Std.TreeMap.contains_eq_isSome_getElem?, getElem?_build]
  by_cases hc : (build width height closed).inBounds c = true
  · rw [if_pos hc, hc]
    rfl
  · rw [if_neg hc, Bool.eq_false_iff.mpr hc]
    rfl

/-- A new grid has every wall up if it is closed, and else those of the border. -/
theorem hasWall_build (width height : Nat) (closed : Bool) {c : Cell}
    (hc : (build width height closed).inBounds c = true) (side : Facing) :
    (build width height closed).hasWall c side =
      (closed || !(build width height closed).inBounds (side.step c)) := by
  unfold hasWall
  rw [getElem?_build, if_pos hc]
  cases closed
  · exact Sides.has_ofTest _ side
  · exact Sides.has_full side

theorem hasWall_build_closed (width height : Nat) (c : Cell) (side : Facing) :
    (build width height true).hasWall c side = true := by
  by_cases hc : (build width height true).inBounds c = true
  · exact hasWall_build width height true hc side
  · exact (charted_build width height true).hasWall_outside (Bool.eq_false_iff.mpr hc) side

end Grid

end MazeDuel
