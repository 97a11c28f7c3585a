import MazeDuel.Proofs.World.Laying
/-!
The way out of a maze. However the generator chooses, passages still join every cell of a layout
with every other one, the spawns and the exit among them.
-/

namespace MazeDuel

namespace Grid

/-- Where no wall goes up, no passage is lost. -/
theorem passages_mono {g g' : Grid} {width height : Nat}
    (h : ∀ (s : Site width height) side, g.hasWall s.cell side = false →
      g'.hasWall s.cell side = false) : g.passages width height ≤ g'.passages width height := by
  rintro s t ⟨side, hstep, hnear, hfar⟩
  exact ⟨side, hstep, h s side hnear, h t side.opposite hfar⟩

end Grid

namespace Maze

open MazeDuel.Random (Chooser)

/-- A layout of a size in which passages join all cells, and both players come to the exit from
elsewhere. -/
structure Layout.Joined (made : Layout) (width height : Nat) : Prop where
  width_eq : made.grid.width = width
  height_eq : made.grid.height = height
  connected : (made.grid.passages width height).Connected
  exit : ∃ exit : Site width height, made.grid.exit = some (.cell exit.cell) ∧
    ∀ p, ∃ s : Site width height, s.cell = made.spawns.get p ∧ s ≠ exit

/-- The exit is a cell, and no spawn is there. -/
theorem Layout.WellLaid.exists_exit {made : Layout} {width height each : Nat}
    (h : made.WellLaid width height each) (hw : 2 ≤ width) (hh : 2 ≤ height) :
    ∃ exit : Site width height, made.grid.exit = some (.cell exit.cell) ∧
      ∀ p, ∃ s : Site width height, s.cell = made.spawns.get p ∧ s ≠ exit := by
  obtain ⟨side, cell, hfaces⟩ := h.faces
  obtain ⟨exit, rfl⟩ := Site.exists_of_inBounds h.width_eq h.height_eq hfaces.across.1
  refine ⟨exit, hfaces.exit_eq, fun p => ?_⟩
  obtain ⟨s, hs⟩ := Site.exists_of_inBounds h.width_eq h.height_eq (hfaces.behind p).1
  refine ⟨s, hs, ?_⟩
  rintro rfl
  rw [← h.width_eq] at hw
  rw [← h.height_eq] at hh
  exact hfaces.across.not_across hw hh (hs ▸ hfaces.behind p)

/-- Every size that is large enough is laid out, and all cells of the layout are joined. -/
theorem exists_layout {G : Type} (c : Chooser G) {width height : Nat} (hw : 2 ≤ width)
    (hh : 2 ≤ height) (each : Nat) (g : G) :
    ∃ made g', layout c width height each g = .ok (made, g') ∧ made.Joined width height ∧
      made.WellLaid width height each := by
  obtain ⟨maze, made, g', hlayout, rfl, rfl, hperfect, hopened, hlaid⟩ :=
    exists_laid c hw hh each g
  refine ⟨made, g', hlayout, ?_, hlaid⟩
  constructor
  case width_eq => exact hlaid.width_eq
  case height_eq => exact hlaid.height_eq
  case connected =>
    -- the wall that comes down is one of the border, so at most passages are added
    apply hperfect.connected.mono
    apply Grid.passages_mono
    exact fun s side => hopened s.cell side (Site.inBounds_cell rfl rfl s)
  case exit => exact hlaid.exists_exit hw hh

end Maze

end MazeDuel
