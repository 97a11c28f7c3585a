import MazeDuel.Proofs.World.Aims
import MazeDuel.Proofs.World.Bodies
import MazeDuel.Proofs.World.Consistency
/-!
Moves on consistent grids. The two ways in which a step is tried, with an active phase at a wall and
without, look at different sides of walls; where both sides of every edge agree they come to one
rule. Who stands on the grid stays there, whatever moves are tried, also at an exit whose outer wall
is down.
-/

namespace MazeDuel

theorem Json.exists_quantity {value : Json} {n : Int} (h : value.toInt = .ok n) :
    ∃ q, Quantity.ofJson? value = some q ∧ q.toInt? = some n := by
  cases value with
  | whole m => exact ⟨_, rfl, congrArg some (Except.ok.inj h)⟩
  | bool b => exact ⟨_, rfl, congrArg some (Except.ok.inj h)⟩
  | _ => cases h

theorem Grid.within_of_toInt {value : Json} {n : Int} (h : value.toInt = .ok n) (size : Nat) :
    within size value = .ok (decide (0 ≤ n) && decide (n < size)) := by
  obtain ⟨q, hq, hn⟩ := Json.exists_quantity h
  have hlow := Quantity.le_of_toInt? (a := .whole 0) rfl hn
  have hhigh := Quantity.lt_of_toInt? (b := .whole size) hn rfl
  rw [within, Json.toQuantity, hq, ← hlow, ← hhigh]
  rfl

namespace Place.Whole

variable {p : Place} {c : Cell}

theorem cell?_eq (h : p.Whole c) : p.cell? = some c := by
  cases p with
  | cell d => rw [h.eq_cell, cell?_cell]
  | row values =>
    obtain ⟨x, y, hvalues, hx, hy⟩ := h
    obtain rfl : values = [x, y] := hvalues
    have hcoordinate {value : Json} {n : Int} (hn : value.toInt = .ok n) :
        coordinate? value = some n := by
      obtain ⟨q, hq, hint⟩ := Json.exists_quantity hn
      rw [coordinate?, hq]
      exact Quantity.integral?_eq_some.mpr (Quantity.place_of_toInt? hint)
    simp only [cell?, hcoordinate hx, hcoordinate hy]
    rfl

theorem asKey_eq (h : p.Whole c) : p.asKey = .ok p := by
  obtain ⟨x, y, hvalues, hx, hy⟩ := h
  obtain ⟨m, hm, -⟩ := Json.exists_quantity hx
  obtain ⟨n, hn, -⟩ := Json.exists_quantity hy
  exact if_pos (isKey_of_numbers hvalues hm hn)

theorem contains_eq (h : p.Whole c) (g : Grid) : g.contains p = .ok (g.inBounds c) := by
  cases p with
  | cell d => rw [h.eq_cell, Grid.contains_cell]
  | row values =>
    obtain ⟨x, y, hvalues, hx, hy⟩ := h
    obtain rfl : values = [x, y] := hvalues
    rw [Grid.contains, Grid.within_of_toInt hx, Grid.within_of_toInt hy]
    simp only [Grid.inBounds, bind, Except.bind, pure, Except.pure]
    split <;> simp_all

theorem hasWallAt_eq (h : p.Whole c) (g : Grid) (side : Facing) :
    g.hasWallAt p side = g.hasWall c side := by
  rw [Grid.hasWallAt, Grid.sidesAt?, h.cell?_eq]
  rfl

/-- Who stands on the grid, and on a cell, stands on a cell in bounds. -/
theorem inBounds (h : p.Whole c) {g : Grid} (hp : g.contains p = .ok true) :
    g.inBounds c = true := by
  rw [h.contains_eq] at hp
  exact Except.ok.inj hp

end Place.Whole

namespace Combatant

variable {grid : Grid} {c c' : Combatant} {here : Cell} {dir : MoveDir} {moved : Bool}

/-- What a move from a cell comes to. It is made just if the next cell is in bounds and no wall on
that side stands in the way of it, or a phase is active. It leads to just that cell, and a phase is
used up by a wall; else it only turns the combatant. -/
structure Moves (grid : Grid) (c : Combatant) (here : Cell) (dir : MoveDir) (moved : Bool)
    (c' : Combatant) : Prop where
  made : moved = true ↔ grid.inBounds (dir.facing.step here) = true ∧
    (grid.hasWall here dir.facing = false ∨ c.active.phase.isPresent = true)
  arrives : moved = true → c'.pos = .cell (dir.facing.step here)
  stays : moved = false → c'.pos = c.pos
  faces : c'.facing = dir.facing
  spent : (c.active.phase.isPresent = true ∧ c'.active.phase.isPresent = false) ↔
    (moved = true ∧ grid.hasWall here dir.facing = true)
  kept : ¬ (moved = true ∧ grid.hasWall here dir.facing = true) →
    c'.active.phase = c.active.phase
  others : c' = { c with
    pos := c'.pos, facing := c'.facing
    active := { c.active with phase := c'.active.phase } }

/-- On a consistent grid the far side of the wall tells nothing new. -/
theorem look_of_consistent (hg : grid.Consistent) (h : c.pos.Whole here)
    (hin : grid.inBounds here = true) (side : Facing) :
    c.look grid side = .ok (
      if grid.inBounds (side.step here) = true then
        if grid.hasWall here side = false then .moved (.cell (side.step here))
        else if c.active.phase.isPresent = true then .throughWall (.cell (side.step here))
        else .blocked
      else .blocked) := by
  have hlook : c.look grid side = .ok (if grid.hasWall here side then
      if c.active.phase.isPresent && grid.inBounds (side.step here) then
        .throughWall (.cell (side.step here)) else .blocked
      else if !grid.inBounds (side.step here) || grid.hasWall (side.step here) side.opposite then
        .blocked
      else .moved (.cell (side.step here))) := by
    rw [look, h.step, h.asKey_eq, ← h.hasWallAt_eq]
    rfl
  rw [hlook]
  by_cases hnext : grid.inBounds (side.step here) = true
  · rw [← hg.agree here side hin hnext]
    cases grid.hasWall here side <;> simp [hnext]
  · cases grid.hasWall here side <;> simp [hnext]

/-- A move on a consistent grid never fails, and comes to what the rule says. -/
theorem moves_tryMove (hg : grid.Consistent) (h : c.pos.Whole here)
    (hin : grid.inBounds here = true) (dir : MoveDir) :
    ∃ moved c', (c.tryMove grid dir).value = (.ok moved, c') ∧
      c.Moves grid here dir moved c' := by
  have hlook := look_of_consistent hg h hin dir.facing
  have hvalue {step : Step} (hstep : c.look grid dir.facing = .ok step) :
      (c.tryMove grid dir).value =
        (.ok step.changed, Combatant.after { c with facing := dir.facing } step) := by
    simp only [tryMove, hstep]
  refine ⟨_, _, hvalue hlook, ?_⟩
  by_cases hnext : grid.inBounds (dir.facing.step here) = true
  · cases hwall : grid.hasWall here dir.facing with
    | false =>
      constructor <;> simp [hnext, Step.changed, Combatant.after, hwall]
    | true =>
      cases hphase : c.active.phase.isPresent with
      | false =>
        constructor <;> simp [hnext, Step.changed, Combatant.after, hwall, hphase]
      | true =>
        have hgone : (Json.bool false).isPresent = false := rfl
        constructor <;> simp [hnext, Step.changed, Combatant.after, hwall, hphase, hgone]
  · constructor <;> simp [hnext, Step.changed, Combatant.after]

end Combatant

namespace Arena

variable {grid : Grid} {a : Arena} {p : Player}

/-- The arena after some moves, each tried by a player. -/
def tryMoves (a : Arena) (moves : List (Player × MoveDir)) : Arena :=
  moves.foldl (fun a move => (a.tryMove move.1 move.2).value.2) a

theorem tryMove_value (a : Arena) (p : Player) (dir : MoveDir) : (a.tryMove p dir).value =
    (((a.combatant p).tryMove a.grid dir).value.1.toOption.getD false,
      a.setCombatant p ((a.combatant p).tryMove a.grid dir).value.2) := by
  refine Prod.ext ?_ (a.tryMove_eq p dir)
  unfold tryMove
  simp only [Logged.value_bind]
  split <;> rfl

/-- A player's move in an arena is that of the combatant, and nothing else changes. -/
theorem exists_tryMove (hg : a.grid.Consistent) (ha : a.Grounded) {here : Cell}
    (h : (a.position p).Whole here) (dir : MoveDir) :
    ∃ moved c, (a.tryMove p dir).value = (moved, a.setCombatant p c) ∧
      (a.combatant p).Moves a.grid here dir moved c := by
  obtain ⟨moved, c, hvalue, hmoves⟩ := (a.combatant p).moves_tryMove hg h (h.inBounds (ha p)) dir
  refine ⟨moved, c, ?_, hmoves⟩
  rw [tryMove_value, hvalue]
  rfl

/-- Whoever stands on a cell stands on a cell after a move too, their own or another one's. -/
theorem exists_whole_tryMove (hg : a.grid.Consistent) (ha : a.Grounded) (q : Player)
    (dir : MoveDir) (h : ∃ here, (a.position p).Whole here) :
    ∃ here, ((a.tryMove q dir).value.2.position p).Whole here := by
  obtain ⟨here, hhere⟩ := h
  by_cases hp : p = q
  · subst hp
    obtain ⟨moved, c, hvalue, hmoves⟩ := exists_tryMove hg ha hhere dir
    have hposition : (a.tryMove p dir).value.2.position p = c.pos := by
      rw [hvalue, position, combatant_setCombatant, if_pos rfl]
    rw [hposition]
    cases moved with
    | true => exact ⟨_, hmoves.arrives rfl ▸ Place.whole_cell _⟩
    | false => exact ⟨here, (hmoves.stays rfl).symm ▸ hhere⟩
  · refine ⟨here, ?_⟩
    rw [position, tryMove_eq, combatant_setCombatant, if_neg hp]
    exact hhere

/-- Moves leave the grid as it is, and whoever stands on it, or on a cell of it, still does. -/
theorem grounded_tryMoves (hg : a.grid.Consistent) (ha : a.Grounded)
    (moves : List (Player × MoveDir)) :
    (a.tryMoves moves).grid = a.grid ∧ (a.tryMoves moves).Grounded ∧
      ∀ p, (∃ here, (a.position p).Whole here) →
        ∃ here, ((a.tryMoves moves).position p).Whole here := by
  induction moves generalizing a with
  | nil => exact ⟨rfl, ha, fun _ h => h⟩
  | cons move moves ih =>
    obtain ⟨q, dir⟩ := move
    have hgrid : (a.tryMove q dir).value.2.grid = a.grid := (a.tryMove_frame q dir).1
    obtain ⟨hgrid', hground, hwhole⟩ := ih (hgrid ▸ hg) (grounded_tryMove ha q dir)
    exact ⟨hgrid'.trans hgrid, hground,
      fun p h => hwhole p (exists_whole_tryMove hg ha q dir h)⟩

end Arena

/-- Moves on a consistent grid. Whoever stands on a cell in bounds moves by the rule: to the next
cell in the direction, if it is in bounds and there is no wall on that side or a phase is active.
So, whatever moves two players try in an arena, both stay on its grid, which stays as it is; and
whoever began on a cell stands on a cell, and the next move from there is made by the rule, in the
same arena but for the one who moves. -/
theorem Grid.Consistent.moves_ruled {grid : Grid} (hg : grid.Consistent) :
    (∀ (c : Combatant) (here : Cell), c.pos.Whole here → grid.inBounds here = true →
      ∀ dir, ∃ moved c', (c.tryMove grid dir).value = (.ok moved, c') ∧
        c.Moves grid here dir moved c') ∧
    ∀ a : Arena, a.grid = grid → a.Grounded → ∀ moves, let a' := a.tryMoves moves
      a'.grid = grid ∧ a'.Grounded ∧ ∀ p, (∃ here, (a.position p).Whole here) →
        ∃ here, (a'.position p).Whole here ∧ grid.inBounds here = true ∧
          ∀ dir, ∃ moved c, (a'.tryMove p dir).value = (moved, a'.setCombatant p c) ∧
            (a'.combatant p).Moves grid here dir moved c := by
  constructor
  · exact fun c here h hin dir => c.moves_tryMove hg h hin dir
  · rintro a rfl ha moves
    obtain ⟨hgrid, hground, hwhole⟩ := Arena.grounded_tryMoves hg ha moves
    refine ⟨hgrid, hground, fun p h => ?_⟩
    obtain ⟨here, hhere⟩ := hwhole p h
    have hin := hhere.inBounds (hground p)
    rw [hgrid] at hin
    refine ⟨here, hhere, hin, fun dir => ?_⟩
    have hmove := Arena.exists_tryMove (hgrid ▸ hg) hground hhere dir
    rw [hgrid] at hmove
    exact hmove

theorem Grid.Coherent.consistent {grid : Grid} (h : grid.Coherent) : grid.Consistent :=
  ⟨h.agree, fun _ side hc => h.charted.hasWall_outside hc side⟩

/-- Two cells with a wall between them, and an exit in the west whose outer wall is down. -/
def doorway : Grid := (Grid.build 2 1 true).edited [.removeWall ⟨0, 0⟩ .west, .setExit ⟨0, 0⟩]

/-- Who leaves by the exit stays on the grid; the wall in the middle takes a phase. -/
theorem moves_ruled_doorway :
    let fighter (p : Player) (x : Int) : Combatant :=
      { player := p, pos := .cell ⟨x, 0⟩, maxHealth := .whole 100, health := .whole 100
        active := { phase := .bool true } }
    let a : Arena := ⟨doorway, ⟨fighter .a 0, fighter .b 1⟩,
      ⟨.fresh (fighter .a 0).fix, .fresh (fighter .b 1).fix⟩, .whole 20⟩
    let a' := a.tryMoves [(.a, .left), (.b, .left), (.b, .left), (.b, .right)]
    doorway.Consistent ∧ (Place.cell ⟨0, 0⟩).Whole ⟨0, 0⟩ ∧ doorway.inBounds ⟨0, 0⟩ = true ∧
      doorway.hasWall ⟨0, 0⟩ .west = false ∧ a.Grounded ∧
      (∃ moved c', ((fighter .a 0).tryMove doorway .left).value = (.ok moved, c') ∧
        (fighter .a 0).Moves doorway ⟨0, 0⟩ .left moved c' ∧ moved = false) ∧
      a'.Grounded ∧ ∃ here, (a'.position .b).Whole here ∧ here = ⟨0, 0⟩ ∧
        ∃ moved c, (a'.tryMove .b .right).value = (moved, a'.setCombatant .b c) ∧
          (a'.combatant .b).Moves doorway here .right moved c ∧ moved = false := by
  intro fighter a a'
  have hdoorway : doorway.Consistent :=
    ((Grid.coherent_build 2 1 true {} rfl rfl).edited _).1.consistent
  have hin : doorway.inBounds ⟨0, 0⟩ = true := rfl
  have hopen : doorway.hasWall ⟨0, 0⟩ .west = false := by decide +kernel
  have ha : a.Grounded := by
    intro p
    cases p <;> rfl
  obtain ⟨hone, hmany⟩ := hdoorway.moves_ruled
  obtain ⟨moved, c', hvalue, hmoves⟩ := hone (fighter .a 0) ⟨0, 0⟩ (Place.whole_cell _) hin .left
  obtain ⟨-, hground, hnext⟩ := hmany a rfl ha [(.a, .left), (.b, .left), (.b, .left), (.b, .right)]
  obtain ⟨here, hhere, -, hrule⟩ := hnext .b ⟨⟨1, 0⟩, Place.whole_cell _⟩
  obtain ⟨moved', c, hvalue', hmoves'⟩ := hrule .right
  have hplace : (a'.position .b).cell? = some ⟨0, 0⟩ := by decide +kernel
  obtain rfl : here = ⟨0, 0⟩ := Option.some.inj (hhere.cell?_eq.symm.trans hplace)
  have hspent : ((a.tryMoves [(.a, .left), (.b, .left), (.b, .left), (.b, .right)]).combatant
      .b).active.phase.isPresent = false := by decide +kernel
  have hwall : doorway.hasWall ⟨0, 0⟩ .east = true := by decide +kernel
  refine ⟨hdoorway, Place.whole_cell _, hin, hopen, ha, ⟨moved, c', hvalue, hmoves, ?_⟩, hground,
    _, hhere, rfl, moved', c, hvalue', hmoves', ?_⟩
  · refine Bool.eq_false_iff.mpr fun hmoved => ?_
    have hnext := (hmoves.made.mp hmoved).1
    cases hnext
  · refine Bool.eq_false_iff.mpr fun hmoved => ?_
    rcases (hmoves'.made.mp hmoved).2 with hnone | hphase
    · exact absurd (hwall.symm.trans hnone) (by decide)
    · exact absurd (hspent.symm.trans hphase) (by decide)

end MazeDuel
