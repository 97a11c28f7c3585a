import MazeDuel.Proofs.Script.Unrolling
import MazeDuel.Proofs.Turn.Rules
import MazeDuel.Proofs.World.Passages
/-!
Routes: scripts that walk along the passages of a maze. Whoever runs a route to the exit wins,
whatever lies on the way.
-/

namespace MazeDuel

theorem MoveDir.exists_facing (side : Facing) : ∃ dir : MoveDir, dir.facing = side := by
  cases side with
  | north => exact ⟨.up, rfl⟩
  | south => exact ⟨.down, rfl⟩
  | east => exact ⟨.right, rfl⟩
  | west => exact ⟨.left, rfl⟩

namespace Script

/-- A script that makes some moves and nothing else. -/
def route (moves : List MoveDir) : String := String.join (moves.map fun dir => dir.token ++ "();")

theorem isName_token (dir : MoveDir) : isName dir.token.toList = true := by
  cases dir <;> decide

def moveCall (dir : MoveDir) : Statement :=
  .leaf ⟨dir.token.toList, isName_token dir⟩ (some ⟨[], rfl, rfl⟩)

theorem route_toList (moves : List MoveDir) :
    (route moves).toList = shownAll (moves.map moveCall) := by
  induction moves with
  | nil => rfl
  | cons dir moves ih =>
    have hjoin : (route (dir :: moves)).toList =
        (dir.token ++ "();").toList ++ (route moves).toList := by
      simp [route]
    rw [hjoin, ih]
    cases dir <;> rfl

example : (route [.up, .right]).toList = "MoveUp();MoveRight();".toList := by decide

theorem meaning_moves (player : Player) (moves : List MoveDir) :
    meaningAll player (moves.map moveCall) = moves.map fun dir => ⟨player, .move dir⟩ := by
  induction moves with
  | nil => rfl
  | cons dir moves ih =>
    have hcall : (moveCall dir).meaning player = [⟨player, .move dir⟩] := by
      cases dir <;> cases player <;> decide
    rw [List.map_cons, meaningAll, hcall, ih]
    rfl

theorem countable_moves (player : Player) (moves : List MoveDir) :
    CountableAll player (moves.map moveCall) := by
  induction moves with
  | nil => trivial
  | cons dir moves ih => exact ⟨trivial, ih⟩

theorem parse_route (player : Player) (moves : List MoveDir) :
    (parse player (route moves)).value = .ok (moves.map fun dir => ⟨player, .move dir⟩) := by
  have htokens : tokens (route moves).toList = tokensOfAll (moves.map moveCall) := by
    rw [route_toList]
    exact (laidOut_shownAll (moves.map moveCall)).tokens
  rw [parse_of_tokens player _ _ htokens (countable_moves player moves), meaning_moves]

end Script

namespace Arena

/-- A player stands on a cell of a maze in which only the pickups may have changed. -/
structure Stands (maze : Grid) (p : Player) (cell : Cell) (a : Arena) : Prop where
  grid : ∃ powerups, a.grid = { maze with powerups := powerups }
  position : a.position p = .cell cell

variable {maze : Grid} {p : Player} {cell : Cell} {a a' : Arena}

/-- Who has not moved still stands there, whatever else has happened. -/
theorem Stands.sameFixes (h : a.Stands maze p cell) (hs : SameFixes a a')
    (hgrid : a'.grid = a.grid) : a'.Stands maze p cell := by
  constructor
  · rw [hgrid]
    exact h.grid
  · rw [← h.position]
    exact congrArg Fix.position (hs.fix p)

theorem Stands.pickUp (h : a.Stands maze p cell) : (a.pickUp p).value.2.Stands maze p cell := by
  obtain ⟨powerups, hgrid⟩ := h.grid
  constructor
  · cases hfound : a.grid.powerups[cell]? with
    | none =>
      have hnone : (a.pickUp p).value.2 = a := by
        apply pickUp_none
        simp [Arena.pickUp, h.position, Grid.takePowerup, hfound]
      rw [hnone]
      exact h.grid
    | some powerup =>
      refine ⟨a.grid.powerups.erase cell, ?_⟩
      have htaken : (a.pickUp p).value.2.grid = (a.grid.takePowerup cell).2 := by
        simp only [Arena.pickUp, h.position, Grid.takePowerupAt_cell, Grid.takePowerup, hfound]
        rfl
      rw [htaken, Grid.takePowerup, hgrid]
  · rw [← h.position]
    exact congrArg Fix.position ((sameFixes_pickUp a p).fix p)

/-- A move through a passage is made. -/
theorem Stands.tryMove (h : a.Stands maze p cell) {dir : MoveDir}
    (hin : maze.inBounds (dir.facing.step cell) = true)
    (hnear : maze.hasWall cell dir.facing = false)
    (hfar : maze.hasWall (dir.facing.step cell) dir.facing.opposite = false) :
    (a.tryMove p dir).value.2.Stands maze p (dir.facing.step cell) := by
  obtain ⟨powerups, hgrid⟩ := h.grid
  let c := a.combatant p
  have hin' : a.grid.inBounds (dir.facing.step cell) = true := by
    rw [hgrid]
    exact hin
  have hnear' : a.grid.hasWall cell dir.facing = false := by
    rw [hgrid]
    exact hnear
  have hfar' : a.grid.hasWall (dir.facing.step cell) dir.facing.opposite = false := by
    rw [hgrid]
    exact hfar
  have hlook : c.look a.grid dir.facing = .ok (.moved (dir.facing.step cell)) := by
    rw [Combatant.look_cell c a.grid dir.facing cell h.position, hnear', hin', hfar']
    rfl
  have hafter : (c.tryMove a.grid dir).value.2.pos = .cell (dir.facing.step cell) := by
    rw [Combatant.tryMove, hlook]
    rfl
  rw [tryMove_eq]
  refine ⟨⟨powerups, hgrid⟩, ?_⟩
  show ((a.setCombatant p (c.tryMove a.grid dir).value.2).combatant p).pos = _
  rw [combatant_setCombatant, if_pos rfl]
  exact hafter

end Arena

namespace Turn.Standing

variable {maze : Grid} {p : Player} {cell exit : Cell} {s : Standing}

/-- A player has won by reaching the exit. -/
structure Escaped (p : Player) (s : Standing) : Prop where
  phase : s.phase = .over
  winner : s.winner = some p
  result : s.result = .exitReached

theorem arrive_stands (h : s.arena.Stands maze p cell) (hexit : maze.exit = some (.cell exit)) :
    (s.arrive p).arena.Stands maze p cell ∧
      (cell = exit → (s.arrive p).Escaped p) ∧ (cell ≠ exit → (s.arrive p).phase = s.phase) := by
  have hpicked := h.pickUp
  obtain ⟨powerups, hgrid⟩ := hpicked.grid
  have hat : (s.arena.pickUp p).value.2.atExit p = (exit == cell) := by
    rw [Arena.atExit, hpicked.position, Grid.exitAt, hgrid, hexit]
    simp
  have hstay : ∃ x : Standing, x.arena = (s.arena.pickUp p).value.2 ∧ x.phase = s.phase ∧
      s.arrive p = if x.arena.atExit p then x.finish p .exitReached else x := by
    cases hfound : (s.arena.pickUp p).value.1 with
    | none =>
      refine ⟨{ s with arena := (s.arena.pickUp p).value.2 }, rfl, rfl, ?_⟩
      rw [arrive]
      simp only [hfound]
    | some powerup =>
      refine ⟨{ s with arena := (s.arena.pickUp p).value.2 }.hear (.powerupCollected p powerup),
        rfl, rfl, ?_⟩
      rw [arrive]
      simp only [hfound]
  obtain ⟨x, harena, hphase, harrive⟩ := hstay
  rw [harrive, harena, hat]
  by_cases hcell : cell = exit
  · subst hcell
    rw [if_pos (beq_self_eq_true _)]
    exact ⟨harena ▸ hpicked, fun _ => ⟨rfl, rfl, rfl⟩, fun hne => absurd rfl hne⟩
  · have hne : ¬ (exit == cell) = true := fun h => hcell (beq_iff_eq.mp h).symm
    rw [if_neg hne]
    exact ⟨harena ▸ hpicked, fun heq => absurd heq hcell, fun _ => hphase⟩

/-- A move through a passage leads to the next cell, and to the end of the match if that is the
exit. -/
theorem move_stands (h : s.arena.Stands maze p cell) (hexit : maze.exit = some (.cell exit))
    {dir : MoveDir} (hin : maze.inBounds (dir.facing.step cell) = true)
    (hnear : maze.hasWall cell dir.facing = false)
    (hfar : maze.hasWall (dir.facing.step cell) dir.facing.opposite = false) :
    let next := dir.facing.step cell
    (s.move p dir).arena.Stands maze p next ∧
      (next = exit → (s.move p dir).Escaped p) ∧
        (next ≠ exit → (s.move p dir).phase = s.phase) := by
  intro next
  let x : Standing := { s with arena := (s.arena.tryMove p dir).value.2 }
  have hx : x.arena.Stands maze p next := h.tryMove hin hnear hfar
  have hleft : ∀ y : Place, y = .cell next → y.same (s.arena.combatant p).fix.position = false := by
    intro y hy
    have hold : (s.arena.combatant p).fix.position = .cell cell := h.position
    have hne : ¬ next = cell := Facing.step_ne dir.facing cell
    rw [hy, hold, Place.same_cell]
    simp [hne]
  let before := (s.arena.combatant p).fix
  have hplace : ¬ (x.arena.position p).same before.position = true := by
    rw [hleft _ hx.position]
    exact Bool.false_ne_true
  have hfix : ¬ (x.arena.combatant p).fix.same before = true := by
    intro hsame
    exact hplace (Bool.and_eq_true_iff.mp hsame).1
  have hmoved : s.move p dir = (x.hear (.positionMoved p before)).arrive p := by
    have hmove : s.move p dir =
        if (x.arena.combatant p).fix.same before then x else x.moved p before := rfl
    have hheard : x.moved p before = if (x.arena.position p).same before.position
        then x.hear (.positionMoved p before)
        else (x.hear (.positionMoved p before)).arrive p := rfl
    rw [hmove, if_neg hfix, hheard, if_neg hplace]
  rw [hmoved]
  exact arrive_stands (s := x.hear _) hx hexit

theorem act_move (s : Standing) (p : Player) (dir : MoveDir) :
    s.act p (.move dir) = (.ok (), s.move p dir) := rfl

/-- Moves do not fail. -/
theorem run_moves_ok (s : Standing) (p : Player) (executed : List String) (moves : List MoveDir) :
    ∃ result, (s.run p executed (moves.map fun dir => ⟨p, .move dir⟩)).1 = .ok result := by
  induction moves generalizing s executed with
  | nil => exact ⟨_, rfl⟩
  | cons dir moves ih =>
    by_cases hover : s.phase = .over
    · rw [run_over hover]
      exact ⟨_, rfl⟩
    · rw [List.map_cons, run_cons hover (s.act_move p dir)]
      exact ih _ _

theorem play_moves (s : Standing) (p : Player) (moves : List MoveDir) :
    let program := moves.map fun dir => (⟨p, .move dir⟩ : Action)
    ∃ result, (s.play p program).1 = .ok result ∧
      s.play p program =
        conclude p (.ok result, (Standing.run { s with phase := .executing } p [] program).2) := by
  intro program
  obtain ⟨result, hresult⟩ := run_moves_ok { s with phase := .executing } p [] moves
  have hplay : s.play p program =
      conclude p (.ok result, (Standing.run { s with phase := .executing } p [] program).2) := by
    rw [play, ← hresult]
  exact ⟨result, by rw [hplay]; rfl, hplay⟩

/-- From every cell but the exit a walk through the passages is a route that wins. -/
theorem exists_route {width height : Nat} (hw : maze.width = width) (hh : maze.height = height)
    {start exit : Site width height} (hexit : maze.exit = some (.cell exit.cell))
    (walk : (maze.passages width height).Walk start exit) (hne : start ≠ exit) :
    ∃ moves : List MoveDir, ∀ (p : Player) (s : Standing) (executed : List String),
      s.phase ≠ .over → s.arena.Stands maze p start.cell →
        (s.run p executed (moves.map fun dir => ⟨p, .move dir⟩)).2.Escaped p := by
  -- on the walk; it stops at the first visit of the exit, where the match is over
  induction walk with
  | nil => exact absurd rfl hne
  | @cons start next exit hadj walk ih =>
    obtain ⟨side, hstep, hnear, hfar⟩ := hadj
    obtain ⟨dir, rfl⟩ := MoveDir.exists_facing side
    have hin := Site.inBounds_cell hw hh next
    rw [← hstep] at hin hfar
    by_cases hlast : next = exit
    · refine ⟨[dir], fun p s executed hp hs => ?_⟩
      obtain ⟨-, hescaped, -⟩ := move_stands hs hexit hin hnear hfar
      rw [List.map_singleton, run_cons hp (s.act_move p dir), run_nil]
      apply hescaped
      rw [hstep, hlast]
    · obtain ⟨moves, hmoves⟩ := ih hexit hlast
      refine ⟨dir :: moves, fun p s executed hp hs => ?_⟩
      obtain ⟨hstands, -, hphase⟩ := move_stands hs hexit hin hnear hfar
      have hother : dir.facing.step start.cell ≠ exit.cell := by
        rw [hstep]
        exact fun h => hlast (Site.cell_injective h)
      rw [List.map_cons, run_cons hp (s.act_move p dir)]
      apply hmoves
      · show (s.move p dir).phase ≠ .over
        rw [hphase hother]
        exact hp
      · rw [← hstep]
        exact hstands

end Turn.Standing

end MazeDuel
