import MazeDuel.Grid.Document
import MazeDuel.Grid.Picture
import MazeDuel.Radar
import MazeDuel.Shot
/-!
The arena: the world of one match, that is the grid, both combatants, what the radar knows of each
and the damage of a shot. It does not know whose turn it is.
-/

namespace MazeDuel

structure Arena where
  grid : Grid
  combatants : Duo Combatant
  fixes : Duo Fixes
  damage : Quantity

namespace Arena

def logger : String := "duel.world.arena"

/-- A new arena, with the spawn fixes in both generations of the radar. -/
def make (grid : Grid) (a b : Combatant) (damage : Quantity) : Except Fault Arena := do
  if a.player ≠ .a ∨ b.player ≠ .b then throw .combatantOrder
  if !(← grid.contains a.pos) then throw (.spawnOutside a.label a.pos)
  if !(← grid.contains b.pos) then throw (.spawnOutside b.label b.pos)
  return ⟨grid, ⟨a, b⟩, ⟨Fixes.fresh a.fix, Fixes.fresh b.fix⟩, damage⟩

def combatant (a : Arena) (p : Player) : Combatant := a.combatants.get p

def opponent (a : Arena) (p : Player) : Combatant := a.combatants.get p.other

def position (a : Arena) (p : Player) : Place := (a.combatant p).pos

def facing (a : Arena) (p : Player) : Facing := (a.combatant p).facing

def setCombatant (a : Arena) (p : Player) (c : Combatant) : Arena :=
  { a with combatants := a.combatants.set p c }

/-- Whether the player moved. Who stands on the grid has two numbers for a place, so that a step can
always be tried. -/
def tryMove (a : Arena) (p : Player) (dir : MoveDir) : Logged (Bool × Arena) := do
  let (outcome, c) ← (a.combatant p).tryMove a.grid dir
  let moved := outcome.toOption.getD false
  unless moved do
    Logged.note .debug logger (word p ++ " blocked moving " ++ capitals dir)
  return (moved, a.setCombatant p c)

def radarFor (a : Arena) (p : Player) : Logged (Fix × Arena) := do
  let (answer, c) ← Radar.query (a.fixes.get p.other) (a.combatant p) (a.opponent p)
  return (answer, a.setCombatant p c)

/-- Whether a place can be named in a text. A grid holds the walls of each of its cells, so none is
so large that the numbers of a place on it would be too long. -/
def legible (a : Arena) (place : Place) : Bool :=
  place.hasText || (a.grid.contains place).toOption.getD false

def shootAt (a : Arena) (p : Player) (cell : Place) :
    Logged (Except Fault ShotResult × Arena) := do
  let (result, target) ← Shot.resolve a.legible a.damage (a.combatant p) (a.opponent p) cell
  return (result, a.setCombatant p.other target)

theorem shootAt_eq (a : Arena) (p : Player) (cell : Place) :
    ∃ result target, (a.shootAt p cell).value = (result, a.setCombatant p.other target) ∧
      Shot.Resolved a.legible a.damage (a.combatant p) (a.opponent p) cell (result, target) :=
  ⟨_, _, rfl, Shot.resolved _ _ _ _ _⟩

def recordTurnEnd (a : Arena) (p : Player) : Logged Arena :=
  let fixes := (a.fixes.get p).push (a.combatant p).fix
  ⟨{ a with fixes := a.fixes.set p fixes }, [Radar.turnEndRecord p fixes]⟩

def pickUp (a : Arena) (p : Player) : Logged (Option Powerup × Arena) :=
  match a.grid.takePowerupAt (a.position p) with
  | (none, _) => pure (none, a)
  | (some powerup, grid) => do
    let c ← (a.combatant p).collect powerup
    return (some powerup, { a with grid := grid }.setCombatant p c)

def promote (a : Arena) (p : Player) : Logged Arena :=
  a.setCombatant p <$> (a.combatant p).promote

def clearActive (a : Arena) (p : Player) : Logged Arena :=
  a.setCombatant p <$> (a.combatant p).clearActive

def atExit (a : Arena) (p : Player) : Bool := a.grid.exitAt (a.position p)

def radarJson (a : Arena) : Json :=
  .object [(word Player.a, a.fixes.a.toJson), (word Player.b, a.fixes.b.toJson)]

def toJson (a : Arena) : Json :=
  .object [
    ("grid", a.grid.toJson),
    ("combatants", .object [(word Player.a, a.combatants.a.toJson),
      (word Player.b, a.combatants.b.toJson)]),
    ("radar", a.radarJson),
    ("shot_damage", a.damage.toJson)]

def document (a : Arena) : Except Fault Json := (fun _ => a.toJson) <$> a.grid.document

def picture (a : Arena) : List String :=
  a.grid.picture [(a.combatants.a.pos, word Player.a), (a.combatants.b.pos, word Player.b)]

def display (a : Arena) : String :=
  "Arena(grid=" ++ a.grid.display ++ ", A=" ++ a.combatants.a.pos.display ++ ", B=" ++
    a.combatants.b.pos.display ++ ")"

end Arena

end MazeDuel
