import MazeDuel.Grid.Places
import MazeDuel.Journal
/-!
Combatants: place, facing, health and pickups of the two characters. A pickup is queued when it is
collected, active during the owner's next turn, and then lost if it was not used.
-/

namespace MazeDuel

/-- The pickups of one stage. Each is any value, as it was given; it is there if the value is
present. -/
structure Powers where
  phase : Json := .bool false
  trueRadar : Json := .bool false
  deriving BEq, Inhabited

def Powers.add (p : Powers) : Powerup → Powers
  | .phase => { p with phase := .bool true }
  | .trueRadar => { p with trueRadar := .bool true }

structure Fix where
  position : Place
  facing : Facing
  deriving BEq, Inhabited

namespace Fix

def same (f g : Fix) : Bool := f.position.same g.position && f.facing == g.facing

def display (f : Fix) : String :=
  "RadarReading(position=" ++ f.position.display ++ ", facing=<Facing." ++ capitals f.facing ++
    ": '" ++ word f.facing ++ "'>)"

def toJson (f : Fix) : Json :=
  .object [("position", f.position.toJson), ("facing", wordJson f.facing)]

end Fix

structure Combatant where
  player : Player
  pos : Place
  name : Json := .null
  facing : Facing := .north
  maxHealth : Quantity
  health : Quantity
  queued : Powers := {}
  active : Powers := {}
  deriving BEq, Inhabited

namespace Combatant

def defaultHealth : Int := 100

/-- A combatant with sound health: never outside the range from zero to its maximum. -/
def check (c : Combatant) : Except Fault Combatant :=
  if c.maxHealth.atMost 0 then .error (.maxHealthNotPositive c.maxHealth)
  else .ok { c with health := .max (.whole 0) (.min c.health c.maxHealth) }

def logger : String := "duel.entities.combatant"

/-- The name with the player's letter; without a name, the player's title. -/
def label (c : Combatant) : String :=
  (if c.name.isPresent then c.name.plainText else "Player " ++ word c.player) ++
    "(" ++ word c.player ++ ")"

def fix (c : Combatant) : Fix := ⟨c.pos, c.facing⟩

def defeated (c : Combatant) : Bool := c.health.atMost 0

inductive Step where
  | blocked
  | moved (target : Place)
  | throughWall (target : Place)

def Step.changed : Step → Bool
  | blocked => false
  | _ => true

/-- What comes of a step in a direction. A wall on the near side lets an active phase pass, as long
as the step stays on the grid; the far side blocks too. -/
def look (c : Combatant) (grid : Grid) (side : Facing) : Except Fault Step := do
  let target ← c.pos.step side
  let here ← c.pos.asKey
  let inside ← grid.contains target
  return if grid.hasWallAt here side then
      if c.active.phase.isPresent && inside then .throughWall target else .blocked
    else if !inside || grid.hasWallAt target side.opposite then .blocked
    else .moved target

theorem look_cell (c : Combatant) (grid : Grid) (side : Facing) (cell : Cell)
    (h : c.pos = .cell cell) :
    c.look grid side = .ok (
      if grid.hasWall cell side then
        if c.active.phase.isPresent && grid.inBounds (side.step cell) then
          .throughWall (side.step cell)
        else .blocked
      else if !grid.inBounds (side.step cell) || grid.hasWall (side.step cell) side.opposite then
        .blocked
      else .moved (side.step cell)) := by
  simp only [look, h]
  rfl

def after (c : Combatant) : Step → Combatant
  | .blocked => c
  | .moved target => { c with pos := target }
  | .throughWall target =>
    { c with pos := target, active := { c.active with phase := .bool false } }

/-- Turns to a direction and steps that way if nothing is in the way: whether the step was made, and
the combatant after it. From a place without numbers no step can be tried. -/
def tryMove (c : Combatant) (grid : Grid) (dir : MoveDir) :
    Logged (Except Fault Bool × Combatant) :=
  let turned := { c with facing := dir.facing }
  match c.look grid dir.facing with
  | .error fault => pure (.error fault, turned)
  | .ok step =>
    ⟨(.ok step.changed, turned.after step),
      match step with
      | .throughWall target =>
        [⟨.info, logger, c.label ++ " used Phase: passed through a wall to " ++ target.display ++
          " (powerup consumed)"⟩]
      | _ => []⟩

def setHealth (c : Combatant) (health : Quantity) : Combatant :=
  { c with health := .max (.whole 0) (.min c.maxHealth health) }

def applyDamage (c : Combatant) (amount : Quantity) : Combatant := c.setHealth (c.health.sub amount)

/-- Damage given from outside, which must be a number that can be taken from the health. -/
def takeDamage (c : Combatant) (amount : Json) : Except Fault Combatant := do
  let amount ← amount.toQuantity
  if c.health.combines amount then return c.applyDamage amount else throw .numberTooLarge

def collect (c : Combatant) (p : Powerup) : Logged Combatant :=
  ⟨{ c with queued := c.queued.add p },
    [⟨.info, logger, c.label ++ " collected " ++ word p ++ " (available next turn)"⟩]⟩

/-- At the start of a turn what is queued becomes active. -/
def promote (c : Combatant) : Logged Combatant :=
  let phase := c.queued.phase.isPresent
  let trueRadar := c.queued.trueRadar.isPresent
  ⟨{ c with
      queued := ⟨if phase then .bool false else c.queued.phase,
        if trueRadar then .bool false else c.queued.trueRadar⟩
      active := ⟨if phase then .bool true else c.active.phase,
        if trueRadar then .bool true else c.active.trueRadar⟩ },
    (if phase then [⟨.info, logger, c.label ++ ": Phase active for this turn"⟩] else []) ++
    (if trueRadar then [⟨.info, logger, c.label ++ ": True radar active for this turn"⟩] else [])⟩

/-- At the end of a turn what is active is lost. -/
def clearActive (c : Combatant) : Logged Combatant :=
  if c.active.phase.isPresent || c.active.trueRadar.isPresent then
    ⟨{ c with active := {} },
      [⟨.info, logger, c.label ++ ": active powerups cleared at end of turn"⟩]⟩
  else pure c

/-- Uses up an active true radar; says whether there was one. -/
def consumeTrueRadar (c : Combatant) : Bool × Combatant :=
  if c.active.trueRadar.isPresent then
    (true, { c with active := { c.active with trueRadar := .bool false } })
  else (false, c)

def display (c : Combatant) : String :=
  c.label ++ " at " ++ c.pos.display ++ " facing " ++ capitals c.facing ++ " [" ++
    (if c.defeated then "down" else c.health.display ++ "hp") ++ "]"

def toJson (c : Combatant) : Json :=
  .object [
    ("player", wordJson c.player),
    ("name", c.name),
    ("pos", c.pos.toJson),
    ("facing", wordJson c.facing),
    ("health", c.health.toJson),
    ("max_health", c.maxHealth.toJson),
    ("queued_phase", c.queued.phase),
    ("queued_true_radar", c.queued.trueRadar),
    ("active_phase", c.active.phase),
    ("active_true_radar", c.active.trueRadar)]

/-- Reads a combatant; only the player and the place are needed. -/
def ofJson (data : Json) : Except Fault Combatant := do
  let player ← readWord (← data.field "player")
  let pos ← Place.ofJson (← data.field "pos")
  let facing ← readWord (data.findD "facing" (wordJson Facing.north))
  let top := data.findD "max_health" (.whole defaultHealth)
  let maxHealth ← top.toQuantity
  if maxHealth.atMost 0 then throw (.maxHealthNotPositive maxHealth)
  let health ← (data.findD "health" top).toQuantity
  let flag (key : String) : Json := data.findD key (.bool false)
  check { player, pos, facing, maxHealth, health
          name := data.findD "name" .null
          queued := ⟨flag "queued_phase", flag "queued_true_radar"⟩
          active := ⟨flag "active_phase", flag "active_true_radar"⟩ }

end Combatant

end MazeDuel
