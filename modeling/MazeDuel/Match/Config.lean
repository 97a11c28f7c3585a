import MazeDuel.Maze
import MazeDuel.Turn.Duel
/-!
Match settings: everything that is needed to set up one match. Numbers, names and scripts are kept
as they were given; whether they can be used is found out when the match is built.
-/

namespace MazeDuel

open Turn

structure MatchConfig where
  width : Quantity
  height : Quantity
  /-- The seed of the maze; `null` asks for any maze. -/
  seed : Json
  timing : Timing
  shotDamage : Quantity
  maxHealth : Quantity
  powerupsPerType : Option Quantity
  /-- The display names that were given, in the order in which the players were first named. -/
  names : List (Player × Json)
  scripts : Duo Json

namespace MatchConfig

def defaultSize : Int := 10

def defaultScripts : Duo Json :=
  ⟨.text "MoveRight();MoveUp();MoveUp();", .text "MoveLeft();MoveDown();"⟩

/-- Names a player, in place of an earlier name. -/
def insertName (names : List (Player × Json)) (p : Player) (name : Json) : List (Player × Json) :=
  if names.any (·.1 == p) then names.map fun entry => if entry.1 == p then (p, name) else entry
  else names ++ [(p, name)]

def readNames (section_ : List (String × Json)) : Except Fault (List (Player × Json)) :=
  section_.foldlM (fun names entry => do
    return insertName names (← Player.ofJson (.text entry.1)) entry.2) []

/-- A player without a script keeps the default. -/
def readScripts (section_ : List (String × Json)) : Except Fault (Duo Json) :=
  section_.foldlM (fun (scripts : Duo Json) entry => do
    return scripts.set (← Player.ofJson (.text entry.1)) entry.2) defaultScripts

/-- A number of a section, refused with the given fault if a test finds it bad. -/
def setting (value : Json) (bad : Quantity → Bool) (fault : Fault) : Except Fault Quantity := do
  let q ← value.toQuantity
  if bad q then .error fault else .ok q

/-- The section of the numbers. Each setting is looked at in turn and the first bad one is named. -/
def readSettings (data : Json) (names : List (Player × Json)) (scripts : Duo Json) :
    Except Fault MatchConfig := do
  let get (name : String) (fallback : Quantity) : Json := data.findD name fallback.toJson
  let notNegative (name : String) (fallback : Quantity) : Except Fault Quantity :=
    setting (get name fallback) (·.below 0) (.negativeSetting name (get name fallback))
  let positive (name : String) (fallback : Quantity) : Except Fault Quantity :=
    setting (get name fallback) (·.atMost 0) (.settingNotPositive name (get name fallback))
  let default : Timing := {}
  let width := get "width" (.whole defaultSize)
  let height := get "height" (.whole defaultSize)
  let tooSmall := Fault.mazeTooSmall width height
  let width ← setting width (·.below Maze.minSize) tooSmall
  let height ← setting height (·.below Maze.minSize) tooSmall
  let stepDelay ← notNegative "step_delay" default.stepDelay
  let turnDelay ← notNegative "continuous_turn_delay" default.turnDelay
  let editLimit ← positive "edit_time_limit" default.editLimit
  let tick ← positive "timer_tick" default.tick
  let shotDamage ← notNegative "shot_damage" (.whole Shot.defaultDamage)
  let maxHealth ← positive "max_health" (.whole Combatant.defaultHealth)
  let powerupsPerType ← match data.findD "powerups_per_type" .null with
    | .null => pure none
    | value => some <$> setting value (·.below 0) (.negativeSetting "powerups_per_type" value)
  return { width, height, seed := data.findD "seed" .null
           timing := ⟨stepDelay, turnDelay, editLimit, tick⟩
           shotDamage, maxHealth, powerupsPerType, names, scripts }

/-- The members of a section, which must be an object. -/
def readSection (label : String) : Json → Except Fault (List (String × Json))
  | .object members => .ok members
  | value => .error (.sectionNotADocument label value)

/-- A section that may be missing, or stand there empty in any form. -/
def optionalSection (data : Json) (label : String) : Json :=
  let value := data.findD label .null
  if value.isPresent then value else .object []

def ofJson (data : Json) : Except Fault MatchConfig := do
  match data with
  | .object _ =>
    let config := data.findD "config" (.object [])
    let _ ← readSection "config" config
    let names ← readSection "names" (optionalSection data "names")
    let scripts ← readSection "scripts" (optionalSection data "scripts")
    readSettings config (← readNames names) (← readScripts scripts)
  | value => .error (.notADocument value)

def toJson (c : MatchConfig) : Json :=
  .object [
    ("config", .object [
      ("width", c.width.toJson),
      ("height", c.height.toJson),
      ("seed", c.seed),
      ("step_delay", c.timing.stepDelay.toJson),
      ("continuous_turn_delay", c.timing.turnDelay.toJson),
      ("edit_time_limit", c.timing.editLimit.toJson),
      ("timer_tick", c.timing.tick.toJson),
      ("shot_damage", c.shotDamage.toJson),
      ("max_health", c.maxHealth.toJson),
      ("powerups_per_type", Json.ofOption Quantity.toJson c.powerupsPerType)]),
    ("names", .object (c.names.map fun entry => (word entry.1, entry.2))),
    ("scripts", .object [(word Player.a, c.scripts.a), (word Player.b, c.scripts.b)])]

def display (c : MatchConfig) : String :=
  "MatchConfig(" ++ c.width.display ++ "x" ++ c.height.display ++ ", seed=" ++ c.seed.plainText ++
    ")"

def displayAll (c : MatchConfig) : String := "MatchConfig(" ++ c.toJson.display ++ ")"

def standard (seed : Json) : Except Fault MatchConfig :=
  ofJson (.object [
    ("config", .object [("seed", seed)]),
    ("names", .object [(word Player.a, .text "Runner"), (word Player.b, .text "Hunter")])])

def buildLayout (c : MatchConfig) (seeds : Json → Random.Twister) :
    Logged (Except Fault Maze.Layout) :=
  Maze.generate seeds c.width.toJson c.height.toJson c.seed
    (Json.ofOption Quantity.toJson c.powerupsPerType)

def combatant (c : MatchConfig) (p : Player) (pos : Cell) : Except Fault Combatant :=
  Combatant.check
    { player := p, pos, maxHealth := c.maxHealth, health := c.maxHealth
      name := ((c.names.find? (·.1 == p)).map (·.2)).getD .null }

/-- The world of the match: the maze and both combatants at their spawns. -/
def buildArena (c : MatchConfig) (seeds : Json → Random.Twister) : Logged (Except Fault Arena) :=
  (fun layout => do
    let layout ← layout
    let a ← c.combatant .a layout.spawns.a
    let b ← c.combatant .b layout.spawns.b
    Arena.make layout.grid a b (← Shot.checkDamage c.shotDamage)) <$> c.buildLayout seeds

def buildDuel (c : MatchConfig) (seeds : Json → Random.Twister) : Logged (Except Fault Duel) :=
  (fun arena => do Duel.make (← arena) c.timing c.scripts) <$> c.buildArena seeds

end MatchConfig

end MazeDuel
