import MazeDuel.Place.Step
/-!
Actions: what one statement of a script asks for. An action names only its player and its
parameters; where the player stands and what the radar shows is looked up when it runs.
-/

namespace MazeDuel

/-- A step of the aim of a shot: a quarter turn, or one cell read from the present facing. -/
inductive Modifier where
  | turnLeft
  | turnRight
  | move (dir : MoveDir)
  deriving DecidableEq, Repr, Inhabited

namespace Modifier

instance : Vocabulary Modifier where
  kind := "ShotModifier"
  all := [turnLeft, turnRight] ++ MoveDir.all.map move
  word
    | turnLeft => "TurnLeft"
    | turnRight => "TurnRight"
    | move dir => dir.token
  find_word m := by
    rcases m with _ | _ | dir <;> (try cases dir) <;> decide

def dir? : Modifier → Option MoveDir
  | move dir => some dir
  | _ => none

/-- One modifier applied to a working place and facing. -/
def apply (stance : Cell × Facing) : Modifier → Cell × Facing
  | turnLeft => (stance.1, stance.2.left)
  | turnRight => (stance.1, stance.2.right)
  | move dir => ((dir.relativeTo stance.2).step stance.1, stance.2)

end Modifier

def applyModifiers (start : Cell × Facing) (modifiers : List Modifier) : Cell × Facing :=
  modifiers.foldl Modifier.apply start

@[simp] theorem applyModifiers_nil (start : Cell × Facing) : applyModifiers start [] = start := rfl

@[simp] theorem applyModifiers_cons (start : Cell × Facing) (m : Modifier) (ms : List Modifier) :
    applyModifiers start (m :: ms) = applyModifiers (m.apply start) ms := rfl

/-- The place that a shot from a fix is aimed at. -/
def aim (start : Place × Facing) : List Modifier → Except Fault (Place × Facing)
  | [] => .ok start
  | .turnLeft :: rest => aim (start.1, start.2.left) rest
  | .turnRight :: rest => aim (start.1, start.2.right) rest
  | .move dir :: rest => do aim (← start.1.step (dir.relativeTo start.2), start.2) rest

/-- From a cell the aim goes from cell to cell. -/
theorem aim_cell (c : Cell) (f : Facing) (modifiers : List Modifier) :
    aim (.cell c, f) modifiers =
      .ok (.cell (applyModifiers (c, f) modifiers).1, (applyModifiers (c, f) modifiers).2) := by
  induction modifiers generalizing c f with
  | nil => rfl
  | cons m rest ih =>
    cases m with
    | turnLeft => exact ih c f.left
    | turnRight => exact ih c f.right
    | move dir => exact ih _ f

inductive Command where
  | move (dir : MoveDir)
  | wait
  | shoot (modifiers : List Modifier)
  deriving DecidableEq, Repr, Inhabited

structure Action where
  player : Player
  command : Command
  deriving DecidableEq, Repr, Inhabited

namespace Command

inductive Kind where
  | move
  | wait
  | shoot
  deriving DecidableEq, Repr, Inhabited

instance : Vocabulary Kind where
  kind := "ActionType"
  all := [.move, .wait, .shoot]
  word
    | .move => "move"
    | .wait => "wait"
    | .shoot => "shoot"
  find_word k := by cases k <;> decide

def kind : Command → Kind
  | move _ => .move
  | wait => .wait
  | shoot _ => .shoot

def label : Command → String
  | move dir => dir.token
  | wait => "Wait"
  | shoot modifiers => "Shoot(" ++ String.join (modifiers.map fun m => word m ++ ";") ++ "Radar)"

def params : Command → Json
  | move dir => .object [("dir", wordJson dir)]
  | wait => .object []
  | shoot modifiers => .object [("modifiers", .list (modifiers.map wordJson))]

def ofParams (params : Json) : Kind → Except Fault Command
  | .move => do return .move (← readWord (← params.field "dir"))
  | .shoot => do
    let modifiers ← (← params.fieldD "modifiers" (.list [])).parts
    return .shoot (← modifiers.mapM readWord)
  | .wait => .ok .wait

end Command

namespace Action

def label (a : Action) : String := a.command.label

def display (a : Action) : String := a.label ++ "[" ++ word a.player ++ "]"

def toJson (a : Action) : Json :=
  .object [("type", wordJson a.command.kind), ("player", wordJson a.player),
    ("params", a.command.params)]

def ofJson (data : Json) : Except Fault Action := do
  let player : Player ← readWord (← data.field "player")
  let kind : Command.Kind ← readWord (← data.field "type")
  let command ← Command.ofParams (← data.fieldD "params" (.object [])) kind
  return ⟨player, command⟩

end Action

end MazeDuel
