import MazeDuel.Document
import MazeDuel.Number.Double
/-!
What can be seen of a match from outside: the standing of the turn, and what came of the last run
of a script.
-/

namespace MazeDuel.Turn

structure ExecutionResult where
  player : Player
  /-- The labels of the actions that were invoked, in order. -/
  executed : List String := []
  abandoned : Nat := 0
  deriving DecidableEq, Repr, Inhabited

namespace ExecutionResult

/-- The document of a run, from what is told of it. It is complete if nothing was skipped. -/
def document (player : Player) (executed : List Json) (abandoned : Json) : Json :=
  .object [("player", wordJson player), ("executed", .list executed), ("abandoned", abandoned),
    ("completed", .bool (abandoned.same (.whole 0)))]

def toJson (r : ExecutionResult) : Json :=
  document r.player (r.executed.map .text) (.whole r.abandoned)

end ExecutionResult

structure TurnState where
  current : Player
  phase : Phase
  /-- Whether the match is played continuously, as it was given. -/
  continuous : Json
  /-- Seconds left for editing; zero while no timer runs. -/
  remaining : Quantity
  /-- How often the turn has passed on, as it was given. -/
  turnNumber : Json := .whole 0
  winner : Option Player := none

namespace TurnState

/-- The places after the point in which documents give seconds. -/
def secondPlaces : Nat := 3

/-- Seconds with as many places as documents give; whole seconds stay whole. -/
def rounded : Quantity → Json
  | .real x => .real (Number.roundPlaces secondPlaces x)
  | .whole n => .whole n
  | .flag b => .whole (if b then 1 else 0)

def toJson (s : TurnState) : Json :=
  .object [
    ("current_turn", wordJson s.current),
    ("phase", wordJson s.phase),
    ("is_editing", .bool (s.phase == .editing)),
    ("is_executing", .bool (s.phase == .executing)),
    ("is_over", .bool (s.phase == .over)),
    ("continuous_mode", s.continuous),
    ("remaining_edit_time", rounded s.remaining),
    ("turn_number", s.turnNumber),
    ("winner", Json.ofOption wordJson s.winner)]

end TurnState

end MazeDuel.Turn
