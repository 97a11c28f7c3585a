import MazeDuel.Vocabulary
/-!
What lies about in a maze to be picked up, and how a match can stand.
-/

namespace MazeDuel

/-- Both kinds are good for one use: `phase` for a step through a wall, `trueRadar` for a fix that
is not out of date. -/
inductive Powerup where
  | phase
  | trueRadar
  deriving DecidableEq, Repr, Inhabited

instance : Vocabulary Powerup where
  kind := "PowerupType"
  all := [.phase, .trueRadar]
  word
    | .phase => "phase"
    | .trueRadar => "true_radar"
  find_word p := by cases p <;> decide

inductive GameResult where
  | inProgress
  | exitReached
  | defeated
  deriving DecidableEq, Repr, Inhabited

instance : Vocabulary GameResult where
  kind := "GameResult"
  all := [.inProgress, .exitReached, .defeated]
  word
    | .inProgress => "in_progress"
    | .exitReached => "exit_reached"
    | .defeated => "defeated"
  find_word p := by cases p <;> decide

end MazeDuel
