import MazeDuel.Action
import MazeDuel.Json.Basic
import MazeDuel.Phase
/-!
Deeds: what has been done in a match and cannot be seen of it later. A match keeps its deeds in
order, so that its past can be spoken of; no operation looks back at them.
-/

namespace MazeDuel.Turn

inductive Deed where
  /-- The match was started, in some phase. -/
  | opened (phase : Phase)
  /-- A player's script was replaced, in some phase and while some player was to move. -/
  | scripted (player : Player) (script : Json) (phase : Phase) (current : Player)
  /-- A run was accepted in some turn, in the step of the author if it was in a step at all. -/
  | accepted (run : Nat) (player : Player) (turn : Nat) (author : Option Nat)
  /-- A run began an action, in some phase and while some player was to move. -/
  | began (run : Nat) (action : Action) (phase : Phase) (current : Player)
  /-- A run came to its end before the match did, and its closing of the turn was taken or not. -/
  | closed (run : Nat) (taken : Bool)
  /-- A timer was started in some turn, in the step of the author if it was in a step at all. -/
  | timed (timer : Nat) (turn : Nat) (author : Option Nat)
  /-- A run that had passed the turn on went to its pause, in the turn that it had brought about. -/
  | paused (run : Nat) (turn : Nat)
  /-- A run came back from its pause, in some turn and some phase. -/
  | woke (run : Nat) (turn : Nat) (phase : Phase)
  deriving DecidableEq, Repr

end MazeDuel.Turn
