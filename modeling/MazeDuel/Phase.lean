import MazeDuel.Vocabulary
/-!
The phases of a turn and the events that lead from one to the next.
-/

namespace MazeDuel

inductive Phase where
  /-- The player who holds the turn may edit or execute. -/
  | idle
  | editing
  | executing
  | over
  deriving DecidableEq, Repr, Inhabited

instance : Vocabulary Phase where
  kind := "TurnPhase"
  all := [.idle, .editing, .executing, .over]
  word
    | .idle => "idle"
    | .editing => "editing"
    | .executing => "executing"
    | .over => "over"
  find_word p := by cases p <;> decide

inductive TurnEvent where
  | beginEdit
  | endEdit
  | execute
  | finish
  | timeout
  | endMatch
  deriving DecidableEq, Repr, Inhabited

instance : Vocabulary TurnEvent where
  kind := "TurnEvent"
  all := [.beginEdit, .endEdit, .execute, .finish, .timeout, .endMatch]
  word
    | .beginEdit => "begin_edit"
    | .endEdit => "end_edit"
    | .execute => "execute"
    | .finish => "finish"
    | .timeout => "timeout"
    | .endMatch => "end_match"
  find_word p := by cases p <;> decide

/-- The phase that an event leads to; an event that is out of place leads nowhere. -/
def Phase.next? : Phase → TurnEvent → Option Phase
  | .idle, .beginEdit => some .editing
  | .editing, .endEdit => some .idle
  | .idle, .execute => some .executing
  | .editing, .execute => some .executing
  | .executing, .finish => some .idle
  | .idle, .timeout => some .idle
  | .editing, .timeout => some .idle
  | .idle, .endMatch => some .over
  | .editing, .endMatch => some .over
  | .executing, .endMatch => some .over
  | _, _ => none

@[simp] theorem Phase.next?_over (e : TurnEvent) : Phase.over.next? e = none := by cases e <;> rfl

end MazeDuel
