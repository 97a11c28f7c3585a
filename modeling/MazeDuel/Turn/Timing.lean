import MazeDuel.Document
import MazeDuel.Number.Double
/-!
Timing of a match: the pause after each action, the pause between turns of continuous play, the
time for editing and the ticks in which that time is counted down.
-/

namespace MazeDuel.Turn

structure Timing where
  stepDelay : Quantity := .real 0.25
  turnDelay : Quantity := .real 0.15
  editLimit : Quantity := .real 30
  tick : Quantity := .real 0.1
  deriving DecidableEq

namespace Timing

/-- Pauses must not be negative; edit time and tick must be positive. -/
def check (t : Timing) : Except Fault Timing :=
  if t.turnDelay.below 0 then .error (.negativeTurnDelay t.turnDelay)
  else if t.editLimit.atMost 0 then .error (.editTimeNotPositive t.editLimit)
  else if t.tick.atMost 0 then .error (.timerTickNotPositive t.tick)
  else if t.stepDelay.below 0 then .error (.negativeStepDelay t.stepDelay)
  else .ok t

/-- Reads a timing; what is missing has its default. Each part must be a number in its range, and
the step delay is looked at last. -/
def ofJson (data : Json) : Except Fault Timing := do
  let part (key : String) (fallback : Quantity) (bad : Quantity → Bool)
      (fault : Quantity → Fault) : Except Fault Quantity := do
    let q ← (data.findD key fallback.toJson).toQuantity
    if bad q then throw (fault q) else return q
  let t : Timing := {}
  let turnDelay ← part "continuous_turn_delay" t.turnDelay (·.below 0) .negativeTurnDelay
  let editLimit ← part "edit_time_limit" t.editLimit (·.atMost 0) .editTimeNotPositive
  let tick ← part "timer_tick" t.tick (·.atMost 0) .timerTickNotPositive
  let stepDelay ← part "step_delay" t.stepDelay (·.below 0) .negativeStepDelay
  return { stepDelay, turnDelay, editLimit, tick }

/-- A ratio of limit and tick that is a whole number but for an error of this size counts as
whole. -/
def tickSlack : Float := 1e-9

/-- The number of ticks that cover the edit time, at least one. -/
def ticks (t : Timing) : Except Fault Nat :=
  match t.editLimit.ratio? t.tick with
  | none => .error .endlessTimer
  | some ratio =>
    match Number.ceiling (ratio - tickSlack) with
    | some n => .ok (max 1 n).toNat
    | none => .error (if ratio.isNaN then .undefinedTimer else .endlessTimer)

def remaining (t : Timing) (ticks : Nat) : Quantity :=
  .max (.real 0) (t.editLimit.sub (.mul (.whole ticks) t.tick))

end Timing

end MazeDuel.Turn
