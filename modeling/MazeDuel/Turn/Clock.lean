import MazeDuel.Turn.Step
/-!
The clock: how the tasks of a match run while time passes, and how a caller from outside waits for
one of them. A caller takes its turns in the same queue as the tasks. All loops here have a bound on
their steps that is never met by tasks which rest now and then.
-/

namespace MazeDuel.Turn.Coordinator

variable {M : Type} (tell : Notification → Coordinator M → Coordinator M)

/-- The bound on the steps of a loop. -/
def patience : Nat := 1000000000

/-- Runs the ready tasks until none is left or the caller's turn has come. -/
def drainAt : Nat → Coordinator M → Coordinator M
  | 0, c => c
  | fuel + 1, c =>
    match c.step? tell with
    | some c => drainAt fuel c
    | none => c

def drain (c : Coordinator M) : Coordinator M := c.drainAt tell patience

/-- Wakes the sleepers that are due by a moment, one after the other. -/
def passAt (target : Float) : Nat → Coordinator M → Coordinator M
  | 0, c => c
  | fuel + 1, c =>
    match c.duel.schedule.due? with
    | some due =>
      if due ≤ target then
        match c.wake? with
        | some c => passAt target fuel (c.drain tell)
        | none => c
      else c
    | none => c

def setNow (now : Float) (c : Coordinator M) : Coordinator M :=
  c.update fun d => { d with schedule := { d.schedule with now } }

/-- Runs everything up to a moment, and sets the clock to it. -/
def passUntil (target : Float) (c : Coordinator M) : Coordinator M :=
  ((c.drain tell).passAt tell target patience).setNow target

def advance (seconds : Float) (c : Coordinator M) : Coordinator M :=
  c.passUntil tell (c.duel.schedule.now + seconds)

/-- Runs everything until the caller's turn has come. -/
def untilCallerAt : Nat → Coordinator M → Coordinator M
  | 0, c => c
  | fuel + 1, c =>
    match c.step? tell with
    | some c => untilCallerAt fuel c
    | none =>
      if c.duel.schedule.ready.isEmpty then
        match c.wake? with
        | some c => untilCallerAt fuel c
        | none => c
      else c

/-- Takes the caller, whose turn has come, from the queue. -/
def takeCaller (c : Coordinator M) : Coordinator M :=
  c.update fun d => { d with schedule := { d.schedule with ready := d.schedule.ready.drop 1 } }

/-- Queues the caller and waits for its first turn. -/
def enter (c : Coordinator M) : Coordinator M :=
  ((c.update fun d => { d with schedule := (d.schedule.spawn .caller).2 }).untilCallerAt tell
    patience).takeCaller

/-- Waits, as the caller, for the end of a task. -/
def awaitTaskAt (fuel : Nat) (id : Nat) (c : Coordinator M) : Coordinator M :=
  if c.duel.isPending id then
    ((c.update ({ · with awaited := some id })).untilCallerAt tell fuel).takeCaller
  else c

def awaitTask (id : Nat) (c : Coordinator M) : Coordinator M := c.awaitTaskAt tell patience id

/-- Waits for a task, and lets everything ready run after it. -/
def wait (id : Nat) (c : Coordinator M) : Coordinator M :=
  ((c.enter tell).awaitTask tell id).drain tell

/-- Calls a task off, if there is one that has not ended, and waits for its end. -/
def callOffAt (fuel : Nat) (id : Option Nat) (c : Coordinator M) : Coordinator M :=
  match id with
  | none => c
  | some id =>
    if c.duel.isPending id then
      (c.update fun d => { d with schedule := d.schedule.cancel id }).awaitTaskAt tell fuel id
    else c

/-- What closing does once it is the caller's turn: calls off the timer and the run, as they stand
now. -/
def callOffAllAt (fuel : Nat) (c : Coordinator M) : Coordinator M :=
  let c' := (c.callOffAt tell fuel c.duel.timer).callOffAt tell fuel c.duel.execution
  c'.update ({ · with timer := none })

/-- The same with a bound that the tasks in the queue cannot use up. -/
def callOffAll (c : Coordinator M) : Coordinator M :=
  c.callOffAllAt tell (patience + c.duel.schedule.ready.length)

/-- Closes the match without a result. -/
def close (c : Coordinator M) : Coordinator M := ((c.enter tell).callOffAll tell).drain tell

end MazeDuel.Turn.Coordinator
