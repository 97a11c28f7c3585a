import MazeDuel.Arena
import MazeDuel.Notification
import MazeDuel.Script.Given
import MazeDuel.Turn.Deed
import MazeDuel.Turn.Schedule
import MazeDuel.Turn.State
import MazeDuel.Turn.Timing
/-!
A duel: everything that a match in play consists of, and what the players may ask of it. Here are
the requests that no listener is told of; those that listeners hear about are in
`MazeDuel.Turn.Coordinator`.
-/

namespace MazeDuel.Turn

inductive Job where
  /-- Hands control back to whoever waits for the match from outside. -/
  | caller
  /-- Reads the script and starts to run it. -/
  | begin (player : Player)
  /-- Goes on with a run: the actions still to come and the labels of those before. -/
  | act (player : Player) (rest : List Action) (executed : List String)
  /-- Ends the pause between two turns of continuous play. -/
  | pause (result : ExecutionResult)
  /-- Starts to count down the edit time. -/
  | timer
  /-- Counts a tick that has passed, of all that are to pass. -/
  | tick (passed total : Nat)

inductive Outcome where
  | done (result : Option ExecutionResult)
  | cancelled
  | failed (fault : Fault)

structure Duel where
  arena : Arena
  timing : Timing
  /-- The scripts as they were given; whether one can be read is found out when it is run. -/
  scripts : Duo Json := ⟨.text "", .text ""⟩
  log : EventLog Notification := {}
  current : Player := .a
  phase : Phase := .idle
  continuous : Bool := false
  turnNumber : Nat := 0
  started : Bool := false
  winner : Option Player := none
  result : GameResult := .inProgress
  /-- Seconds left for editing when the timer last counted. -/
  remaining : Quantity := .real 0
  /-- The task of the timer that was started last and not called off. -/
  timer : Option Nat := none
  /-- The task of the run that was accepted last. -/
  execution : Option Nat := none
  lastExecution : Option ExecutionResult := none
  finished : Bool := false
  schedule : Schedule Job := {}
  /-- The task whose step is being made. -/
  running : Option Nat := none
  /-- The task whose end the caller waits for. -/
  awaited : Option Nat := none
  outcomes : List (Nat × Outcome) := []
  /-- The records so far, the latest first. -/
  journal : List Record := []
  /-- The deeds so far, the latest first. -/
  deeds : List Deed := []

namespace Duel

def logger : String := "duel.coordinator"

def fresh (arena : Arena) (timing : Timing) (scripts : Duo Json) : Duel :=
  { arena, timing, scripts }

/-- A match that has not been started, if its timing can be kept. -/
def make (arena : Arena) (timing : Timing) (scripts : Duo Json) : Except Fault Duel := do
  return fresh arena (← timing.check) scripts

def isOver (d : Duel) : Bool := d.phase == .over

/-- Whether a task has still to end. -/
def isPending (d : Duel) (id : Nat) : Bool := d.schedule.holds id || d.running == some id

def outcome? (d : Duel) (id : Nat) : Option Outcome := (d.outcomes.find? (·.1 == id)).map (·.2)

def state (d : Duel) : TurnState where
  current := d.current
  phase := d.phase
  continuous := .bool d.continuous
  remaining := if d.timer.any d.isPending then d.remaining else .real 0
  turnNumber := .whole d.turnNumber
  winner := d.winner

def record (d : Duel) (r : Record) : Duel := { d with journal := r :: d.journal }

def note (d : Duel) (level : Level) (message : String) : Duel := d.record ⟨level, logger, message⟩

def remember (d : Duel) (x : Deed) : Duel := { d with deeds := x :: d.deeds }

def setArena (d : Duel) (x : Logged Arena) : Duel :=
  { d with arena := x.value, journal := x.records.reverse ++ d.journal }

/-- An operation on the arena that also answers something. -/
def onArena (d : Duel) (f : Arena → Logged (α × Arena)) : α × Duel :=
  let x := f d.arena
  (x.value.1, d.setArena ⟨x.value.2, x.records⟩)

def label (d : Duel) (p : Player) : String := (d.arena.combatant p).label

/-- Goes where an event leads; an event that leads nowhere is ignored. -/
def fire (d : Duel) (e : TurnEvent) : Bool × Duel :=
  match d.phase.next? e with
  | none => (false, d.note .debug ("Ignoring " ++ capitals e ++ " in phase " ++ capitals d.phase))
  | some phase =>
    (true, { d.note .debug (capitals e ++ ": " ++ capitals d.phase ++ " -> " ++ capitals phase) with
      phase })

/-- Whether a request of a player is heard at all: only from the player to move, before the end. -/
def accepts (d : Duel) (p : Player) (request : String) : Bool × Duel :=
  if d.isOver then
    (false, d.note .debug ("Ignoring " ++ request ++ " from " ++ word p ++ ": match is over"))
  else if p ≠ d.current then
    (false, d.note .debug ("Ignoring " ++ request ++ " from " ++ word p ++ ": it is " ++
      word d.current ++ "'s turn"))
  else (true, d)

/-- Calls the timer off. A timer that is just making its last step is only forgotten. -/
def cancelTimer (d : Duel) : Duel :=
  { d with
    schedule := match d.timer with
      | some id => d.schedule.cancel id
      | none => d.schedule
    timer := none }

/-- Starts the timer of a turn, with all of the edit time. -/
def startTimer (d : Duel) : Duel :=
  let d := d.cancelTimer
  let (id, schedule) := d.schedule.spawn .timer
  { d.remember (.timed id d.turnNumber d.running) with
    schedule, timer := some id, remaining := d.timing.editLimit }

/-- Replaces the script of the player to move, unless a script is running. A script that has no
length is taken all the same, but there is nothing to report of it. -/
def setScript (d : Duel) (p : Player) (script : Json) : Except Fault Bool × Duel :=
  match d.accepts p "set_script" with
  | (false, d) => (.ok false, d)
  | (true, d) =>
    if d.phase = .executing then
      (.ok false, d.note .debug ("Ignoring set_script from " ++ word p ++ ": script is running"))
    else
      let d := { d with scripts := d.scripts.set p script }.remember
        (.scripted p script d.phase d.current)
      match script.length? with
      | some length =>
        (.ok true, d.note .debug (word p ++ " script updated (" ++ toString length ++ " chars)"))
      | none => (.error .wrongType, d)

def beginEditing (d : Duel) (p : Player) : Bool × Duel :=
  match d.accepts p "begin_editing" with
  | (false, d) => (false, d)
  | (true, d) => d.fire .beginEdit

/-- A run of a player's script begins as a new task, and the turn needs no timer any more. -/
def accept (d : Duel) (p : Player) : Duel :=
  let d := d.cancelTimer
  let (id, schedule) := d.schedule.spawn (.begin p)
  { d.remember (.accepted id p d.turnNumber d.running) with schedule, execution := some id }

def execute (d : Duel) (p : Player) : Bool × Duel :=
  if !d.started then
    (false, d.note .debug ("Ignoring request_execute from " ++ word p ++ ": match not started"))
  else
    match d.accepts p "request_execute" with
    | (false, d) => (false, d)
    | (true, d) =>
      match d.fire .execute with
      | (false, d) => (false, d)
      | (true, d) => (true, d.accept p)

/-- In continuous play the player to move runs at once. -/
def autoExecute (d : Duel) : Duel :=
  if d.continuous && d.started && (d.phase == .idle || d.phase == .editing) then
    (d.execute d.current).2
  else d

def endEditing (d : Duel) (p : Player) : Bool × Duel :=
  match d.accepts p "end_editing" with
  | (false, d) => (false, d)
  | (true, d) =>
    match d.fire .endEdit with
    | (false, d) => (false, d)
    | (true, d) => (true, d.autoExecute)

def setContinuous (d : Duel) (on : Bool) : Duel :=
  if d.isOver then d.note .debug "Ignoring set_continuous: match is over"
  else
    ({ d with continuous := on }.note .info
      ("Continuous mode " ++ if on then "on" else "off")).autoExecute

def toggleContinuous (d : Duel) : Bool × Duel :=
  let d := d.setContinuous !d.continuous
  (d.continuous, d)

/-- The first player is to move. -/
def opened (d : Duel) : Duel :=
  { d.remember (.opened d.phase) with started := true, current := .a, phase := .idle }

def ended (d : Duel) (winner : Player) (reason : GameResult) : Duel :=
  { d.cancelTimer with
    remaining := .real 0, continuous := false, winner := some winner, result := reason }

/-- The other player is to move. -/
def passTurn (d : Duel) : Duel :=
  { d with current := d.current.other, turnNumber := d.turnNumber + 1 }

/-- Whether a script is running or the match is over, so that the turn needs no timer. -/
def isBusy (d : Duel) : Bool := d.phase == .executing || d.phase == .over

/-- After the turn was passed on: its timer starts, unless a listener has already started a run or
ended the match. -/
def beginTurn (d : Duel) : Duel := if d.isBusy then d else d.startTimer.autoExecute

/-- A run closes the turn. -/
def closeRun (d : Duel) (id : Nat) : Duel :=
  let (taken, d) := d.fire .finish
  d.remember (.closed id taken)

/-- Ends the task that is making its step; the caller goes on if it waited for that task. -/
def endTask (d : Duel) (id : Nat) (outcome : Outcome) : Duel :=
  let d := { d with outcomes := (id, outcome) :: d.outcomes }
  if d.awaited = some id then { d with awaited := none, schedule := (d.schedule.spawn .caller).2 }
  else d

/-- Lets a task rest before its next step; a rest too long for any clock ends it. -/
def rest (d : Duel) (id : Nat) (job : Job) (delay : Quantity) : Duel :=
  if delay.fitsReal then { d with schedule := d.schedule.rest id job delay.toFloat }
  else d.endTask id (.failed .numberTooLarge)

end Duel

end MazeDuel.Turn
