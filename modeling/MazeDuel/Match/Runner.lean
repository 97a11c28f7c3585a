import MazeDuel.Match.Config
import MazeDuel.Match.Frame
import MazeDuel.Turn.Clock
/-!
Runners: a match played turn by turn from outside, with a frame after each turn.
-/

namespace MazeDuel

open Turn

structure Runner where
  config : MatchConfig
  coordinator : Coordinator Unit
  verbose : Bool := false
  started : Bool := false

namespace Runner

def logger : String := "match_runner"

/-- Nobody but the log listens to a match that is run. -/
def tell : Notification → Coordinator Unit → Coordinator Unit :=
  (Listener.silent : Listener Unit).tell

def make (seeds : Json → Random.Twister) (config : MatchConfig) (verbose : Bool) :
    Logged (Except Fault Runner) :=
  (fun duel => do return { config, verbose, coordinator := ⟨← duel, ()⟩ }) <$>
    config.buildDuel seeds

def duel (r : Runner) : Duel := r.coordinator.duel

def update (r : Runner) (f : Coordinator Unit → Coordinator Unit) : Runner :=
  { r with coordinator := f r.coordinator }

def note (r : Runner) (message : String) : Runner :=
  r.update (·.update (·.record ⟨.info, logger, message⟩))

def done (r : Runner) : Bool := r.duel.isOver

def frame (r : Runner) (execution : Option ExecutionResult) (events : List Notification) :
    Frame where
  arena := r.duel.arena.toJson
  state := r.duel.state
  execution := execution.map ExecutionResult.toJson
  events := events.map Notification.toJson
  board := .text ("\n".intercalate r.duel.arena.picture)

def start (r : Runner) : Frame × Runner :=
  let r := if r.started then r else { r with started := true }.update (·.start tell)
  (r.frame none [], r)

def drain (r : Runner) : Runner := r.update (·.drain tell)

def asCaller (r : Runner) (work : Runner → α × Runner) : α × Runner :=
  let (a, r) := work (r.update (·.enter tell))
  (a, r.drain)

/-- Enough for the tasks that there are, and for the run of a player's script. -/
def effort (d : Duel) (p : Player) : Nat :=
  let actions := match (Script.parseGiven p (d.scripts.get p)).value with
    | .error _ => 0
    | .ok actions => actions.length
  Coordinator.patience + 2 * (d.schedule.ids.length + actions)

/-- Runs the script of the player to move, as the caller: the result of the run, and the events
since it was asked for. -/
def executeTurn (r : Runner) (p : Player) :
    Except Fault (ExecutionResult × List Notification) × Runner :=
  let mark := r.duel.log.size
  match r.coordinator.onDuel (·.execute p) with
  | (false, c) => (.error (.executionRefused p c.duel.phase), { r with coordinator := c })
  | (true, c) =>
    match c.duel.execution with
    | none => (.error (.executionRefused p c.duel.phase), { r with coordinator := c })
    | some id =>
      let r := { r with coordinator := c.awaitTaskAt tell (effort c.duel p) id }
      match r.duel.outcome? id with
      | some (.done (some result)) => (.ok (result, r.duel.log.since mark), r)
      | some (.failed fault) => (.error fault, r)
      | _ => (.error (.executionRefused p r.duel.phase), r)

/-- One turn, as the caller. A script for the player to move replaces the present one. -/
def playTurn (r : Runner) (scripts : Duo (Option Json)) : Except Fault Frame × Runner :=
  let r := if r.started then r else r.start.2
  if r.done then (.error .matchFinished, r)
  else
    let p := r.duel.current
    let (taken, r) := match scripts.get p with
      | some script =>
        let (taken, c) := r.coordinator.onDuel (·.setScript p script)
        (taken, { r with coordinator := c })
      | none => (.ok true, r)
    match taken with
    | .error fault => (.error fault, r)
    | .ok _ =>
      match r.executeTurn p with
      | (.error fault, r) => (.error fault, r)
      | (.ok (result, events), r) =>
        let frame := r.frame (some result) events
        let r := if r.verbose then
            r.note ("Turn " ++ toString r.duel.turnNumber ++ " done:\n" ++ frame.board.plainText)
          else r
        (.ok frame, r)

def step (r : Runner) (scripts : Duo (Option Json)) : Except Fault Frame × Runner :=
  r.asCaller (·.playTurn scripts)

/-- Plays turns, as the caller, while the match is on and some of `n` are left to be played; without
a limit it may go on forever. The frames are collected with the latest first. -/
def playTurns (frames : List Frame) (n : Option Nat) (r : Runner) :
    Option (Except Fault (List Frame) × Runner) :=
  if r.done || n == some 0 then some (.ok frames, r)
  else
    let goOn := playTurns (n := n.map (· - 1))
    match r.playTurn ⟨none, none⟩ with
    | (.error fault, r) => some (.error fault, r)
    | (.ok frame, r) => goOn (frame :: frames) r
partial_fixpoint

/-- The number of turns that are played before as many as a limit have been, if there is a limit. -/
def turnsAllowed : Json → Except Fault (Option Nat)
  | .null => .ok none
  | limit => do
    match ← limit.toQuantity with
    | .real x =>
      return if x ≤ 0 || x.isNaN then some 0 else (Number.ceiling x).map Int.toNat
    | limit => return some (limit.toInt?.getD 0).toNat

/-- Plays until the match ends or the limit is reached, as the caller: the frames in order, from
that of the start on. The limit is looked at only while the match is on. -/
def play? (r : Runner) (limit : Json) : Option (Except Fault (List Frame) × Runner) :=
  let (first, r) := r.start
  if r.done then some (.ok [first], r)
  else
    match turnsAllowed limit with
    | .error fault => some (.error fault, r)
    | .ok left =>
      (playTurns [first] left r).map fun (frames, r) =>
        match frames with
        | .error fault => (.error fault, r)
        | .ok frames =>
          let r := if r.done then r
            else r.note ("Stopped after " ++ toString (frames.length - 1) ++
              " turn(s) without a winner")
          (.ok frames.reverse, r)

/-- The same; whoever waits for a match that never ends waits forever. -/
def play (r : Runner) (limit : Json) : Except Fault (List Frame) × Runner :=
  (r.play? limit).getD (.error .endlessMatch, r)

def run (r : Runner) (limit : Json) : Except Fault (List Frame) × Runner :=
  r.asCaller (·.play limit)

def close (r : Runner) : Runner := r.update (·.close tell)

def now (r : Runner) : Float := r.duel.schedule.now

def setNow (now : Float) (r : Runner) : Runner := r.update (·.setNow now)

/-- The match at the moment that another one has reached. -/
def atMoment (r other : Runner) : Runner :=
  let clock := other.duel.schedule
  r.update (·.update fun d => { d with schedule := d.schedule.setClock clock.now clock.fresh })

/-- Wakes the first sleeper, if there is one, and lets everything ready run. -/
def wake (r : Runner) : Runner :=
  match r.coordinator.wake? with
  | some c => { r with coordinator := c }.drain
  | none => r

def withoutRecords (r : Runner) : Runner := r.update (·.update ({ · with journal := [] }))

end Runner

end MazeDuel
