import MazeDuel.Proofs.World.Bodies
import MazeDuel.Turn.Duel
import MazeDuel.Turn.Execution
/-!
The rules of a match as one would write them down for a board: what an action, the end of a turn and
a turn as a whole make of how the match stands. There is no clock here, no task, and nobody who
comes in between.
-/

namespace MazeDuel.Turn

/-- How a match stands, apart from its clock, its tasks and its journal. -/
structure Standing where
  arena : Arena
  log : EventLog Notification
  phase : Phase
  started : Bool
  current : Player
  turnNumber : Nat
  winner : Option Player
  result : GameResult
  finished : Bool

def Duel.standing (d : Duel) : Standing :=
  ⟨d.arena, d.log, d.phase, d.started, d.current, d.turnNumber, d.winner, d.result, d.finished⟩

namespace Standing

def isOver (s : Standing) : Bool := s.phase == .over

def hear (s : Standing) (n : Notification) : Standing := { s with log := s.log.record n }

def finish (s : Standing) (winner : Player) (reason : GameResult) : Standing :=
  { s.hear (.matchEnded winner winner.other reason) with
    phase := .over, winner := some winner, result := reason, finished := true }

/-- A player has come to a new cell: what lies there is picked up, and the exit ends the match. -/
def arrive (s : Standing) (p : Player) : Standing :=
  let (found, arena) := (s.arena.pickUp p).value
  let s := { s with arena }
  let s := match found with
    | some powerup => s.hear (.powerupCollected p powerup)
    | none => s
  if s.arena.atExit p then s.finish p .exitReached else s

/-- The player was at another fix before; only a new cell counts as an arrival. -/
def moved (s : Standing) (p : Player) (before : Fix) : Standing :=
  let s := s.hear (.positionMoved p before)
  if (s.arena.position p).same before.position then s else s.arrive p

def move (s : Standing) (p : Player) (dir : MoveDir) : Standing :=
  let before := (s.arena.combatant p).fix
  let s := { s with arena := (s.arena.tryMove p dir).value.2 }
  if (s.arena.combatant p).fix.same before then s else s.moved p before

/-- A shot at a place; the match ends if the opponent has no health left. Of a shot that fails
nobody hears. -/
def shootAt (s : Standing) (p : Player) (cell : Place) : Except Fault Unit × Standing :=
  match (s.arena.shootAt p cell).value with
  | (.error fault, arena) => (.error fault, { s with arena })
  | (.ok shot, arena) =>
    let s := { s with arena }.hear (.shot shot)
    (.ok (), if (s.arena.opponent p).defeated then s.finish p .defeated else s)

/-- A shot at what the radar shows, from the modifiers on. -/
def shoot (s : Standing) (p : Player) (modifiers : List Modifier) : Except Fault Unit × Standing :=
  let (fix, arena) := (s.arena.radarFor p).value
  { s with arena }.shootAt p (Execution.target fix modifiers)

def act (s : Standing) (p : Player) : Command → Except Fault Unit × Standing
  | .move dir => (.ok (), s.move p dir)
  | .wait => (.ok (), s)
  | .shoot modifiers => s.shoot p modifiers

/-- The actions of a program one after the other. None is begun once the match is over, or after one
that fails. -/
def run (s : Standing) (p : Player) (executed : List String) :
    List Action → Except Fault ExecutionResult × Standing
  | [] => (.ok ⟨p, executed, 0⟩, s)
  | a :: later =>
    if s.isOver then (.ok ⟨p, executed, later.length + 1⟩, s)
    else
      match s.act p a.command with
      | (.error fault, s) => (.error fault, s)
      | (.ok (), s) => s.run p (executed ++ [a.label]) later

theorem shootAt_error {s : Standing} {p : Player} {cell : Place} {fault : Fault}
    (h : (s.arena.shootAt p cell).value.1 = .error fault) :
    s.shootAt p cell = (.error fault, { s with arena := (s.arena.shootAt p cell).value.2 }) := by
  unfold shootAt
  split
  · next h' => simp_all
  · next h' => simp_all

theorem shootAt_ok {s : Standing} {p : Player} {cell : Place} {shot : ShotResult}
    (h : (s.arena.shootAt p cell).value.1 = .ok shot) :
    let fired := { s with arena := (s.arena.shootAt p cell).value.2 }.hear (.shot shot)
    s.shootAt p cell =
      (.ok (), if (fired.arena.opponent p).defeated then fired.finish p .defeated else fired) := by
  unfold shootAt
  split
  · next h' => simp_all
  · next h' =>
    rw [h'] at h ⊢
    cases h
    rfl

/-- A shot leaves behind the arena that it leaves behind in the arena. -/
theorem arena_shootAt (s : Standing) (p : Player) (cell : Place) :
    (s.shootAt p cell).2.arena = (s.arena.shootAt p cell).value.2 := by
  unfold shootAt
  split
  · next h => rw [h]
  · next h =>
    rw [h]
    dsimp only
    split <;> rfl

/-- An action that fails may have changed the arena, and nothing else. -/
theorem act_error {s s' : Standing} {p : Player} {command : Command} {fault : Fault}
    (h : s.act p command = (.error fault, s')) : ∃ arena, s' = { s with arena } := by
  cases command with
  | move dir => cases h
  | wait => cases h
  | shoot modifiers =>
    let aiming : Standing := { s with arena := (s.arena.radarFor p).value.2 }
    have h : aiming.shootAt p (Execution.target (s.arena.radarFor p).value.1 modifiers) =
        (.error fault, s') := h
    cases hshot : (aiming.arena.shootAt p
      (Execution.target (s.arena.radarFor p).value.1 modifiers)).value.1 with
    | error fault' =>
      rw [shootAt_error hshot] at h
      exact ⟨_, (congrArg Prod.snd h).symm⟩
    | ok shot =>
      rw [shootAt_ok hshot] at h
      cases congrArg Prod.fst h

/-- The first player is to move. -/
def opening (s : Standing) : Standing :=
  { s with
    arena := (s.arena.promote .a).value
    phase := .idle, started := true, current := .a }.hear (.turnChanged .a)

/-- The turn passes to the other player, whose queued pickups become active. -/
def pass (s : Standing) (p : Player) : Standing :=
  { s with
    arena := (s.arena.promote p.other).value
    phase := .idle, current := p.other, turnNumber := s.turnNumber + 1 }.hear (.turnChanged p.other)

/-- A player has ended a turn: the fix is recorded, active pickups are lost, and the turn passes. -/
def endTurn (s : Standing) (p : Player) : Standing :=
  let arena := (s.arena.recordTurnEnd p).value
  { s with arena := (arena.clearActive p).value }.pass p

/-- After the actions of a run the turn ends, unless the match is over or an action failed. -/
def conclude (p : Player) (x : Except Fault ExecutionResult × Standing) :
    Except Fault ExecutionResult × Standing :=
  match x with
  | (.error fault, s) => (.error fault, s)
  | (.ok result, s) => (.ok result, if s.isOver then s else s.endTurn p)

/-- A player's turn with a program. -/
def play (s : Standing) (p : Player) (program : List Action) :
    Except Fault ExecutionResult × Standing :=
  conclude p ({ s with phase := .executing }.run p [] program)

@[simp] theorem run_nil (s : Standing) (p : Player) (executed : List String) :
    s.run p executed [] = (.ok ⟨p, executed, 0⟩, s) := rfl

theorem run_over {s : Standing} (h : s.phase = .over) (p : Player) (executed : List String)
    (program : List Action) :
    s.run p executed program = (.ok ⟨p, executed, program.length⟩, s) := by
  cases program with
  | nil => rfl
  | cons a later => simp [run, isOver, h]

section

variable {s s' : Standing} {p : Player} {a : Action}

theorem run_cons (h : s.phase ≠ .over) (hact : s.act p a.command = (.ok (), s'))
    (executed : List String) (later : List Action) :
    s.run p executed (a :: later) = s'.run p (executed ++ [a.label]) later := by
  simp [run, isOver, h, hact]

theorem run_failing {fault : Fault} (h : s.phase ≠ .over)
    (hact : s.act p a.command = (.error fault, s')) (executed : List String)
    (later : List Action) : s.run p executed (a :: later) = (.error fault, s') := by
  simp [run, isOver, h, hact]

theorem conclude_over {result : ExecutionResult} (h : s.phase = .over) :
    conclude p (.ok result, s) = (.ok result, s) := by
  simp [conclude, isOver, h]

theorem conclude_going {result : ExecutionResult} (h : s.phase ≠ .over) :
    conclude p (.ok result, s) = (.ok result, s.endTurn p) := by
  simp [conclude, isOver, h]

end

end Standing

end MazeDuel.Turn
