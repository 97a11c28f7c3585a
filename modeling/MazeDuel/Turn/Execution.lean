import MazeDuel.Action
import MazeDuel.Arena
import MazeDuel.Turn.State
/-!
Execution: running the actions of a program one after the other in some surroundings, with a pause
after each. An action that has begun always ends; only between two actions can a run be abandoned.
-/

namespace MazeDuel.Turn

/-- A world that actions can act on. -/
structure Surroundings (W : Type) where
  fix : W → Player → Fix
  tryMove : W → Player → MoveDir → W
  radarFor : W → Player → Fix × W
  /-- A shot may fail, and have changed something all the same. -/
  shootAt : W → Player → Place → Except Fault Unit × W
  /-- Takes a record into the journal. -/
  note : W → Record → W

namespace Execution

def logger : String := "duel.mechanics.executor"

variable {W : Type} (S : Surroundings W)

/-- The place that a shot is aimed at. Who is on the radar has two numbers for a place, from which
all steps can be made. -/
def target (fix : Fix) (modifiers : List Modifier) : Place :=
  match aim (fix.position, fix.facing) modifiers with
  | .ok aimed => aimed.1
  | .error _ => fix.position

/-- What an action does. A shot takes its fix when it is fired. -/
def invoke (w : W) (a : Action) : Except Fault Unit × W :=
  match a.command with
  | .move dir => (.ok (), S.tryMove w a.player dir)
  | .wait => (.ok (), w)
  | .shoot modifiers =>
    let (fix, w) := S.radarFor w a.player
    S.shootAt w a.player (target fix modifiers)

def beforeRecord (p : Player) (a : Action) (before : Fix) : Record :=
  ⟨.debug, logger, word p ++ " before " ++ a.label ++ ": pos=" ++ before.position.display ++
    " facing=" ++ capitals before.facing⟩

def afterRecord (p : Player) (after : Fix) : Record :=
  ⟨.debug, logger, word p ++ " after: pos=" ++ after.position.display ++ " facing=" ++
    capitals after.facing⟩

/-- One action of a player's run. The fix from before comes back if place or facing changed. -/
def perform (p : Player) (w : W) (a : Action) : Except Fault (Option Fix) × W :=
  let before := S.fix w p
  match invoke S (S.note w (beforeRecord p a before)) a with
  | (.error fault, w) => (.error fault, w)
  | (.ok (), w) =>
    let after := S.fix w p
    (.ok (if after.same before then none else some before), S.note w (afterRecord p after))

theorem perform_cases (p : Player) (w : W) (a : Action) :
    let before := S.fix w p
    let invoked := invoke S (S.note w (beforeRecord p a before)) a
    let after := S.fix invoked.2 p
    (∃ fault, invoked.1 = .error fault ∧ perform S p w a = (.error fault, invoked.2)) ∨
      invoked.1 = .ok () ∧ perform S p w a =
        (.ok (if after.same before then none else some before),
          S.note invoked.2 (afterRecord p after)) := by
  unfold perform
  dsimp only
  split
  · next fault w' h => exact .inl ⟨fault, congrArg Prod.fst h, by rw [h]⟩
  · next w' h => exact .inr ⟨congrArg Prod.fst h, by rw [h]⟩

def abandonedRecord (p : Player) (skipped : Nat) : Record :=
  ⟨.info, logger, word p ++ ": run abandoned, " ++ toString skipped ++ " action(s) skipped"⟩

/-- A run as a whole: what came of it, what it changed, and when. -/
structure Course (W : Type) where
  result : Except Fault ExecutionResult
  /-- The fixes that actions left behind, and the time of each. -/
  moves : List (Fix × Float)
  world : W
  time : Float

/-- A course with an action before it. -/
def Course.after (label : String) (left : List (Fix × Float)) (later : Course W) : Course W :=
  { later with
    result := later.result.map fun result => { result with executed := label :: result.executed }
    moves := left ++ later.moves }

/-- Runs a program in surroundings where nothing else happens. The answers of `abort` are asked for
before each action, the first `true` abandons the rest. An action that fails ends the run, and so
does a pause too long for any clock. -/
def run (p : Player) (delay : Quantity) (abort : Nat → Bool) (w : W) (time : Float) :
    List Action → Course W
  | [] => ⟨.ok { player := p }, [], w, time⟩
  | a :: rest =>
    if abort 0 then
      let skipped := rest.length + 1
      ⟨.ok { player := p, abandoned := skipped }, [], S.note w (abandonedRecord p skipped), time⟩
    else
      match perform S p w a with
      | (.error fault, w) => ⟨.error fault, [], w, time⟩
      | (.ok changed, w) =>
        let left := (changed.map fun fix => (fix, time)).toList
        if delay.fitsReal then
          let pause := delay.toFloat
          (run p delay (fun k => abort (k + 1)) w (if pause ≤ 0 then time else time + pause)
            rest).after a.label left
        else ⟨.error .numberTooLarge, left, w, time⟩

def bareArena : Surroundings (Logged Arena) where
  fix w p := (w.value.combatant p).fix
  tryMove w p dir := w >>= fun arena => (·.2) <$> arena.tryMove p dir
  radarFor w p :=
    let answer := w >>= fun arena => arena.radarFor p
    (answer.value.1, (·.2) <$> answer)
  shootAt w p cell :=
    let shot := w >>= fun arena => arena.shootAt p cell
    (shot.value.1.map fun _ => (), (·.2) <$> shot)
  note w r := ⟨w.value, w.records ++ [r]⟩

end Execution

end MazeDuel.Turn
