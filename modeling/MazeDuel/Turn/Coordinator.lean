import MazeDuel.Turn.Execution
import MazeDuel.Turn.Listener
/-!
The coordinator: a duel with its listener. Operations that listeners hear about take the way in
which they are told as an argument, `tell`; the way itself, in which a listener can ask for such
operations again, is tied in `Listener.tell`.
-/

namespace MazeDuel.Turn

structure Coordinator (M : Type) where
  duel : Duel
  memory : M

namespace Coordinator

variable {M : Type}

def update (c : Coordinator M) (f : Duel → Duel) : Coordinator M := { c with duel := f c.duel }

/-- An operation on the duel that also answers something. -/
def onDuel (c : Coordinator M) (f : Duel → α × Duel) : α × Coordinator M :=
  let (a, duel) := f c.duel
  (a, { c with duel })

/-- The log hears of everything before the listener does. -/
def logEvent (c : Coordinator M) (n : Notification) : Coordinator M :=
  c.update fun d => { d with log := d.log.record n }

variable (tell : Notification → Coordinator M → Coordinator M)

def promoteCurrent (c : Coordinator M) : Coordinator M :=
  c.update fun d => d.setArena (d.arena.promote d.current)

def tellTurn (c : Coordinator M) : Coordinator M := tell (.turnChanged c.duel.current) c

def start (c : Coordinator M) : Coordinator M :=
  if c.duel.started then c.update (·.note .debug "Coordinator already started")
  else
    let c := (c.update Duel.opened).promoteCurrent.update Duel.startTimer
    let c := c.update fun d => d.note .info ("Match started: " ++ d.label d.current ++ " to move")
    (c.tellTurn tell).update Duel.autoExecute

/-- Ends the match; after it has ended once nothing more happens. -/
def endMatch (winner : Player) (reason : GameResult) (c : Coordinator M) : Coordinator M :=
  match c.onDuel (·.fire .endMatch) with
  | (false, c) => c
  | (true, c) =>
    let c := c.update (·.ended winner reason)
    let c := c.update fun d => d.note .info ("Match over: " ++ d.label winner ++ " wins, " ++
      d.label winner.other ++ " loses (" ++ word reason ++ ")")
    (tell (.matchEnded winner winner.other reason) c).update ({ · with finished := true })

def reportLost (loser : Player) (c : Coordinator M) : Coordinator M :=
  endMatch tell loser.other .defeated c

def reportExited (exiter : Player) (c : Coordinator M) : Coordinator M :=
  endMatch tell exiter .exitReached c

/-- A shot; the match ends if the target has no health left. Of a shot that fails nobody hears. -/
def shootAt (p : Player) (cell : Place) (c : Coordinator M) :
    Except Fault ShotResult × Coordinator M :=
  match c.onDuel (·.onArena (·.shootAt p cell)) with
  | (.error fault, c) => (.error fault, c)
  | (.ok result, c) =>
    let c := tell (.shot result) c
    (.ok result, if result.targetDefeated then c.reportLost tell result.target else c)

theorem shootAt_cases (p : Player) (cell : Place) (c : Coordinator M) :
    let fired := c.onDuel (·.onArena (·.shootAt p cell))
    (∃ fault, fired.1 = .error fault ∧ c.shootAt tell p cell = (.error fault, fired.2)) ∨
      ∃ result, fired.1 = .ok result ∧ c.shootAt tell p cell = (.ok result,
        if result.targetDefeated then (tell (.shot result) fired.2).reportLost tell result.target
        else tell (.shot result) fired.2) := by
  unfold shootAt
  dsimp only
  split
  · next fault fired h => exact .inl ⟨fault, congrArg Prod.fst h, by rw [h]⟩
  · next result fired h => exact .inr ⟨result, congrArg Prod.fst h, by rw [h]⟩

def flipTurn (c : Coordinator M) : Coordinator M :=
  let c := (c.update Duel.passTurn).promoteCurrent.update fun d =>
    d.note .info ("Turn " ++ toString d.turnNumber ++ ": " ++ d.label d.current ++ " to move")
  c.tellTurn tell

/-- After an action that changed place or facing: what lies on a new place is picked up, and the
exit ends the match. -/
def onMoved (p : Player) (before : Fix) (c : Coordinator M) : Coordinator M :=
  let c := tell (.positionMoved p before) c
  if (c.duel.arena.position p).same before.position then c
  else
    let (found, c) := c.onDuel (·.onArena (·.pickUp p))
    let c := match found with
      | some powerup => tell (.powerupCollected p powerup) c
      | none => c
    if c.duel.arena.atExit p then c.reportExited tell p else c

/-- The duel as surroundings of the actions of a script. -/
def surroundings : Surroundings (Coordinator M) where
  fix c p := (c.duel.arena.combatant p).fix
  tryMove c p dir := (c.onDuel (·.onArena (·.tryMove p dir))).2
  radarFor c p := c.onDuel (·.onArena (·.radarFor p))
  shootAt c p cell :=
    let (result, c) := c.shootAt tell p cell
    (result.map fun _ => (), c)
  note c r := c.update (·.record r)

def handle (r : Request) (c : Coordinator M) : Reply × Coordinator M :=
  let flagged (x : Bool × Coordinator M) : Reply × Coordinator M := (.flag x.1, x.2)
  match r with
  | .start => (.nothing, c.start tell)
  | .setScript p script =>
    let (taken, c) := c.onDuel (·.setScript p script)
    match taken with
    | .ok taken => (.flag taken, c)
    | .error fault => (.fault fault, c)
  | .beginEditing p => flagged (c.onDuel (·.beginEditing p))
  | .endEditing p => flagged (c.onDuel (·.endEditing p))
  | .execute p => flagged (c.onDuel (·.execute p))
  | .setContinuous on => (.nothing, c.update (·.setContinuous on))
  | .toggleContinuous => flagged (c.onDuel (·.toggleContinuous))
  | .lost p => (.nothing, c.reportLost tell p)
  | .exited p => (.nothing, c.reportExited tell p)
  | .shootAt p cell =>
    match c.shootAt tell p cell with
    | (.error fault, c) => (.fault fault, c)
    | (.ok result, c) => (.shot result, c)
  | .tryMove p dir => flagged (c.onDuel (·.onArena (·.tryMove p dir)))
  | .radarFor p =>
    let (fix, c) := c.onDuel (·.onArena (·.radarFor p))
    (.fix fix, c)
  | .position p => (.place (c.duel.arena.position p), c)
  | .facing p => (.facing (c.duel.arena.facing p), c)

theorem handle_shootAt (p : Player) (cell : Place) (c : Coordinator M) :
    (c.handle tell (.shootAt p cell)).2 = (c.shootAt tell p cell).2 := by
  unfold handle
  dsimp only
  split <;> next h => rw [h]

end Coordinator

/-- Carries out what a listener plans, with a way to get its requests done. -/
def Plan.perform (handle : Request → Coordinator M → Reply × Coordinator M) :
    Plan M → Coordinator M → Coordinator M
  | .stop, c => c
  | .look next, c => (next c.duel c.memory).perform handle c
  | .keep memory next, c => next.perform handle { c with memory }
  | .ask request next, c =>
    let (reply, c) := handle request c
    (next reply).perform handle c

/-- Tells the log and then, down to a depth of nesting, the listener. -/
def Listener.tellAt (l : Listener M) : Nat → Notification → Coordinator M → Coordinator M
  | 0, n, c => c.logEvent n
  | depth + 1, n, c =>
    (l.plan n).perform (Coordinator.handle (l.tellAt depth)) (c.logEvent n)

def Listener.tell (l : Listener M) : Notification → Coordinator M → Coordinator M :=
  l.tellAt l.depth

def Coordinator.request (l : Listener M) (r : Request) (c : Coordinator M) :
    Reply × Coordinator M :=
  c.handle l.tell r

end MazeDuel.Turn
