import MazeDuel.Turn.Coordinator
/-!
Steps: what a task of a match does when its turn in the queue has come, up to its next rest.
-/

namespace MazeDuel.Turn.Coordinator

variable {M : Type}

def endTask (id : Nat) (outcome : Outcome) (c : Coordinator M) : Coordinator M :=
  c.update (·.endTask id outcome)

def rest (id : Nat) (job : Job) (delay : Quantity) (c : Coordinator M) : Coordinator M :=
  c.update (·.rest id job delay)

variable (tell : Notification → Coordinator M → Coordinator M)

/-- After the last action of a run: the turn is closed and passed on. -/
def finishRun (id : Nat) (result : ExecutionResult) (c : Coordinator M) : Coordinator M :=
  let c := c.update ({ · with lastExecution := some result })
  if c.duel.isOver then c.endTask id (.done (some result))
  else
    let c := c.update fun d => d.setArena (d.arena.recordTurnEnd result.player)
    let c := c.update fun d => d.setArena (d.arena.clearActive result.player)
    let c := c.update (·.closeRun id)
    let c := c.flipTurn tell
    if c.duel.continuous then
      (c.update fun d => d.remember (.paused id d.turnNumber)).rest id (.pause result)
        c.duel.timing.turnDelay
    else (c.update Duel.beginTurn).endTask id (.done (some result))

/-- The next action of a run, if there is one and the match is not over. An action that fails ends
the task as it stands, and the turn is not closed. -/
def act (id : Nat) (p : Player) (executed : List String) (c : Coordinator M) :
    List Action → Coordinator M
  | [] => c.finishRun tell id ⟨p, executed, 0⟩
  | a :: later =>
    if c.duel.isOver then
      let skipped := later.length + 1
      (c.update (·.record (Execution.abandonedRecord p skipped))).finishRun tell id
        ⟨p, executed, skipped⟩
    else
      let c := c.update fun d => d.remember (.began id a d.phase d.current)
      match Execution.perform (surroundings tell) p c a with
      | (.error fault, c) => c.endTask id (.failed fault)
      | (.ok changed, c) =>
        let c := match changed with
          | some before => c.onMoved tell p before
          | none => c
        c.rest id (.act p later (executed ++ [a.label])) c.duel.timing.stepDelay

/-- The first step of a run: the script is read as it stands now. -/
def beginRun (id : Nat) (p : Player) (c : Coordinator M) : Coordinator M :=
  let program := Script.parseGiven p (c.duel.scripts.get p)
  let c := c.update fun d => { d with journal := program.records.reverse ++ d.journal }
  match program.value with
  | .error fault => c.endTask id (.failed fault)
  | .ok actions =>
    (c.update (·.note .info (word p ++ " executing " ++ toString actions.length ++
      " action(s)"))).act tell id p [] actions

/-- When the edit time has run out the turn is passed on. -/
def onTimeout (c : Coordinator M) : Coordinator M :=
  match c.onDuel (·.fire .timeout) with
  | (false, c) => c
  | (true, c) =>
    let c := c.update fun d => d.note .info (d.label d.current ++ " ran out of time")
    (c.flipTurn tell).update Duel.beginTurn

/-- One step of a task that has not been called off. -/
def runJob (id : Nat) (c : Coordinator M) : Job → Coordinator M
  | .caller => c
  | .begin p => c.beginRun tell id p
  | .act p rest executed => c.act tell id p executed rest
  | .pause result =>
    let c := c.update fun d => d.remember (.woke id d.turnNumber d.phase)
    (c.update Duel.beginTurn).endTask id (.done (some result))
  | .timer =>
    match c.duel.timing.ticks with
    | .error fault => c.endTask id (.failed fault)
    | .ok total => c.rest id (.tick 1 total) c.duel.timing.tick
  | .tick passed total =>
    let c := c.update fun d => { d with remaining := d.timing.remaining passed }
    if passed < total then c.rest id (.tick (passed + 1) total) c.duel.timing.tick
    else (c.onTimeout tell).endTask id (.done none)

/-- The step of a task that has been taken from the queue. -/
def runTask (t : Task Job) (c : Coordinator M) : Coordinator M :=
  let c := c.update ({ · with running := some t.id })
  let c := if t.cancelled then c.endTask t.id .cancelled else c.runJob tell t.id t.job
  c.update ({ · with running := none })

/-- The step of the first task in the queue; none if nobody is there or the caller's turn has
come. -/
def step? (c : Coordinator M) : Option (Coordinator M) :=
  match c.duel.schedule.next? with
  | some (t, schedule) =>
    match t.job with
    | .caller => none
    | _ => some ((c.update ({ · with schedule })).runTask tell t)
  | none => none

def wake? (c : Coordinator M) : Option (Coordinator M) :=
  c.duel.schedule.wake?.map fun schedule => c.update ({ · with schedule })

end MazeDuel.Turn.Coordinator
