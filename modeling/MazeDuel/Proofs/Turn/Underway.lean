import MazeDuel.Proofs.Turn.Solo
import MazeDuel.Proofs.Turn.Terrain
/-!
Runs on their way: while a run executes its program nothing that players ask and no other task makes
a difference to it, and each of its own steps goes on with what the rules make of the rest of the
program.
-/

namespace MazeDuel

/-- Whether everything that happens in a match keeps something of its arena. -/
structure Arena.Steadfast (P : Arena → Prop) : Prop where
  actions : ∀ p, Arena.KeptBy p P
  begun : Arena.Begun P
  ended : ∀ a p, P a → P (a.endTurn p)

theorem Arena.steadfast_proper : Arena.Steadfast Arena.Proper where
  actions p :=
    { move := fun dir h => proper_tryMove h p dir
      radar := fun h => h.sameBodies (sameBodies_radarFor _ p)
      shot := fun cell h => proper_shootAt h p cell
      pickUp := fun h => h.sameBodies (sameBodies_pickUp _ p) }
  begun _ p h := h.sameBodies (sameBodies_promote _ p)
  ended _ p h :=
    h.sameBodies ((sameBodies_recordTurnEnd _ p).trans (sameBodies_clearActive _ p))

namespace Turn

/-- Whether a request is one of those with which players prepare their runs and start them. -/
def Request.isForRun : Request → Bool
  | setScript _ _ => true
  | beginEditing _ => true
  | endEditing _ => true
  | execute _ => true
  | _ => false

namespace Duel

open Deed

variable {d d' d'' : Duel}

/-! ## Beside a run -/

/-- While a script may run or the match is over, nothing leads to another phase but the end of the
run and the end of the match. -/
theorem fire_busy (hb : d.phase = .executing ∨ d.phase = .over) {e : TurnEvent}
    (he : e = .beginEdit ∨ e = .endEdit ∨ e = .execute) :
    ∃ message, d.fire e = (false, d.note .debug message) := by
  rcases d.fire_cases e with ⟨-, hf⟩ | ⟨phase, m, hn, -⟩
  · exact hf
  · rcases hb with hb | hb <;> rcases he with rfl | rfl | rfl <;> simp [hb, Phase.next?] at hn

theorem setScript_busy (hb : d.phase = .executing ∨ d.phase = .over) (p : Player) (script : Json) :
    ∃ message, d.setScript p script = (.ok false, d.note .debug message) := by
  unfold setScript
  rcases d.accepts_cases p "set_script" with ⟨h, hover, -⟩ | ⟨message, h⟩
  · rw [h]
    exact ⟨_, if_pos (hb.resolve_right hover)⟩
  · rw [h]
    exact ⟨message, rfl⟩

theorem beginEditing_busy (hb : d.phase = .executing ∨ d.phase = .over) (p : Player) :
    ∃ message, d.beginEditing p = (false, d.note .debug message) := by
  unfold beginEditing
  rcases d.accepts_cases p "begin_editing" with ⟨h, -, -⟩ | ⟨message, h⟩
  · rw [h]
    exact fire_busy hb (Or.inl rfl)
  · rw [h]
    exact ⟨message, rfl⟩

theorem endEditing_busy (hb : d.phase = .executing ∨ d.phase = .over) (p : Player) :
    ∃ message, d.endEditing p = (false, d.note .debug message) := by
  unfold endEditing
  rcases d.accepts_cases p "end_editing" with ⟨h, -, -⟩ | ⟨message, h⟩
  · obtain ⟨message, hf⟩ := fire_busy hb (Or.inr (Or.inl rfl))
    rw [h]
    simp only [hf]
    exact ⟨message, rfl⟩
  · rw [h]
    exact ⟨message, rfl⟩

theorem execute_busy (hb : d.phase = .executing ∨ d.phase = .over) (p : Player) :
    ∃ message, d.execute p = (false, d.note .debug message) := by
  unfold execute
  split
  · exact ⟨_, rfl⟩
  · rcases d.accepts_cases p "request_execute" with ⟨h, -, -⟩ | ⟨message, h⟩
    · obtain ⟨message, hf⟩ := fire_busy hb (Or.inr (Or.inr rfl))
      rw [h]
      simp only [hf]
      exact ⟨message, rfl⟩
    · rw [h]
      exact ⟨message, rfl⟩

/-- Nothing differs that a run depends on. -/
structure Apart (d d' : Duel) : Prop where
  standing : d'.standing = d.standing
  scripts : d'.scripts = d.scripts
  continuous : d'.continuous = d.continuous
  timing : d'.timing = d.timing
  timer : d'.timer = d.timer
  unfinished : unfinished d'.deeds = Deed.unfinished d.deeds

theorem Apart.refl (d : Duel) : Apart d d := ⟨rfl, rfl, rfl, rfl, rfl, rfl⟩

theorem Apart.trans (h : Apart d d') (h' : Apart d' d'') : Apart d d'' :=
  ⟨h'.standing.trans h.standing, h'.scripts.trans h.scripts, h'.continuous.trans h.continuous,
    h'.timing.trans h.timing, h'.timer.trans h.timer, h'.unfinished.trans h.unfinished⟩

theorem apart_beside {remaining : Quantity} {execution : Option Nat}
    {last : Option ExecutionResult} {schedule : Schedule Job} {running awaited : Option Nat}
    {outcomes : List (Nat × Outcome)} {journal : List Record} {deeds : List Deed}
    (hd : unfinished deeds = unfinished d.deeds) :
    Apart d { d with
      remaining, execution, lastExecution := last, schedule, running, awaited, outcomes, journal
      deeds } :=
  ⟨rfl, rfl, rfl, rfl, rfl, hd⟩

theorem Apart.phase (h : Apart d d') : d'.phase = d.phase := congrArg Standing.phase h.standing

/-- Nobody waits for another task, and no task has come but the one whose step it was, which rests.
-/
structure Rests (id : Nat) (d d' : Duel) : Prop where
  awaited : d'.awaited = d.awaited
  tasks : ∀ t ∈ d'.schedule.tasks, t ∈ d.schedule.tasks ∨ t.id = id ∧ t.job ≠ .caller
  asleep : ∀ x ∈ d'.schedule.asleep, x ∈ d.schedule.asleep ∨ x.task.id = id

/-- Nothing differs that a run depends on, and no task has got before another. -/
structure Beside (id : Nat) (d d' : Duel) : Prop extends Apart d d' where
  room : d.schedule.Extends d'.schedule
  rests : d.awaited ≠ some id → Rests id d d'

variable {id : Nat}

theorem Beside.refl (id : Nat) (d : Duel) : Beside id d d :=
  ⟨.refl d, .refl _, fun _ => ⟨rfl, fun _ ht => Or.inl ht, fun _ hx => Or.inl hx⟩⟩

theorem Beside.trans (h : Beside id d d') (h' : Beside id d' d'') : Beside id d d'' := by
  refine ⟨h.toApart.trans h'.toApart, h.room.trans h'.room, fun hne => ?_⟩
  obtain ⟨hawaited, htasks, hasleep⟩ := h.rests hne
  obtain ⟨hawaited', htasks', hasleep'⟩ := h'.rests (hawaited ▸ hne)
  refine ⟨hawaited'.trans hawaited, fun t ht => ?_, fun x hx => ?_⟩
  · rcases htasks' t ht with ht | hown
    · exact htasks t ht
    · exact Or.inr hown
  · rcases hasleep' x hx with hx | hown
    · exact hasleep x hx
    · exact Or.inr hown

/-- Nothing differs but what neither runs nor tasks depend on. -/
theorem beside_apart {remaining : Quantity} {last : Option ExecutionResult} {running : Option Nat}
    {outcomes : List (Nat × Outcome)} {journal : List Record} {deeds : List Deed}
    (hd : unfinished deeds = unfinished d.deeds) :
    Beside id d { d with remaining, lastExecution := last, running, outcomes, journal, deeds } :=
  ⟨apart_beside hd, .refl _,
    fun _ => ⟨rfl, fun _ ht => Or.inl ht, fun _ hx => Or.inl hx⟩⟩

theorem beside_endTask (d : Duel) (id : Nat) (outcome : Outcome) :
    Beside id d (d.endTask id outcome) := by
  unfold endTask
  dsimp only
  split
  · rename_i hawaited
    exact ⟨apart_beside rfl, Schedule.extends_spawn _ _, fun hne => absurd hawaited hne⟩
  · exact beside_apart rfl

theorem rests_rest (d : Duel) (id : Nat) {job : Job} (hj : job ≠ .caller) (delay : Float) :
    Rests id d { d with schedule := d.schedule.rest id job delay } := by
  refine ⟨rfl, fun t ht => ?_, fun x hx => ?_⟩
  · rcases (Schedule.mem_tasks_rest _ _ _ _ t).mp ht with rfl | ht
    · exact Or.inr ⟨rfl, hj⟩
    · exact Or.inl ht
  · rcases Schedule.of_mem_asleep_rest hx with hx | hx
    · exact Or.inr (congrArg (·.task.id) hx)
    · exact Or.inl hx

theorem beside_rest (d : Duel) (id : Nat) {job : Job} (hj : job ≠ .caller) (delay : Quantity) :
    Beside id d (d.rest id job delay) := by
  by_cases hf : delay.fitsReal
  · rw [rest_eq hf]
    exact ⟨apart_beside rfl, Schedule.extends_rest _ _ _ _, fun _ => d.rests_rest id hj _⟩
  · rw [rest_long hf]
    exact d.beside_endTask id _

/-- A task that nobody waits for ends without calling anybody back. -/
theorem endTask_of_ne {d : Duel} (h : d.awaited ≠ some id) (outcome : Outcome) :
    d.endTask id outcome = { d with outcomes := (id, outcome) :: d.outcomes } :=
  if_neg h

theorem outcome?_endTask (d : Duel) (id : Nat) (outcome : Outcome) :
    (d.endTask id outcome).outcome? id = some outcome := by
  obtain ⟨schedule, awaited, heq⟩ := endTask_eq d id outcome
  rw [heq]
  simp [outcome?]

/-- A task that has made its last step is gone. -/
theorem gone_endTask (h : Numbered d) {id : Nat} (hr : d.running = some id) (outcome : Outcome) :
    ({ d.endTask id outcome with running := none } : Duel).isPending id = false := by
  have hn : Numbered (d.endTask id outcome) ∧ (d.endTask id outcome).running = some id := by
    unfold endTask
    dsimp only
    split
    · exact ⟨h.cons (ids_spawn .caller rfl rfl) rfl, hr⟩
    · exact ⟨⟨h.nodup, h.known⟩, hr⟩
  obtain ⟨hn, hr⟩ := hn
  have hnone : id ∉ (d.endTask id outcome).schedule.ids := by
    have hnodup := hn.nodup
    rw [ids, hr] at hnodup
    exact (List.nodup_cons.mp hnodup).1
  simp [isPending, Schedule.holds, hnone]

theorem beginTurn_busy (hb : d.phase = .executing ∨ d.phase = .over) : d.beginTurn = d := by
  unfold beginTurn
  exact if_pos (by rcases hb with hb | hb <;> simp [isBusy, hb])

end Duel

namespace Coordinator

open Duel Deed

variable {M : Type} {tell : Notification → Coordinator M → Coordinator M} {c c' : Coordinator M}

/-- While a script may run or the match is over, the requests that prepare and start runs are
refused. -/
theorem handle_busy (tell : Notification → Coordinator M → Coordinator M)
    (hb : c.duel.phase = .executing ∨ c.duel.phase = .over) {r : Request}
    (hr : r.isForRun = true) :
    ∃ message, c.handle tell r = (.flag false, c.update (·.note .debug message)) := by
  cases r with
  | setScript p script =>
    obtain ⟨message, heq⟩ := setScript_busy hb p script
    exact ⟨message, by simp only [handle, onDuel, heq, update]⟩
  | beginEditing p =>
    obtain ⟨message, heq⟩ := beginEditing_busy hb p
    exact ⟨message, by simp only [handle, onDuel, heq, update]⟩
  | endEditing p =>
    obtain ⟨message, heq⟩ := endEditing_busy hb p
    exact ⟨message, by simp only [handle, onDuel, heq, update]⟩
  | execute p =>
    obtain ⟨message, heq⟩ := execute_busy hb p
    exact ⟨message, by simp only [handle, onDuel, heq, update]⟩
  | _ => cases hr

/-- The step of a task that executes no program leaves a run alone. -/
theorem beside_runJob (hb : c.duel.phase = .executing ∨ c.duel.phase = .over) (id : Nat) {job : Job}
    (hj : job.player? = none) : Beside id c.duel (c.runJob tell id job).duel := by
  cases job with
  | caller => exact .refl _ _
  | begin p => cases hj
  | act p rest executed => cases hj
  | pause result =>
    let woken := c.duel.remember (.woke id c.duel.turnNumber c.duel.phase)
    have hwoken : Beside id c.duel woken := beside_apart rfl
    have hsame : woken.beginTurn = woken := beginTurn_busy hb
    show Beside id c.duel (woken.beginTurn.endTask id _)
    rw [hsame]
    exact hwoken.trans (woken.beside_endTask _ _)
  | timer =>
    unfold runJob
    dsimp only
    split
    · exact c.duel.beside_endTask _ _
    · exact c.duel.beside_rest _ (by simp) _
  | tick passed total =>
    let counted : Coordinator M := c.update fun d =>
      { d with remaining := d.timing.remaining passed }
    have hcounted : Beside id c.duel counted.duel := beside_apart rfl
    unfold runJob
    dsimp only
    split
    · exact hcounted.trans (counted.duel.beside_rest _ (by simp) _)
    · obtain ⟨message, heq⟩ := onTimeout_busy tell (c := counted) hb
      show Beside id c.duel ((counted.onTimeout tell).duel.endTask id _)
      rw [heq]
      have hnoted : Beside id c.duel (counted.duel.note .debug message) := beside_apart rfl
      exact hnoted.trans (beside_endTask _ _ _)

end Coordinator

namespace Duel

open Deed

/-! ## Runs on their way -/

/-- What is settled about a run when it is accepted: its task and its player, the mode of play, the
timing and the scripts, and what the rules make of the run. -/
structure Accepted where
  id : Nat
  player : Player
  continuous : Bool
  timing : Timing
  scripts : Duo Json
  result : Except Fault ExecutionResult
  standing : Standing

/-- What comes of the task of a run. -/
def Accepted.outcome (r : Accepted) : Outcome :=
  match r.result with
  | .ok result => .done (some result)
  | .error fault => .failed fault

/-- Why a run can fail: an action does, or the pause after one is too long for any clock. -/
inductive Accepted.Breaks (r : Accepted) : Fault → Prop where
  | action {fault : Fault} : r.result = .error fault → r.Breaks fault
  | pause : ¬ r.timing.stepDelay.fitsReal → r.Breaks .numberTooLarge

/-- A run with some of its program to go. The rules make of the rest what they made of the whole. -/
structure Underway (r : Accepted) (program : List Action) (d : Duel) : Prop extends Still d where
  started : d.started = true
  busy : d.phase = .executing ∨ d.phase = .over
  mine : unfinished d.deeds = [(r.id, r.player)]
  untimed : d.timer = none
  mode : d.phase ≠ .over → d.continuous = r.continuous
  timing : d.timing = r.timing
  scripts : d.scripts = r.scripts
  proper : d.arena.Proper
  there : ∃ job executed, { id := r.id, job } ∈ d.schedule.tasks ∧
    d.program? job = some (r.player, program, executed) ∧
      Standing.conclude r.player (d.standing.run r.player executed program) =
        (r.result, r.standing)

/-- A run that has failed. -/
structure Failed (r : Accepted) (fault : Fault) (d : Duel) : Prop where
  why : r.Breaks fault
  gone : d.isPending r.id = false
  outcome : d.outcome? r.id = some (.failed fault)

/-- How the step leaves a match in which a run fails. An action that fails does not end the match;
another may have, before the pause that cannot be kept. If it is not for a pause, the match stands
as the rules say. -/
inductive Fails (r : Accepted) (d : Duel) : Duel → Prop where
  | broke {e : Duel} {fault : Fault} : r.Breaks fault → e.schedule = d.schedule →
      e.awaited = d.awaited → e.running = d.running → e.scripts = d.scripts →
      e.phase = .executing ∨ e.phase = .over ∧ e.standing = r.standing →
      (r.timing.stepDelay.fitsReal → e.standing = r.standing) →
      Fails r d { e.endTask r.id (.failed fault) with running := none }

/-- How the step leaves a match that ends a run. -/
inductive Ends (r : Accepted) (d : Duel) : Duel → Prop where
  | decided {result : ExecutionResult} (journal : List Record) : r.result = .ok result →
      d.phase = .over → d.standing = r.standing →
      Ends r d { { d with journal, lastExecution := some result }.endTask r.id
        (.done (some result)) with running := none }
  | passed {e : Duel} {result : ExecutionResult} (handed : ∃ deeds arena log journal,
        e = d.handed (some result) deeds arena log journal) : r.result = .ok result →
      d.phase = .executing → d.continuous = false → e.standing = r.standing →
      Ends r d { e.beginTurn.endTask r.id (.done (some result)) with running := none }
  | paused {e : Duel} {result : ExecutionResult} (handed : ∃ deeds arena log journal,
        e = d.handed (some result) deeds arena log journal) : r.result = .ok result →
      d.phase = .executing → d.continuous = true → e.standing = r.standing →
      Ends r d { (e.remember (.paused r.id e.turnNumber)).rest r.id (.pause result)
        e.timing.turnDelay with running := none }

variable {r : Accepted} {a : Action} {program later : List Action} {executed : List String}
  {d d' : Duel}

theorem Accepted.outcome_ok {result : ExecutionResult} (h : r.result = .ok result) :
    r.outcome = .done (some result) := by
  unfold outcome
  rw [h]

theorem Accepted.outcome_error {fault : Fault} (h : r.result = .error fault) :
    r.outcome = .failed fault := by
  unfold outcome
  rw [h]

/-- A run whose pauses can be kept fails only with an action. -/
theorem Accepted.Breaks.result {fault : Fault} (h : r.Breaks fault)
    (hf : r.timing.stepDelay.fitsReal) : r.result = .error fault := by
  cases h with
  | action h => exact h
  | pause hlong => exact absurd hf hlong

/-- What stands in the journal makes no difference to the end of a run. -/
theorem Ends.of_journal {journal : List Record} (h : Ends r { d with journal } d') :
    Ends r d d' := by
  cases h with
  | decided journal hok hover hstanding => exact .decided journal hok hover hstanding
  | passed handed hok hbusy hmanual hstanding =>
    obtain ⟨deeds, arena, log, journal, rfl⟩ := handed
    exact .passed ⟨deeds, arena, log, journal, rfl⟩ hok hbusy hmanual hstanding
  | paused handed hok hbusy hon hstanding =>
    obtain ⟨deeds, arena, log, journal, rfl⟩ := handed
    exact .paused ⟨deeds, arena, log, journal, rfl⟩ hok hbusy hon hstanding

theorem Ends.result (h : Ends r d d') : ∃ result, r.result = .ok result := by
  cases h <;> exact ⟨_, ‹_›⟩

theorem Fails.breaks (h : Fails r d d') : ∃ fault, r.Breaks fault := by
  cases h
  exact ⟨_, ‹_›⟩

theorem Fails.failed (h : Fails r d d') (hn : Numbered d) (hr : d.running = some r.id) :
    ∃ fault, Failed r fault d' := by
  cases h with
  | @broke e fault hwhy hschedule hawaited hrunning hscripts hphase hstanding =>
    have hids : e.ids = d.ids := by
      unfold ids
      rw [hschedule, hrunning]
    have he : Numbered e := by
      refine ⟨hids ▸ hn.nodup, ?_⟩
      rw [hids, hschedule]
      exact hn.known
    exact ⟨fault, hwhy, gone_endTask he (hrunning.trans hr) _, outcome?_endTask _ _ _⟩

theorem program?_congr (h : d'.scripts = d.scripts) (job : Job) :
    d'.program? job = d.program? job := by
  cases job <;> simp [program?, h]

theorem Underway.apart (h : Underway r program d) (ha : Apart d d') (hs : Still d')
    (ht : ∀ job, { id := r.id, job } ∈ d.schedule.tasks →
      { id := r.id, job } ∈ d'.schedule.tasks) : Underway r program d' where
  toStill := hs
  started := (congrArg Standing.started ha.standing).trans h.started
  busy := ha.phase ▸ h.busy
  mine := ha.unfinished.trans h.mine
  untimed := ha.timer.trans h.untimed
  mode hp := ha.continuous.trans (h.mode (ha.phase ▸ hp))
  timing := ha.timing.trans h.timing
  scripts := ha.scripts.trans h.scripts
  proper := by
    have harena : d'.arena = d.arena := congrArg Standing.arena ha.standing
    exact harena ▸ h.proper
  there := by
    obtain ⟨job, executed, hmem, hp, href⟩ := h.there
    refine ⟨job, executed, ht job hmem, (program?_congr ha.scripts job).trans hp, ?_⟩
    rw [ha.standing]
    exact href

theorem Underway.current (h : Underway r program d) (hp : d.phase ≠ .over) :
    r.player = d.current := by
  have hmem : (r.id, r.player) ∈ unfinished d.deeds := by
    rw [h.mine]
    exact List.mem_singleton.mpr rfl
  exact (h.executing_of_mem hmem hp).2.1

/-- After an action a run has the rest of its program to go. -/
theorem Underway.acted {e : Duel} (h : Underway r program d) {deeds : List Deed}
    {schedule : Schedule Job} {running : Option Nat} {journal : List Record}
    (ha : Acts { d with schedule, running, journal, deeds } e) (hp : d.phase ≠ .over)
    (hd : unfinished deeds = unfinished d.deeds) (hproper : e.arena.Proper)
    {schedule' : Schedule Job} (hs : Still { e with schedule := schedule', running := none })
    (ht : { id := r.id, job := .act r.player later executed } ∈ schedule'.tasks)
    (href : Standing.conclude r.player (e.standing.run r.player executed later) =
      (r.result, r.standing)) :
    Underway r later { e with schedule := schedule', running := none } := by
  obtain ⟨-, htimer, -, -, -, hdeeds, hscripts, htiming, hstarted⟩ := ha.tasks
  have hcases := ha.cases
  refine ⟨hs, hstarted.trans h.started, ?_, ?_, htimer.trans h.untimed, fun hgoes => ?_,
    htiming.trans h.timing, hscripts.trans h.scripts, hproper, _, executed, ht, rfl, href⟩
  · exact hcases.imp (fun hc => hc.1.trans (h.busy.resolve_right hp)) fun hc => hc.1
  · exact ((congrArg unfinished hdeeds).trans hd).trans h.mine
  · rcases hcases with ⟨-, hcontinuous⟩ | ⟨hover, -⟩
    · exact hcontinuous.trans (h.mode hp)
    · exact absurd hover hgoes

/-- A run that rests after an action goes on with the rest of its program. -/
theorem Underway.rested {e : Duel} (h : Underway r program d) {t : Task Job}
    {ready : List (Task Job)} {journal : List Record} {deeds : List Deed}
    (ha : Acts { d.taken t ready with journal, deeds } e) (hp : d.phase ≠ .over)
    (hd : unfinished deeds = unfinished d.deeds) (hproper : e.arena.Proper) {delay : Quantity}
    (hf : delay.fitsReal)
    (hs : Still { e.rest r.id (.act r.player later executed) delay with running := none })
    (href : Standing.conclude r.player (e.standing.run r.player executed later) =
      (r.result, r.standing)) :
    let d' := { e.rest r.id (.act r.player later executed) delay with running := none }
    Underway r later d' ∧ Rests r.id (d.taken t ready) d' := by
  obtain ⟨hschedule, -, -, hawaited, -⟩ := ha.tasks
  rw [rest_eq hf] at hs ⊢
  have hown : Job.act r.player later executed ≠ .caller := nofun
  have hrests := e.rests_rest r.id hown delay.toFloat
  refine ⟨h.acted ha hp hd hproper hs ((Schedule.mem_tasks_rest _ _ _ _ _).mpr (Or.inl rfl)) href,
    hawaited, fun u hu => ?_, fun x hx => ?_⟩
  · exact hschedule ▸ hrests.tasks u hu
  · exact hschedule ▸ hrests.asleep x hx

/-- A run fails with an action that does. -/
theorem Underway.broken {e : Duel} (h : Underway r (a :: later) d) {t : Task Job}
    {ready : List (Task Job)} {journal : List Record} {deeds : List Deed}
    (ha : Acts { d.taken t ready with journal, deeds } e) (hp : d.phase ≠ .over) {fault : Fault}
    (hact : d.standing.act r.player a.command = (.error fault, e.standing))
    (href : Standing.conclude r.player (d.standing.run r.player executed (a :: later)) =
      (r.result, r.standing)) :
    Fails r (d.taken t ready) { e.endTask r.id (.failed fault) with running := none } := by
  obtain ⟨hschedule, -, hrunning, hawaited, -, -, hscripts, -⟩ := ha.tasks
  obtain ⟨arena, hkept⟩ := Standing.act_error hact
  have hphase : e.phase = .executing :=
    (congrArg Standing.phase hkept).trans (h.busy.resolve_right hp)
  rw [Standing.run_failing hp hact] at href
  have hstanding : e.standing = r.standing := congrArg Prod.snd href
  exact .broke (.action (congrArg Prod.fst href).symm) hschedule hawaited hrunning hscripts
    (Or.inl hphase) fun _ => hstanding

/-- A run fails with a pause that no clock can keep, also if its action has ended the match. -/
theorem Underway.strained {e : Duel} (h : Underway r program d) {t : Task Job}
    {ready : List (Task Job)} {journal : List Record} {deeds : List Deed}
    (ha : Acts { d.taken t ready with journal, deeds } e) (hp : d.phase ≠ .over)
    (hf : ¬ r.timing.stepDelay.fitsReal)
    (href : Standing.conclude r.player (e.standing.run r.player executed later) =
      (r.result, r.standing)) :
    Fails r (d.taken t ready) { e.endTask r.id (.failed .numberTooLarge) with running := none } := by
  obtain ⟨hschedule, -, hrunning, hawaited, -, -, hscripts, -⟩ := ha.tasks
  refine .broke (.pause hf) hschedule hawaited hrunning hscripts ?_ fun hfits => absurd hfits hf
  rcases ha.cases with ⟨hphase, -⟩ | ⟨hover, -⟩
  · exact Or.inl (hphase.trans (h.busy.resolve_right hp))
  · rw [Standing.run_over (s := e.standing) hover,
      Standing.conclude_over (s := e.standing) hover] at href
    exact Or.inr ⟨hover, congrArg Prod.snd href⟩

theorem Underway.pending (h : Underway r program d) : d.isPending r.id = true := by
  obtain ⟨job, -, hmem, -⟩ := h.there
  have hid : r.id ∈ d.schedule.ids := by
    rw [Schedule.ids_eq]
    exact List.mem_map_of_mem hmem
  simp [isPending, Schedule.holds, hid]

end Duel

namespace Coordinator

open Duel Deed

variable {M : Type} {tell : Notification → Coordinator M → Coordinator M} {c c' : Coordinator M}
  {r : Accepted} {program : List Action}

theorem underway_request (h : Underway r program c.duel) {l : Listener M} {q : Request}
    (hq : q.isForRun = true) : Underway r program (c.request l q).2.duel := by
  obtain ⟨message, heq⟩ := handle_busy l.tell h.busy hq
  have hnoted : (c.request l q).2.duel = c.duel.note .debug message :=
    congrArg (fun x => x.2.duel) heq
  rw [hnoted]
  exact h.apart (apart_beside rfl) (h.toStill.moves (moves_note _ _ _)) fun _ ht => ht

theorem underway_wake? (h : Underway r program c.duel) (hc : c.wake? = some c') :
    Underway r program c'.duel := by
  have hs := still_wake? h.toStill hc
  unfold Coordinator.wake? at hc
  obtain ⟨schedule, hw, rfl⟩ := Option.map_eq_some_iff.mp hc
  exact h.apart (apart_beside rfl) hs fun job ht => (Schedule.tasks_wake? hw _).mpr ht

/-- The step of another task leaves a run alone. -/
theorem underway_step_other (ht : Tells tell) (h : Underway r program c.duel) {t : Task Job}
    {ready : List (Task Job)} (hr : c.duel.schedule.ready = t :: ready) (hid : t.id ≠ r.id)
    (hc : c.step? tell = some c') :
    Underway r program c'.duel ∧ Beside t.id (c.duel.taken t ready) c'.duel := by
  have hs := still_step? ht h.toStill hc
  obtain ⟨t', ready', hr', -, hc'⟩ := step?_taken tell hc
  cases hr.symm.trans hr'
  let taken : Coordinator M := ⟨c.duel.taken t ready, c.memory⟩
  have hnone : t.job.player? = none := by
    by_contra hsome
    obtain ⟨p, hp⟩ := Option.ne_none_iff_exists'.mp hsome
    have hmem := h.runs t (tasks_of_ready hr) p hp
    rw [h.mine, List.mem_singleton] at hmem
    exact hid (congrArg Prod.fst hmem)
  have hbeside : Beside t.id taken.duel c'.duel := by
    rw [hc']
    split
    · exact (taken.duel.beside_endTask t.id .cancelled).trans (beside_apart rfl)
    · exact (beside_runJob (c := taken) h.busy t.id hnone).trans (beside_apart rfl)
  refine ⟨h.apart ?_ hs fun job hmem => hbeside.room.mem_tasks ?_, hbeside⟩
  · have htaken : Apart c.duel taken.duel := apart_beside rfl
    exact htaken.trans hbeside.toApart
  · have hne : ({ id := r.id, job } : Task Job) ≠ t := fun heq => hid (congrArg Task.id heq).symm
    simp only [Schedule.tasks, hr, List.cons_append, List.mem_cons] at hmem
    exact hmem.resolve_left hne

theorem Passive.tells (ht : Passive tell) : Tells tell := fun n c => by
  rw [ht]
  exact .refl _

theorem Passive.keeping (ht : Passive tell) (P : Arena → Prop) : Keeping P tell := fun n c h => by
  rw [ht]
  exact h

/-- The next action of a run does what the rules say, and then the run rests or has failed. -/
theorem act_action (ht : Passive tell) (ho : c.duel.phase ≠ .over) (hn : c.duel.timer = none)
    (ha : c.duel.arena.Proper) (id : Nat) {p : Player} (executed : List String) {a : Action}
    (later : List Action) (hplayer : a.player = p) :
    ∃ result d, Acts (c.duel.remember (.began id a c.duel.phase c.duel.current)) d ∧
      c.duel.standing.act p a.command = (result, d.standing) ∧ d.arena.Proper ∧
      (c.act tell id p executed (a :: later)).duel = match result with
        | .error fault => d.endTask id (.failed fault)
        | .ok () => d.rest id (.act p later (executed ++ [a.label])) c.duel.timing.stepDelay := by
  let began : Coordinator M := c.update fun d => d.remember (.began id a d.phase d.current)
  obtain ⟨hacts, hstanding⟩ := acts_carryOut (c := began) ht ho hn ha hplayer
  obtain ⟨-, -, -, -, -, -, -, htiming, -⟩ := hacts.tasks
  refine ⟨_, _, hacts, hstanding.symm, ?_, ?_⟩
  · exact (ht.keeping _).carryOut (c := began) (Arena.steadfast_proper.actions p) hplayer ha
  · rw [act_cons ho]
    change (match (began.carryOut tell p a).1 with
      | .error _ => _ | .ok () => _ : Coordinator M).duel = _
    split
    · rfl
    · show Duel.rest _ id _ (began.carryOut tell p a).2.duel.timing.stepDelay = _
      rw [htiming]
      rfl

/-- A run that finds the match over comes to its end. -/
theorem ends_act_over {executed : List String} (ho : c.duel.phase = .over)
    (href : Standing.conclude r.player (c.duel.standing.run r.player executed program) =
      (r.result, r.standing)) :
    Ends r c.duel { (c.act tell r.id r.player executed program).duel with running := none } := by
  obtain ⟨journal, hact⟩ := act_over tell ho r.id r.player executed program
  rw [Standing.run_over (s := c.duel.standing) ho, Standing.conclude_over ho] at href
  have hresult : r.result = .ok ⟨r.player, executed, program.length⟩ :=
    (congrArg Prod.fst href).symm
  rw [hact]
  exact .decided journal hresult ho (congrArg Prod.snd href)

/-- A run that has no actions left ends the turn. -/
theorem ends_act_nil (ht : Passive tell) {executed : List String}
    (hbusy : c.duel.phase = .executing) (hcurrent : r.player = c.duel.current)
    (href : Standing.conclude r.player (c.duel.standing.run r.player executed []) =
      (r.result, r.standing)) :
    Ends r c.duel { (c.act tell r.id r.player executed []).duel with running := none } := by
  have hgoes : c.duel.standing.phase ≠ .over := by
    rw [show c.duel.standing.phase = .executing from hbusy]
    decide
  rw [Standing.run_nil, Standing.conclude_going hgoes] at href
  let result : ExecutionResult := ⟨r.player, executed, 0⟩
  have hresult : r.result = .ok result := (congrArg Prod.fst href).symm
  have hended : c.duel.standing.endTurn r.player = r.standing := congrArg Prod.snd href
  obtain ⟨arena, log, journal, hstanding, hfinish⟩ := finishRun_going ht hbusy r.id result hcurrent
  rw [act, hfinish]
  by_cases hon : c.duel.continuous = true
  · rw [if_pos (by exact hon)]
    exact .paused ⟨_, _, _, _, rfl⟩ hresult hbusy hon (hstanding.trans hended)
  · rw [if_neg (by exact hon)]
    exact .passed ⟨_, _, _, _, rfl⟩ hresult hbusy (Bool.eq_false_iff.mpr hon)
      (hstanding.trans hended)

/-- A run that makes its step goes on with what is left of its program, unless an action fails or
the pause after it is too long for any clock, or comes to its end. -/
theorem underway_step_own (ht : Passive tell) (h : Underway r program c.duel) {t : Task Job}
    {ready : List (Task Job)} (hr : c.duel.schedule.ready = t :: ready) (hid : t.id = r.id)
    (hc : c.step? tell = some c') :
    (∃ a later, program = a :: later ∧
      (Underway r later c'.duel ∧ Rests r.id (c.duel.taken t ready) c'.duel ∨
        Fails r (c.duel.taken t ready) c'.duel)) ∨
      Ends r (c.duel.taken t ready) c'.duel := by
  have hs := still_step? ht.tells h.toStill hc
  obtain ⟨job, executed, hmem, hp, href⟩ := h.there
  obtain rfl : t = { id := r.id, job } :=
    Schedule.eq_of_id_eq h.toNumbered.asleep (tasks_of_ready hr) hmem hid
  obtain ⟨t', ready', hr', -, hc'⟩ := step?_taken tell hc
  cases hr.symm.trans hr'
  let taken : Coordinator M := ⟨c.duel.taken { id := r.id, job } ready, c.memory⟩
  obtain ⟨journal, heq⟩ := runJob_program tell r.id (c := taken) hp
  let x : Coordinator M := taken.update ({ · with journal })
  have hwhole : c'.duel =
      { (x.act tell r.id r.player executed program).duel with running := none } := by
    rw [hc']
    exact congrArg (fun y : Coordinator M => { y.duel with running := none }) heq
  rw [hwhole] at hs ⊢
  by_cases ho : c.duel.phase = .over
  · exact Or.inr (ends_act_over (c := x) ho href).of_journal
  · have hbusy : c.duel.phase = .executing := h.busy.resolve_right ho
    cases program with
    | nil => exact Or.inr (ends_act_nil (c := x) ht hbusy (h.current ho) href).of_journal
    | cons a later =>
      left
      refine ⟨a, later, rfl, ?_⟩
      have hown := (program?_own hp).2 (h.own _ hmem)
      obtain ⟨result, e, hacts, hstanding, hproper, hact⟩ := act_action (c := x) ht ho h.untimed
        h.proper r.id executed later (hown a (List.mem_cons_self ..))
      obtain ⟨hschedule, -, hrunning, hawaited, -, -, hscripts, -⟩ := hacts.tasks
      have htiming : x.duel.timing.stepDelay = r.timing.stepDelay :=
        congrArg Timing.stepDelay h.timing
      rw [hact, htiming] at hs ⊢
      cases result with
      | error fault => exact Or.inr (h.broken hacts ho hstanding href)
      | ok =>
        rw [Standing.run_cons (s := c.duel.standing) ho hstanding] at href
        by_cases hf : r.timing.stepDelay.fitsReal
        · exact Or.inl (h.rested hacts ho rfl hproper hf hs href)
        · rw [rest_long hf]
          exact Or.inr (h.strained hacts ho hf href)

end Coordinator

end Turn

end MazeDuel
