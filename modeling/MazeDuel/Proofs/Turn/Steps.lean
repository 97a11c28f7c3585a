import MazeDuel.Turn.Clock
import MazeDuel.Proofs.Turn.Courses
import MazeDuel.Proofs.Turn.Requests
/-!
What a step of a task makes of a match: for each kind of task, the changes of its step in order,
with the moves that the listener makes in between.
-/

namespace MazeDuel.Turn

/-- Whether a task with this job may rest: it goes on with a run, a pause or a count then. -/
def Job.rests : Job → Bool
  | act _ _ _ => true
  | pause _ => true
  | tick _ _ => true
  | _ => false

/-- How long a task with this job rests before it does it. -/
def Timing.delay (t : Timing) : Job → Quantity
  | .act _ _ _ => t.stepDelay
  | .pause _ => t.turnDelay
  | .tick _ _ => t.tick
  | _ => .whole 0

namespace Duel

/-- Nothing differs that the turns depend on. -/
def Quiet (d d' : Duel) : Prop :=
  ∃ arena remaining last journal, d' = { d with arena, remaining, lastExecution := last, journal }

theorem Quiet.refl (d : Duel) : Quiet d d :=
  ⟨d.arena, d.remaining, d.lastExecution, d.journal, rfl⟩

theorem Quiet.phase {d d' : Duel} (h : Quiet d d') : d'.phase = d.phase := by
  obtain ⟨_, _, _, _, rfl⟩ := h
  rfl

theorem Quiet.current {d d' : Duel} (h : Quiet d d') : d'.current = d.current := by
  obtain ⟨_, _, _, _, rfl⟩ := h
  rfl

theorem Quiet.moves {d d' : Duel} (h : Quiet d d') : Moves d d' := by
  obtain ⟨arena, remaining, last, journal, rfl⟩ := h
  exact (Move.quiet d arena remaining last journal).moves

theorem Quiet.deeds {d d' : Duel} (h : Quiet d d') : d'.deeds = d.deeds := by
  obtain ⟨_, _, _, _, rfl⟩ := h
  rfl

theorem Quiet.trans {d d' d'' : Duel} (h : Quiet d d') (h' : Quiet d' d'') : Quiet d d'' := by
  obtain ⟨_, _, _, _, rfl⟩ := h
  obtain ⟨arena, remaining, last, journal, rfl⟩ := h'
  exact ⟨arena, remaining, last, journal, rfl⟩

theorem Quiet.note {d d' : Duel} (h : Quiet d d') (level : Level) (message : String) :
    Quiet d (d'.note level message) :=
  h.trans ⟨d'.arena, d'.remaining, d'.lastExecution, _, rfl⟩

theorem Quiet.record {d d' : Duel} (h : Quiet d d') (r : Record) : Quiet d (d'.record r) :=
  h.trans ⟨d'.arena, d'.remaining, d'.lastExecution, _, rfl⟩

theorem Quiet.setArena {d d' : Duel} (h : Quiet d d') (x : Logged Arena) :
    Quiet d (d'.setArena x) :=
  h.trans ⟨x.value, d'.remaining, d'.lastExecution, _, rfl⟩

theorem Quiet.setPhase {d d' : Duel} (h : Quiet d d') (phase : Phase) :
    Quiet { d with phase } { d' with phase } := by
  obtain ⟨arena, remaining, last, journal, rfl⟩ := h
  exact ⟨arena, remaining, last, journal, rfl⟩

/-- What a run still has to do: its player, the actions to come and the labels of those before. -/
def program? (d : Duel) : Job → Option (Player × List Action × List String)
  | .begin p => ((Script.parseGiven p (d.scripts.get p)).value.toOption).map fun actions =>
      (p, actions, [])
  | .act p rest executed => some (p, rest, executed)
  | _ => none

/-- What a task that has not been called off does in its step. The constructors are the ways through
the step; moves stand where listeners hear of something. -/
inductive Work (id : Nat) : Job → Duel → Duel → Prop where
  | unread {p : Player} {d d' : Duel} (fault : Fault) :
      d.program? (.begin p) = none → Quiet d d' →
      Work id (.begin p) d (d'.endTask id (.failed fault))
  | acted {job : Job} {d d' d'' : Duel} {p : Player} {a : Action} {later : List Action}
      {executed : List String} :
      d.program? job = some (p, a :: later, executed) → d.phase ≠ .over → Quiet d d' →
      Moves (d'.remember (.began id a d.phase d.current)) d'' →
      Work id job d (d''.rest id (.act p later (executed ++ [a.label])) d''.timing.stepDelay)
  | broke {job : Job} {d d' d'' : Duel} {p : Player} {a : Action} {later : List Action}
      {executed : List String} {fault : Fault} :
      d.program? job = some (p, a :: later, executed) → d.phase ≠ .over →
      (d.arena.doing a).1 = .error fault → Quiet d d' →
      Moves (d'.remember (.began id a d.phase d.current)) d'' →
      Work id job d (d''.endTask id (.failed fault))
  | stopped {job : Job} {d d' : Duel} {x : Player × List Action × List String}
      (result : ExecutionResult) :
      d.program? job = some x → d.phase = .over → Quiet d d' →
      Work id job d (d'.endTask id (.done (some result)))
  | closed {job : Job} {d d' d'' : Duel} {p : Player} {executed : List String}
      (result : ExecutionResult) :
      d.program? job = some (p, [], executed) → d.phase ≠ .over → Quiet d d' →
      Moves (d'.closeRun id).passTurn d'' → d''.continuous = false →
      Work id job d (d''.beginTurn.endTask id (.done (some result)))
  | paused {job : Job} {d d' d'' : Duel} {p : Player} {executed : List String}
      (result : ExecutionResult) :
      d.program? job = some (p, [], executed) → d.phase ≠ .over → Quiet d d' →
      Moves (d'.closeRun id).passTurn d'' → d''.continuous = true →
      Work id job d ((d''.remember (.paused id d''.turnNumber)).rest id (.pause result)
        d''.timing.turnDelay)
  | woke (d : Duel) (result : ExecutionResult) :
      Work id (.pause result) d
        ((d.remember (.woke id d.turnNumber d.phase)).beginTurn.endTask id (.done (some result)))
  | uncounted {d : Duel} {fault : Fault} : d.timing.ticks = .error fault →
      Work id .timer d (d.endTask id (.failed fault))
  | counted {d : Duel} {total : Nat} : d.timing.ticks = .ok total →
      Work id .timer d (d.rest id (.tick 1 total) d.timing.tick)
  | ticked {d d' : Duel} {passed total : Nat} : passed < total → Quiet d d' →
      Work id (.tick passed total) d (d'.rest id (.tick (passed + 1) total) d'.timing.tick)
  | late {d d' : Duel} {passed total : Nat} : ¬ passed < total →
      d.phase = .executing ∨ d.phase = .over → Quiet d d' →
      Work id (.tick passed total) d (d'.endTask id (.done none))
  | expired {d d' d'' : Duel} {passed total : Nat} : ¬ passed < total →
      d.phase = .idle ∨ d.phase = .editing → Quiet { d with phase := .idle } d' →
      Moves d'.passTurn d'' →
      Work id (.tick passed total) d (d''.beginTurn.endTask id (.done none))

/-- The match when a task has been taken from the queue. -/
def taken (d : Duel) (t : Task Job) (ready : List (Task Job)) : Duel :=
  { d with schedule := { d.schedule with ready }, running := some t.id }

/-- What the step of the first task in the queue makes of a match. -/
inductive Stepped (d : Duel) : Duel → Prop where
  | dropped {t : Task Job} {ready : List (Task Job)} :
      d.schedule.ready = t :: ready → t.cancelled = true →
      Stepped d { (d.taken t ready).endTask t.id .cancelled with running := none }
  | worked {t : Task Job} {ready : List (Task Job)} {d' : Duel} :
      d.schedule.ready = t :: ready → t.cancelled = false → Work t.id t.job (d.taken t ready) d' →
      Stepped d { d' with running := none }

/-- A turn begins with its timer, unless a script may run or the match is over. -/
theorem beginTurn_cases (d : Duel) : d.isBusy = true ∧ d.beginTurn = d ∨
    d.isBusy = false ∧ Moves d.startTimer d.beginTurn := by
  by_cases hb : d.isBusy = true
  · exact Or.inl ⟨hb, if_pos hb⟩
  · have heq : d.beginTurn = d.startTimer.autoExecute := if_neg hb
    exact Or.inr ⟨Bool.eq_false_iff.mpr hb, heq ▸ moves_autoExecute _⟩

theorem isBusy_eq_false (d : Duel) : d.isBusy = false ↔ d.phase = .idle ∨ d.phase = .editing := by
  unfold isBusy
  cases d.phase <;> simp

theorem endTask_eq (d : Duel) (id : Nat) (outcome : Outcome) :
    ∃ schedule awaited, d.endTask id outcome =
      { d with schedule, awaited, outcomes := (id, outcome) :: d.outcomes } := by
  unfold endTask
  dsimp only
  split
  · exact ⟨_, _, rfl⟩
  · exact ⟨d.schedule, d.awaited, rfl⟩

theorem rest_eq {d : Duel} {delay : Quantity} (h : delay.fitsReal) (id : Nat) (job : Job) :
    d.rest id job delay = { d with schedule := d.schedule.rest id job delay.toFloat } :=
  if_pos h

theorem rest_long {d : Duel} {delay : Quantity} (h : ¬ delay.fitsReal) (id : Nat) (job : Job) :
    d.rest id job delay = d.endTask id (.failed .numberTooLarge) :=
  if_neg h

/-- Whether a task can rest or not, nothing but tasks is concerned. -/
theorem rest_beside (d : Duel) (id : Nat) (job : Job) (delay : Quantity) :
    ∃ schedule awaited outcomes, d.rest id job delay = { d with schedule, awaited, outcomes } := by
  by_cases hf : delay.fitsReal
  · exact ⟨_, _, _, rest_eq hf id job⟩
  · obtain ⟨schedule, awaited, heq⟩ := d.endTask_eq id (.failed .numberTooLarge)
    exact ⟨_, _, _, (rest_long hf id job).trans heq⟩

/-- What moves keep and each change of a step keeps, a step keeps: a task ends or rests, deeds are
remembered, and before the end of a match the turn is closed, passed on and timed. -/
theorem Work.keeps {P : Duel → Prop} {id : Nat} {job : Job} {d d' : Duel} (h : Work id job d d')
    (hmoves : ∀ {d d'}, Moves d d' → P d → P d')
    (hend : ∀ {d} id outcome, P d → P (d.endTask id outcome))
    (hrest : ∀ {d} id job, job.rests → P d →
      P { d with schedule := d.schedule.rest id job (d.timing.delay job).toFloat })
    (hremember : ∀ {d x}, (∀ phase, x ≠ .opened phase) → P d → P (d.remember x))
    (hidle : ∀ {d}, d.phase ≠ .over → P d → P { d with phase := .idle })
    (hpass : ∀ {d}, d.phase ≠ .over → P d → P d.passTurn)
    (htimer : ∀ {d}, d.phase = .idle ∨ d.phase = .editing → P d → P d.startTimer) :
    P d → P d' := by
  intro hp
  have hrest' {e : Duel} (id : Nat) {job : Job} (hj : job.rests) (he : P e) :
      P (e.rest id job (e.timing.delay job)) := by
    unfold rest
    split
    · exact hrest id job hj he
    · exact hend _ _ he
  have hbegin {e : Duel} (he : P e) : P e.beginTurn := by
    rcases e.beginTurn_cases with ⟨-, heq⟩ | ⟨hb, hm⟩
    · exact heq.symm ▸ he
    · exact hmoves hm (htimer ((isBusy_eq_false e).mp hb) he)
  have hclose {e : Duel} (id : Nat) (ho : e.phase ≠ .over) (he : P e) :
      P (e.closeRun id).passTurn := by
    unfold closeRun
    rcases e.fire_cases .finish with ⟨-, m, hf⟩ | ⟨phase, m, hn, hf⟩
    · rw [hf]
      exact hpass ho (hremember nofun (hmoves (moves_note e .debug m) he))
    · obtain ⟨-, rfl⟩ := Phase.next?_finish hn
      rw [hf]
      refine hpass (by simp [remember]) (hremember nofun ?_)
      exact hidle ho (hmoves (moves_note e .debug m) he)
  cases h with
  | unread fault _ hq => exact hend _ _ (hmoves hq.moves hp)
  | acted _ _ hq hm =>
    exact hrest' _ rfl (hmoves hm (hremember nofun (hmoves hq.moves hp)))
  | broke _ _ _ hq hm => exact hend _ _ (hmoves hm (hremember nofun (hmoves hq.moves hp)))
  | stopped result _ _ hq => exact hend _ _ (hmoves hq.moves hp)
  | closed result _ ho hq hm _ =>
    exact hend _ _ (hbegin (hmoves hm (hclose _ (hq.phase ▸ ho) (hmoves hq.moves hp))))
  | paused result _ ho hq hm _ =>
    refine hrest' _ rfl (hremember nofun (hmoves hm ?_))
    exact hclose _ (hq.phase ▸ ho) (hmoves hq.moves hp)
  | woke _ result => exact hend _ _ (hbegin (hremember nofun hp))
  | uncounted _ => exact hend _ _ hp
  | counted _ => exact hrest' _ rfl hp
  | ticked _ hq => exact hrest' _ rfl (hmoves hq.moves hp)
  | late _ _ hq => exact hend _ _ (hmoves hq.moves hp)
  | @expired _ e d'' _ _ _ hi hq hm =>
    have ho : d.phase ≠ .over := by rcases hi with hi | hi <;> rw [hi] <;> decide
    have hphase : e.phase = .idle := hq.phase
    have he : e.phase ≠ .over := by rw [hphase]; decide
    exact hend _ _ (hbegin (hmoves hm (hpass he (hmoves hq.moves (hidle ho hp)))))

end Duel

namespace Coordinator

open Duel

variable {M : Type} {tell : Notification → Coordinator M → Coordinator M}

theorem moves_flipTurn (ht : Tells tell) (c : Coordinator M) :
    Moves c.duel.passTurn (c.flipTurn tell).duel := by
  unfold flipTurn
  refine ht.moves (by simp [Notification.kind]) ?_
  exact (moves_setArena c.duel.passTurn _).trans (moves_note _ _ _)

theorem moves_onMoved (ht : Tells tell) {d : Duel} {c : Coordinator M} (p : Player) (before : Fix)
    (h : Moves d c.duel) : Moves d (c.onMoved tell p before).duel := by
  unfold onMoved
  have hmoved : Moves d (tell (.positionMoved p before) c).duel :=
    ht.moves (by simp [Notification.kind]) h
  dsimp only
  split
  · exact hmoved
  · have hpicked : Moves d
        ((tell (.positionMoved p before) c).onDuel (·.onArena (·.pickUp p))).2.duel :=
      hmoved.trans (moves_onArena _ (·.pickUp p))
    split
    · split
      · refine moves_endMatch ht _ (by decide) (ht.moves ?_ hpicked)
        simp [Notification.kind]
      · refine ht.moves ?_ hpicked
        simp [Notification.kind]
    · split
      · exact moves_endMatch ht _ (by decide) hpicked
      · exact hpicked

theorem moves_invoke (ht : Tells tell) {d : Duel} {c : Coordinator M} (a : Action)
    (h : Moves d c.duel) : Moves d (Execution.invoke (surroundings tell) c a).2.duel := by
  unfold Execution.invoke
  cases a.command with
  | move dir => exact h.trans (moves_onArena c.duel (·.tryMove a.player dir))
  | wait => exact h
  | shoot modifiers =>
    refine moves_shootAt ht _ _ ?_
    exact h.trans (moves_onArena c.duel (·.radarFor a.player))

theorem moves_performed (ht : Tells tell) {d : Duel} {c : Coordinator M} (p : Player) (a : Action)
    (h : Moves d c.duel) : Moves d (Execution.perform (surroundings tell) p c a).2.duel := by
  let before := Execution.beforeRecord p a (c.duel.arena.combatant p).fix
  have hinvoked := moves_invoke (c := c.update (·.record before)) ht a
    (h.trans (moves_record c.duel before))
  rcases Execution.perform_cases (surroundings tell) p c a with ⟨fault, -, heq⟩ | ⟨-, heq⟩
  · rw [heq]
    exact hinvoked
  · rw [heq]
    exact hinvoked.trans (moves_record _ _)

/-- Whether an action fails is up to the arena alone. -/
theorem fault_invoke (tell : Notification → Coordinator M → Coordinator M) (c : Coordinator M)
    (a : Action) : (Execution.invoke (surroundings tell) c a).1 = (c.duel.arena.doing a).1 := by
  unfold Execution.invoke Arena.doing
  cases a.command with
  | move dir => rfl
  | wait => rfl
  | shoot modifiers =>
    let found := c.onDuel (·.onArena (·.radarFor a.player))
    let cell := Execution.target found.1 modifiers
    show (found.2.shootAt tell a.player cell).1.map _ =
      ((found.2.onDuel (·.onArena (·.shootAt a.player cell))).1).map _
    rcases shootAt_cases tell a.player cell found.2 with ⟨fault, hfault, heq⟩ | ⟨result, hok, heq⟩
    · rw [heq, hfault]
    · rw [heq, hok]

theorem fault_performed (tell : Notification → Coordinator M → Coordinator M) (p : Player)
    (a : Action) (c : Coordinator M) :
    ((Execution.perform (surroundings tell) p c a).1.map fun _ => ()) =
      (c.duel.arena.doing a).1 := by
  have hinvoked := fault_invoke tell
    (c.update (·.record (Execution.beforeRecord p a (c.duel.arena.combatant p).fix))) a
  rcases Execution.perform_cases (surroundings tell) p c a with ⟨fault, hfault, heq⟩ | ⟨hok, heq⟩
  · rw [heq]
    exact (hinvoked.symm.trans hfault).symm
  · rw [heq]
    exact (hinvoked.symm.trans hok).symm

/-! ## The ways through a step -/

theorem work_finishRun (ht : Tells tell) {d : Duel} {c : Coordinator M} {id : Nat} {job : Job}
    {p : Player} {executed : List String} (result : ExecutionResult) (hq : Quiet d c.duel)
    (hp : d.program? job = some (p, [], executed)) :
    Work id job d (c.finishRun tell id result).duel := by
  obtain ⟨duel, memory⟩ := c
  have hlast : Quiet d { duel with lastExecution := some result } :=
    hq.trans ⟨duel.arena, duel.remaining, some result, duel.journal, rfl⟩
  have hphase : duel.phase = d.phase := hq.phase
  unfold finishRun
  dsimp only [update]
  split
  · rename_i ho
    have hover : d.phase = .over := by simpa [isOver, hphase] using ho
    exact Work.stopped result hp hover hlast
  · rename_i ho
    have hover : d.phase ≠ .over := by simpa [isOver, hphase] using ho
    let x := duel.arena.recordTurnEnd result.player
    have hquiet := (hlast.setArena x).setArena (x.value.clearActive result.player)
    have hflip := moves_flipTurn ht
      ⟨(({ duel with lastExecution := some result }.setArena x).setArena
        (x.value.clearActive result.player)).closeRun id, memory⟩
    split
    · rename_i hc
      exact Work.paused result hp hover hquiet hflip hc
    · rename_i hc
      exact Work.closed result hp hover hquiet hflip (Bool.eq_false_iff.mpr hc)

theorem work_act (ht : Tells tell) {d : Duel} {c : Coordinator M} {id : Nat} {job : Job}
    {p : Player} {rest : List Action} {executed : List String} (hq : Quiet d c.duel)
    (harena : c.duel.arena = d.arena) (hp : d.program? job = some (p, rest, executed)) :
    Work id job d (c.act tell id p executed rest).duel := by
  cases rest with
  | nil => exact work_finishRun ht _ hq hp
  | cons a later =>
    obtain ⟨duel, memory⟩ := c
    have hphase : duel.phase = d.phase := hq.phase
    have hcurrent : duel.current = d.current := hq.current
    rw [act]
    split
    · rename_i ho
      have hover : d.phase = .over := by simpa [isOver, hphase] using ho
      unfold finishRun
      rw [if_pos (by simpa [update, Duel.record, isOver] using ho)]
      refine Work.stopped _ hp hover ?_
      exact (hq.record _).trans ⟨duel.arena, duel.remaining, some _, _, rfl⟩
    · rename_i ho
      have hover : d.phase ≠ .over := by simpa [isOver, hphase] using ho
      have hbegan : Moves (duel.remember (.began id a d.phase d.current))
          (Execution.perform (surroundings tell) p
            ⟨duel.remember (.began id a d.phase d.current), memory⟩ a).2.duel :=
        moves_performed ht p a (.refl _)
      dsimp only [update]
      rw [hphase, hcurrent]
      rcases hperform : Execution.perform (surroundings tell) p
          ⟨duel.remember (.began id a d.phase d.current), memory⟩ a with ⟨fault | changed, c⟩
      · rw [hperform] at hbegan
        have hfails : (duel.arena.doing a).1 = .error fault := by
          have hfault := fault_performed tell p a
            ⟨duel.remember (.began id a d.phase d.current), memory⟩
          rw [hperform] at hfault
          exact hfault.symm
        exact Work.broke hp hover (harena ▸ hfails) hq hbegan
      · rw [hperform] at hbegan
        dsimp only
        split
        · exact Work.acted hp hover hq (moves_onMoved ht p _ hbegan)
        · exact Work.acted hp hover hq hbegan

theorem work_beginRun (ht : Tells tell) (c : Coordinator M) (id : Nat) (p : Player) :
    Work id (.begin p) c.duel (c.beginRun tell id p).duel := by
  unfold beginRun
  have hread : Quiet c.duel { c.duel with
      journal := (Script.parseGiven p (c.duel.scripts.get p)).records.reverse ++ c.duel.journal } :=
    ⟨c.duel.arena, c.duel.remaining, c.duel.lastExecution, _, rfl⟩
  dsimp only
  split
  · rename_i fault hf
    exact Work.unread fault (by simp [program?, hf, Except.toOption]) hread
  · rename_i actions ha
    refine work_act ht (hread.note .info _) rfl ?_
    simp [program?, ha, Except.toOption]

theorem work_onTimeout (ht : Tells tell) {d : Duel} {c : Coordinator M} {id passed total : Nat}
    (hp : ¬ passed < total) (hq : Quiet d c.duel) :
    Work id (.tick passed total) d ((c.onTimeout tell).endTask id (.done none)).duel := by
  have hphase : c.duel.phase = d.phase := hq.phase
  unfold onTimeout
  rcases c.duel.fire_cases .timeout with ⟨hn, m, hf⟩ | ⟨phase, m, hn, hf⟩
  · simp only [onDuel, hf]
    rw [hphase] at hn
    exact Work.late hp (Phase.next?_timeout_none hn) (hq.note .debug m)
  · simp only [onDuel, hf]
    rw [hphase] at hn
    obtain ⟨hi, rfl⟩ := Phase.next?_timeout hn
    refine Work.expired hp hi ?_ (moves_flipTurn ht _)
    exact ((hq.note .debug m).setPhase .idle).note .info _

theorem work_tick (ht : Tells tell) (c : Coordinator M) (id passed total : Nat) :
    Work id (.tick passed total) c.duel (c.runJob tell id (.tick passed total)).duel := by
  have hq : Quiet c.duel { c.duel with remaining := c.duel.timing.remaining passed } :=
    ⟨c.duel.arena, _, c.duel.lastExecution, c.duel.journal, rfl⟩
  unfold runJob
  dsimp only
  split
  · rename_i hp
    exact Work.ticked hp hq
  · rename_i hp
    exact work_onTimeout ht hp hq

theorem work_runJob (ht : Tells tell) (c : Coordinator M) (id : Nat) (job : Job)
    (hj : job ≠ .caller) : Work id job c.duel (c.runJob tell id job).duel := by
  cases job with
  | caller => exact absurd rfl hj
  | begin p => exact work_beginRun ht c id p
  | act p rest executed => exact work_act ht (.refl _) rfl rfl
  | pause result => exact Work.woke c.duel result
  | timer =>
    unfold runJob
    dsimp only
    split
    · exact Work.uncounted ‹_›
    · exact Work.counted ‹_›
  | tick passed total => exact work_tick ht c id passed total

theorem stepped_step? (ht : Tells tell) {c c' : Coordinator M} (h : c.step? tell = some c') :
    Stepped c.duel c'.duel := by
  unfold step? Schedule.next? at h
  cases hr : c.duel.schedule.ready with
  | nil => simp [hr] at h
  | cons t ready =>
    simp only [hr] at h
    have hj : t.job ≠ .caller := by
      intro hj
      simp [hj] at h
    have hc : ((c.update ({ · with schedule := { c.duel.schedule with ready } })).runTask tell t) =
        c' := by
      split at h
      · rename_i hjob
        exact absurd hjob hj
      · exact Option.some.inj h
    rw [← hc]
    unfold runTask
    dsimp only
    split
    · rename_i ho
      exact Stepped.dropped hr ho
    · rename_i ho
      exact Stepped.worked hr (Bool.eq_false_iff.mpr ho)
        (work_runJob ht ⟨c.duel.taken t ready, c.memory⟩ t.id t.job hj)

end Coordinator

end MazeDuel.Turn
