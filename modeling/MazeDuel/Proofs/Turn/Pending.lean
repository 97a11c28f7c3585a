import MazeDuel.Proofs.Turn.Timers
/-!
Pending timers: there is one at most, it counts down the turn as it is, and only while the player to
move may edit. So a timer ends no turn but the one that it was started for.
-/

namespace MazeDuel.Turn

/-- Whether the next step of a task ends a turn: a timer's does after its last tick. -/
def Job.isLastTick : Job → Bool
  | tick passed total => total ≤ passed
  | _ => false

namespace Duel

open Deed

/-- The timers that are still to make a step and have not been called off. -/
def pendingTimers (d : Duel) : List (Task Job) :=
  d.schedule.tasks.filter fun t => t.job.isTimer && !t.cancelled

theorem mem_pendingTimers {d : Duel} {t : Task Job} :
    t ∈ d.pendingTimers ↔ t ∈ d.schedule.tasks ∧ t.job.isTimer ∧ t.cancelled = false := by
  simp [pendingTimers]

/-- Whether a timer was started in the turn as it is. -/
def TimedNow (d : Duel) (id : Nat) : Prop := ∃ author, .timed id d.turnNumber author ∈ d.deeds

/-- What holds of the timers of a match, also in the middle of a step. -/
structure Timely (d : Duel) : Prop where
  off : d.phase = .over → d.timer = none
  known : ∀ id turn author, .timed id turn author ∈ d.deeds → id < d.schedule.fresh
  /-- A timer was started in one turn only. -/
  once : ∀ id turn author turn' author', .timed id turn author ∈ d.deeds →
    .timed id turn' author' ∈ d.deeds → turn = turn'
  current : ∀ t ∈ d.pendingTimers, d.TimedNow t.id

theorem timely_fresh (arena : Arena) (timing : Timing) (scripts : Duo Json) :
    Timely (fresh arena timing scripts) where
  off _ := rfl
  known := nofun
  once := nofun
  current := nofun

theorem Orderly.timer_of_pending {d : Duel} (ho : Orderly d) {t : Task Job}
    (ht : t ∈ d.pendingTimers) : d.timer = some t.id := by
  obtain ⟨hmem, hj, hl⟩ := mem_pendingTimers.mp ht
  exact ho.timers t hmem hj hl

theorem Orderly.pendingTimers_eq_nil {d : Duel} (ho : Orderly d) (h : d.timer = none) :
    d.pendingTimers = [] := by
  refine List.eq_nil_iff_forall_not_mem.mpr fun t ht => ?_
  cases h.symm.trans (ho.timer_of_pending ht)

/-- All pending timers have the number that the match knows of, and numbers are not given twice. -/
theorem Orderly.length_pendingTimers {d : Duel} (ho : Orderly d) : d.pendingTimers.length ≤ 1 := by
  have hn : (d.pendingTimers.map Task.id).Nodup := by
    have hasleep := ho.asleep
    rw [Schedule.ids_eq] at hasleep
    exact hasleep.sublist (List.filter_sublist.map _)
  match hp : d.pendingTimers with
  | [] => simp
  | [t] => simp
  | t :: u :: rest =>
    have ht := ho.timer_of_pending (t := t) (by simp [hp])
    have hu := ho.timer_of_pending (t := u) (by simp [hp])
    rw [ht, Option.some.injEq] at hu
    simp [hp, hu] at hn

theorem Orderly.timer_executing {d : Duel} (ho : Orderly d) (hp : d.phase = .executing) :
    d.timer = none := by
  obtain ⟨id, hid⟩ := ho.executing hp
  exact (ho.latest (id, d.current) (by simp [hid])).2.2

/-- Before the end of a match and while no script may run, a timer belongs to the turn. -/
theorem Timely.idle {d : Duel} (h : Timely d) (ho : Orderly d) {t : Task Job}
    (ht : t ∈ d.pendingTimers) : d.phase = .idle ∨ d.phase = .editing := by
  have htimer := ho.timer_of_pending ht
  cases hp : d.phase with
  | idle => exact Or.inl rfl
  | editing => exact Or.inr rfl
  | executing => cases (ho.timer_executing hp).symm.trans htimer
  | _ => cases (h.off hp).symm.trans htimer

/-- The timers stay what they were while others tasks come and go and other deeds are done. -/
theorem Timely.apart {d d' : Duel} (h : Timely d) (hoff : d'.phase = .over → d'.timer = none)
    (hdeeds : ∀ id turn author, .timed id turn author ∈ d'.deeds ↔ .timed id turn author ∈ d.deeds)
    (hturn : d'.turnNumber = d.turnNumber) (hfresh : d.schedule.fresh ≤ d'.schedule.fresh)
    (hpending : ∀ t ∈ d'.pendingTimers, d.TimedNow t.id) : Timely d' where
  off := hoff
  known id turn author hmem :=
    Nat.lt_of_lt_of_le (h.known id turn author ((hdeeds id turn author).mp hmem)) hfresh
  once id turn author turn' author' hmem hmem' :=
    h.once id turn author turn' author' ((hdeeds ..).mp hmem) ((hdeeds ..).mp hmem')
  current t ht := by
    obtain ⟨author, hmem⟩ := hpending t ht
    exact ⟨author, hturn ▸ (hdeeds ..).mpr hmem⟩

/-- Nothing differs that timers depend on. -/
theorem Timely.irrelevant {d d' : Duel} (h : Timely d)
    (hphase : d'.phase = .over → d.phase = .over) (htimer : d'.timer = d.timer)
    (hdeeds : d'.deeds = d.deeds) (hturn : d'.turnNumber = d.turnNumber)
    (hschedule : d'.schedule = d.schedule) : Timely d' := by
  refine h.apart ?_ (by simp [hdeeds]) hturn (by simp [hschedule]) ?_
  · intro hp
    rw [htimer]
    exact h.off (hphase hp)
  · intro t ht
    rw [mem_pendingTimers, hschedule] at ht
    exact h.current t (mem_pendingTimers.mpr ht)

theorem Timely.quiet {d d' : Duel} (h : Timely d) (hq : Quiet d d') : Timely d' := by
  obtain ⟨_, _, _, _, rfl⟩ := hq
  exact h.irrelevant id rfl rfl rfl rfl

theorem Timely.remember {d : Duel} (h : Timely d) {x : Deed}
    (hx : ∀ id turn author, x ≠ .timed id turn author) : Timely (d.remember x) := by
  refine h.apart h.off ?_ rfl (Nat.le_refl _) h.current
  intro id turn author
  exact List.mem_cons.trans (or_iff_right (hx id turn author).symm)

/-- No timer is pending once the timer was called off. -/
theorem Orderly.pendingTimers_cancelTimer {d : Duel} (ho : Orderly d) :
    d.cancelTimer.pendingTimers = [] :=
  ho.cancelTimer.pendingTimers_eq_nil rfl

theorem Timely.cancelTimer {d : Duel} (h : Timely d) (ho : Orderly d) : Timely d.cancelTimer := by
  refine h.apart (fun _ => rfl) (by simp [Duel.cancelTimer]) rfl ?_ ?_
  · exact Nat.le_of_eq d.fresh_cancelTimer.symm
  · simp [ho.pendingTimers_cancelTimer]

/-- Another task comes to a schedule; if it is a timer, it was started in the turn as it is. -/
theorem Timely.join {d d' : Duel} (h : Timely d) (id : Nat) (job : Job)
    (hd : ∃ schedule running awaited outcomes execution,
      d' = { d with schedule, running, awaited, outcomes, execution })
    (ht : ∀ t ∈ d'.schedule.tasks, t = { id, job } ∨ t ∈ d.schedule.tasks)
    (hf : d.schedule.fresh ≤ d'.schedule.fresh) (hj : job.isTimer → d.TimedNow id) :
    Timely d' := by
  obtain ⟨schedule, running, awaited, outcomes, execution, rfl⟩ := hd
  refine h.apart h.off (by simp) rfl hf ?_
  intro t hmem
  obtain ⟨hmem, htimer, hl⟩ := mem_pendingTimers.mp hmem
  rcases ht t hmem with rfl | hmem
  · exact hj htimer
  · exact h.current t (mem_pendingTimers.mpr ⟨hmem, htimer, hl⟩)

theorem Timely.endTask {d : Duel} (h : Timely d) (id : Nat) (outcome : Outcome) :
    Timely (d.endTask id outcome) := by
  unfold Duel.endTask
  dsimp only
  split
  · exact h.join d.schedule.fresh .caller ⟨_, _, _, _, _, rfl⟩
      (fun t ht => (Schedule.mem_tasks_spawn _ _ t).mp ht) (Nat.le_succ _) nofun
  · exact h.irrelevant (fun hp => hp) rfl rfl rfl rfl

theorem Timely.rest {d : Duel} (h : Timely d) (id : Nat) (job : Job) (delay : Quantity)
    (hj : job.isTimer → d.TimedNow id) : Timely (d.rest id job delay) := by
  unfold Duel.rest
  split
  · exact h.join id job ⟨_, _, _, _, _, rfl⟩
      (fun t ht => (Schedule.mem_tasks_rest _ _ _ _ t).mp ht) (d.schedule.fresh_le_rest id job _) hj
  · exact h.endTask _ _

theorem Timely.stop {d : Duel} (h : Timely d) : Timely { d with running := none } :=
  h.irrelevant id rfl rfl rfl rfl

theorem Timely.taken {d : Duel} (h : Timely d) {t : Task Job} {ready : List (Task Job)}
    (hr : d.schedule.ready = t :: ready) : Timely (d.taken t ready) := by
  refine h.apart h.off (by simp [Duel.taken]) rfl (Nat.le_refl _) ?_
  intro u hu
  obtain ⟨hmem, hj, hl⟩ := mem_pendingTimers.mp hu
  exact h.current u (mem_pendingTimers.mpr ⟨mem_tasks_taken hr hmem, hj, hl⟩)

theorem Timely.startTimer {d : Duel} (h : Timely d) (ho : Orderly d) (hp : d.phase ≠ .over) :
    Timely d.startTimer := by
  have hc : Timely d.cancelTimer := h.cancelTimer ho
  have hcases {id turn : Nat} {author : Option Nat} (hmem : .timed id turn author ∈
      d.startTimer.deeds) : id = d.cancelTimer.schedule.fresh ∧ turn = d.turnNumber ∨
        .timed id turn author ∈ d.cancelTimer.deeds := by
    rcases List.mem_cons.mp hmem with heq | hmem
    · cases heq
      exact Or.inl ⟨rfl, rfl⟩
    · exact Or.inr hmem
  refine ⟨fun hover => absurd hover hp, ?_, ?_, ?_⟩
  · intro id turn author hmem
    rcases hcases hmem with ⟨rfl, -⟩ | hmem
    · exact Nat.lt_succ_self _
    · exact Nat.lt_succ_of_lt (hc.known id turn author hmem)
  · intro id turn author turn' author' hmem hmem'
    -- a new timer has a number that no timer before it can have had
    rcases hcases hmem with ⟨rfl, rfl⟩ | hold <;> rcases hcases hmem' with ⟨hid, rfl⟩ | hold'
    · rfl
    · exact absurd (hc.known _ _ _ hold') (Nat.lt_irrefl _)
    · exact absurd (hid ▸ hc.known _ _ _ hold) (Nat.lt_irrefl _)
    · exact hc.once id turn author turn' author' hold hold'
  · intro t ht
    obtain ⟨hmem, hj, hl⟩ := mem_pendingTimers.mp ht
    rcases (Schedule.mem_tasks_spawn _ _ t).mp hmem with rfl | hmem
    · exact ⟨_, List.mem_cons_self ..⟩
    · have hnone := ho.pendingTimers_cancelTimer
      have hold : t ∈ d.cancelTimer.pendingTimers := mem_pendingTimers.mpr ⟨hmem, hj, hl⟩
      rw [hnone] at hold
      cases hold

/-- A turn is passed on while no timer is pending. -/
theorem Timely.passTurn {d : Duel} (h : Timely d) (hp : d.pendingTimers = []) :
    Timely d.passTurn where
  off := h.off
  known := h.known
  once := h.once
  current t ht := by
    have hmem : t ∈ d.pendingTimers := ht
    rw [hp] at hmem
    cases hmem

theorem Timely.move {d d' : Duel} (hm : Move d d') (h : Timely d) (ho : Orderly d) :
    Timely d' := by
  cases hm with
  | quiet arena remaining last journal => exact h.irrelevant id rfl rfl rfl rfl
  | told n hn => exact h.irrelevant id rfl rfl rfl rfl
  | script script hp =>
    have hset : Timely { d with scripts := d.scripts.set d.current script } :=
      h.irrelevant id rfl rfl rfl rfl
    exact hset.remember nofun
  | edit phase hp hp' =>
    refine h.irrelevant (fun hover => ?_) rfl rfl rfl rfl
    have hphase : phase = .over := hover
    rcases hp' with rfl | rfl <;> cases hphase
  | mode continuous hp => exact h.irrelevant id rfl rfl rfl rfl
  | accept hs hp =>
    have hbusy : Timely { d.cancelTimer with phase := .executing } :=
      (h.cancelTimer ho).irrelevant nofun rfl rfl rfl rfl
    have haccepted : Timely ({ d.cancelTimer with phase := .executing }.remember
        (.accepted d.cancelTimer.schedule.fresh d.current d.turnNumber d.running)) :=
      hbusy.remember nofun
    exact haccepted.join d.cancelTimer.schedule.fresh (.begin d.current) ⟨_, _, _, _, _, rfl⟩
      (fun t ht => (Schedule.mem_tasks_spawn _ _ t).mp ht) (Nat.le_succ _) nofun
  | opening arena journal hs =>
    have hopened : Timely { d.opened with arena, journal } :=
      (h.remember (x := .opened d.phase) nofun).irrelevant nofun rfl rfl rfl rfl
    exact hopened.startTimer (ho.opened hs arena journal) nofun

theorem Timely.moves {d d' : Duel} (hm : Moves d d') (h : Timely d) (ho : Orderly d) :
    Timely d' := by
  have hboth : Orderly d' ∧ Timely d' := by
    refine hm.keeps (P := fun e => Orderly e ∧ Timely e) ?_ ?_ ?_ ⟨ho, h⟩
    · exact fun hm he => ⟨he.1.move hm, he.2.move hm he.1⟩
    · intro e winner reason journal hp hr he
      have hc := he.2.cancelTimer he.1
      exact ⟨he.1.struck winner reason journal,
        hc.apart (fun _ => rfl) (fun _ _ _ => Iff.rfl) rfl (Nat.le_refl _) hc.current⟩
    · exact fun he =>
        ⟨he.1.irrelevant _ _ _ _ _ _ _ _ _ _, he.2.irrelevant id rfl rfl rfl rfl⟩
  exact hboth.2

theorem Timely.beginTurn {d : Duel} (h : Timely d) (ho : Orderly d) (hs : d.started = true) :
    Timely d.beginTurn := by
  rcases d.beginTurn_cases with ⟨-, heq⟩ | ⟨hb, hm⟩
  · exact heq.symm ▸ h
  · have hp := (isBusy_eq_false d).mp hb
    refine (h.startTimer ho ?_).moves hm (ho.startTimer hs hp)
    rcases hp with hp | hp <;> rw [hp] <;> decide

/-- When a timer makes its last step, no other is pending. -/
theorem Orderly.alone {d : Duel} (ho : Orderly d) {id : Nat} (hr : d.running = some id)
    (htimer : d.timer = some id) : d.pendingTimers = [] := by
  refine List.eq_nil_iff_forall_not_mem.mpr fun t ht => ?_
  have hid : t.id = id := Option.some.inj ((ho.timer_of_pending ht).symm.trans htimer)
  exact ho.toNumbered.not_mem_of_running hr hid (mem_pendingTimers.mp ht).1

/-- A run that comes to its end before the match does has no timer beside it. -/
theorem Timely.closeRun {d e : Duel} {id : Nat} {job : Job} {p : Player} {rest : List Action}
    {executed : List String} (h : Timely d) (ho : Engaged id job d)
    (hp : d.program? job = some (p, rest, executed)) (hover : d.phase ≠ .over) (hq : Quiet d e) :
    Orderly (e.closeRun id).passTurn ∧ Timely (e.closeRun id).passTurn ∧
      (e.closeRun id).passTurn.started = true := by
  obtain ⟨message, heq, ho', hnone⟩ := ho.closeRun hp hover hq
  have hidle : Timely { e.note .debug message with phase := .idle } :=
    (h.quiet hq).irrelevant nofun rfl rfl rfl rfl
  have hclosed : Timely (e.closed id message) := hidle.remember nofun
  rw [heq]
  exact ⟨ho', hclosed.passTurn (ho'.pendingTimers_eq_nil hnone), hq.moves.started ho.started⟩

/-- A step keeps what holds of timers, with the task that makes it. -/
theorem Timely.worked {d d' : Duel} {id : Nat} {job : Job} (h : Timely d) (ho : Engaged id job d)
    (hnow : job.isTimer → d.TimedNow id) (hw : Work id job d d') :
    Timely { d' with running := none } := by
  have hs := ho.started
  cases hw with
  | unread fault hp hq => exact ((h.quiet hq).endTask _ _).stop
  | @acted _ _ e d'' p a later executed hp hover hq hm =>
    have hbegan : Timely (e.remember (.began id a d.phase d.current)) := (h.quiet hq).remember nofun
    exact ((hbegan.moves hm (ho.began hp hover hq)).rest id (.act p later _) _ nofun).stop
  | @broke _ _ e d'' p a later executed fault hp hover hf hq hm =>
    have hbegan : Timely (e.remember (.began id a d.phase d.current)) := (h.quiet hq).remember nofun
    exact ((hbegan.moves hm (ho.began hp hover hq)).endTask _ _).stop
  | stopped result hp hover hq => exact ((h.quiet hq).endTask _ _).stop
  | @closed _ _ e d'' p executed result hp hover hq hm hc =>
    obtain ⟨ho', hpass, hs'⟩ := h.closeRun ho hp hover hq
    exact (((hpass.moves hm ho').beginTurn (ho'.moves hm) (hm.started hs')).endTask _ _).stop
  | @paused _ _ e d'' p executed result hp hover hq hm hc =>
    obtain ⟨ho', hpass, -⟩ := h.closeRun ho hp hover hq
    have hpaused : Timely (d''.remember (.paused id d''.turnNumber)) :=
      (hpass.moves hm ho').remember nofun
    exact (hpaused.rest id (.pause result) _ nofun).stop
  | woke _ result =>
    have hwoke : Timely (d.remember (.woke id d.turnNumber d.phase)) := h.remember nofun
    exact ((hwoke.beginTurn (ho.toOrderly.remember trivial rfl) hs).endTask _ _).stop
  | uncounted ht => exact (h.endTask _ _).stop
  | counted ht => exact (h.rest id _ _ fun _ => hnow rfl).stop
  | ticked hp hq =>
    refine ((h.quiet hq).rest id _ _ fun _ => ?_).stop
    obtain ⟨_, _, _, _, rfl⟩ := hq
    exact hnow rfl
  | late hp hover hq => exact ((h.quiet hq).endTask _ _).stop
  | @expired _ e d'' passed total hp hi hq hm =>
    -- the timer that makes this step is the one pending, and it is running now
    have hidle : Timely { d with phase := .idle } := h.irrelevant nofun rfl rfl rfl rfl
    have hnone : d.pendingTimers = [] := ho.toOrderly.alone ho.busy (ho.timed.mp rfl)
    have hpass : Timely e.passTurn := by
      refine (hidle.quiet hq).passTurn ?_
      obtain ⟨_, _, _, _, rfl⟩ := hq
      exact hnone
    have ho' := ho.toOrderly.timedOut hi hq
    have hs' : e.passTurn.started = true := hq.moves.started hs
    exact (((hpass.moves hm ho').beginTurn (ho'.moves hm) (hm.started hs')).endTask _ _).stop

theorem Timely.stepped {d d' : Duel} (ho : Resting d) (h : Timely d) (hs : Stepped d d') :
    Timely d' := by
  cases hs with
  | dropped hr hc => exact ((h.taken hr).endTask _ _).stop
  | @worked t ready d' hr hc hw =>
    refine (h.taken hr).worked (ho.engaged hr hc) ?_ hw
    exact fun hj => h.current t (mem_pendingTimers.mpr ⟨tasks_of_ready hr, hj, hc⟩)

theorem Timely.goes {d d' : Duel} (ho : Resting d) (h : Timely d) (hg : Goes d d') :
    Timely d' := by
  cases hg with
  | moved hm => exact h.moves hm ho.toOrderly
  | stepped hs => exact h.stepped ho hs
  | woken hw =>
    refine h.apart h.off (by simp) rfl (Nat.le_of_eq (Schedule.fresh_wake? hw).symm) ?_
    intro t ht
    obtain ⟨hmem, hj, hl⟩ := mem_pendingTimers.mp ht
    exact h.current t (mem_pendingTimers.mpr ⟨(Schedule.tasks_wake? hw t).mp hmem, hj, hl⟩)
  | timed now => exact h.apart h.off (by simp) rfl (Nat.le_refl _) h.current

/-! ## The end of a timer -/

theorem turnNumber_beginTurn {d : Duel} (hs : d.started = true) :
    d.beginTurn.turnNumber = d.turnNumber := by
  rcases d.beginTurn_cases with ⟨-, heq⟩ | ⟨-, hm⟩
  · rw [heq]
  · exact (hm.adds hs).turnNumber

theorem turnNumber_endTask (d : Duel) (id : Nat) (outcome : Outcome) :
    (d.endTask id outcome).turnNumber = d.turnNumber := by
  obtain ⟨schedule, awaited, heq⟩ := endTask_eq d id outcome
  rw [heq]

theorem turnNumber_rest (d : Duel) (id : Nat) (job : Job) (delay : Quantity) :
    (d.rest id job delay).turnNumber = d.turnNumber := by
  obtain ⟨schedule, awaited, outcomes, heq⟩ := d.rest_beside id job delay
  rw [heq]

theorem program?_timer {d : Duel} {job : Job} (hj : job.isTimer) : d.program? job = none := by
  cases job <;> first | rfl | cases hj

/-- The step of a timer passes the turn on after its last tick, and leaves it alone until then. -/
theorem Timely.turnNumber {d d' : Duel} {id : Nat} {job : Job} (h : Timely d)
    (ho : Engaged id job d) (hj : job.isTimer) (hw : Work id job d d') :
    d'.turnNumber = if job.isLastTick then d.turnNumber + 1 else d.turnNumber := by
  cases hw with
  | uncounted ht => exact d.turnNumber_endTask id _
  | counted ht => exact d.turnNumber_rest id _ _
  | @ticked _ e passed total hp hq =>
    rw [if_neg (by simpa [Job.isLastTick] using hp)]
    exact (e.turnNumber_rest id _ _).trans (hq.moves.adds ho.started).turnNumber
  | late hp hover hq =>
    have htimer : d.timer = some id := ho.timed.mp rfl
    rcases hover with hover | hover
    · cases (ho.timer_executing hover).symm.trans htimer
    · cases (h.off hover).symm.trans htimer
  | @expired _ e d'' passed total hp hi hq hm =>
    have hs : e.passTurn.started = true := hq.moves.started ho.started
    have hturn : e.turnNumber = d.turnNumber := by
      obtain ⟨_, _, _, _, rfl⟩ := hq
      rfl
    rw [if_pos (by simpa [Job.isLastTick] using hp)]
    calc (d''.beginTurn.endTask id (.done none)).turnNumber
        _ = d''.beginTurn.turnNumber := turnNumber_endTask _ _ _
        _ = d''.turnNumber := turnNumber_beginTurn (hm.started hs)
        _ = e.turnNumber + 1 := (hm.adds hs).turnNumber
        _ = d.turnNumber + 1 := by rw [hturn]
  | unread => cases hj
  | woke => cases hj
  | acted hp => cases (program?_timer hj).symm.trans hp
  | broke hp => cases (program?_timer hj).symm.trans hp
  | stopped _ hp => cases (program?_timer hj).symm.trans hp
  | closed _ hp => cases (program?_timer hj).symm.trans hp
  | paused _ hp => cases (program?_timer hj).symm.trans hp

theorem Timely.turnNumber_stepped {d d' : Duel} (h : Timely d) (ho : Resting d)
    (hs : Stepped d d') {t : Task Job} {ready : List (Task Job)}
    (hr : d.schedule.ready = t :: ready) (hj : t.job.isTimer) :
    d'.turnNumber =
      if t.job.isLastTick ∧ t.cancelled = false then d.turnNumber + 1 else d.turnNumber := by
  cases hs with
  | dropped hr' hc =>
    cases hr.symm.trans hr'
    rw [if_neg (by simp [hc])]
    exact (d.taken t ready).turnNumber_endTask t.id .cancelled
  | worked hr' hc hw =>
    cases hr.symm.trans hr'
    simp only [hc, and_true]
    exact (h.taken hr).turnNumber (ho.engaged hr hc) hj hw

end Duel

namespace Coordinator

open Duel

variable {M : Type} (l : Listener M)

/-- The first task in the queue makes a step, unless the caller's turn has come. -/
theorem stepped_happen (c : Coordinator M) {t : Task Job} {ready : List (Task Job)}
    (hr : c.duel.schedule.ready = t :: ready) (hj : t.job ≠ .caller) :
    Stepped c.duel (c.happen l .step).duel := by
  unfold happen
  cases hs : c.step? l.tell with
  | some c' => exact stepped_step? (tells_tell l) hs
  | none =>
    unfold step? Schedule.next? at hs
    simp [hr] at hs

/-- Timers after every history. At most one is pending, and none while a script may run or the match
is over; the pending one was started in the turn as it is, and in no other. When a timer makes a
step after its last tick and was not called off, that ends its own turn while the player to move may
edit; no other step of a timer passes the turn on. -/
theorem timers_keep_turn (arena : Arena) (timing : Timing) (scripts : Duo Json) (memory : M)
    (hs : List Happening) :
    let c := (fresh arena timing scripts memory).after l hs
    c.duel.pendingTimers.length ≤ 1 ∧
    (c.duel.phase = .executing ∨ c.duel.phase = .over → c.duel.pendingTimers = []) ∧
    (∀ t ∈ c.duel.pendingTimers, c.duel.TimedNow t.id ∧
      ∀ turn author, .timed t.id turn author ∈ c.duel.deeds → turn = c.duel.turnNumber) ∧
    ∀ t ready, c.duel.schedule.ready = t :: ready → t.job.isTimer →
      if t.job.isLastTick ∧ t.cancelled = false then
        t ∈ c.duel.pendingTimers ∧ (c.duel.phase = .idle ∨ c.duel.phase = .editing) ∧
          (c.happen l .step).duel.turnNumber = c.duel.turnNumber + 1
      else (c.happen l .step).duel.turnNumber = c.duel.turnNumber := by
  intro c
  obtain ⟨ho, h⟩ : Resting c.duel ∧ Timely c.duel :=
    after_keeps (P := fun d => Resting d ∧ Timely d) (fun hg h => ⟨h.1.goes hg, h.2.goes h.1 hg⟩)
      l _ hs ⟨resting_fresh arena timing scripts, timely_fresh arena timing scripts⟩
  refine ⟨ho.toOrderly.length_pendingTimers, ?_, ?_, ?_⟩
  · intro hp
    exact ho.toOrderly.pendingTimers_eq_nil (hp.elim ho.toOrderly.timer_executing h.off)
  · intro t ht
    obtain ⟨author, hmem⟩ := h.current t ht
    exact ⟨⟨author, hmem⟩, fun turn author' hmem' => h.once _ _ _ _ _ hmem' hmem⟩
  · intro t ready hr hj
    have hcaller : t.job ≠ .caller := by
      intro heq
      rw [heq] at hj
      cases hj
    have hturn := h.turnNumber_stepped ho (stepped_happen l c hr hcaller) hr hj
    split
    · rename_i hlast
      have hpending : t ∈ c.duel.pendingTimers :=
        mem_pendingTimers.mpr ⟨tasks_of_ready hr, hj, hlast.2⟩
      exact ⟨hpending, h.idle ho.toOrderly hpending, hturn.trans (if_pos hlast)⟩
    · exact hturn.trans (if_neg ‹_›)

end Coordinator

end MazeDuel.Turn
