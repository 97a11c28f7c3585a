import MazeDuel.Proofs.Turn.Moments
import MazeDuel.Proofs.Turn.Settled
/-!
Matches that are stepped from outside: somebody starts a run for the player to move, waits for its
end, and goes on at once. Whatever the timing, each step is a turn by the rules.
-/

namespace MazeDuel.Turn

namespace Duel

open Deed

variable {d d' : Duel} {r : Accepted} {id : Nat} {g : Setting} {s : Standing}

/-! ## The caller's turn comes -/

/-- Whether a task is no caller, and has been called off if it is not the timer of the turn. -/
def Meek (d : Duel) (t : Task Job) : Prop :=
  t.job ≠ .caller ∧ (t.cancelled = true ∨ d.timer = some t.id)

/-- Nobody waits, and nobody is there but the timer of the turn. -/
structure Poised (d : Duel) : Prop where
  awaited : d.awaited = none
  meek : ∀ t ∈ d.schedule.tasks, d.Meek t

/-- The caller is in the queue, and nobody before it can do more than start to count. -/
structure Home (d : Duel) : Prop where
  awaited : d.awaited = none
  queue : ∃ before caller behind, d.schedule.ready = before ++ caller :: behind ∧
    caller.job = .caller ∧ (∀ t ∈ before, t.cancelled = true ∨ t.job = .timer) ∧
    ∀ t ∈ before ++ behind ++ d.schedule.asleep.map (·.task), d.Meek t

theorem startTimer_untimed (hn : d.timer = none) : d.startTimer =
    { d.remember (.timed d.schedule.fresh d.turnNumber d.running) with
      schedule := (d.schedule.spawn .timer).2
      timer := some d.schedule.fresh, remaining := d.timing.editLimit } := by
  unfold Duel.startTimer Duel.cancelTimer
  rw [hn]
  rfl

theorem home_endTask (ha : d.awaited = some id)
    (hready : ∀ t ∈ d.schedule.ready, t.cancelled = true ∨ t.job = .timer)
    (hmeek : ∀ t ∈ d.schedule.tasks, d.Meek t) (outcome : Outcome) :
    Home { d.endTask id outcome with running := none } := by
  unfold Duel.endTask
  rw [if_pos ha]
  refine ⟨rfl, d.schedule.ready, _, [], rfl, rfl, hready, ?_⟩
  intro t ht
  rw [List.append_nil] at ht
  exact hmeek t ht

theorem Deserted.home (h : Deserted d) (ha : d.awaited = some id) (outcome : Outcome) :
    Home { d.endTask id outcome with running := none } := by
  refine home_endTask ha (fun t ht => Or.inl (h t ?_).2) (fun t ht => ?_) outcome
  · exact (Schedule.mem_tasks _ t).mpr (Or.inl ht)
  · exact ⟨(h t ht).1, Or.inl (h t ht).2⟩

theorem Fails.home (h : Fails r d d') (ho : Deserted d) (ha : d.awaited = some r.id) :
    Home d' := by
  cases h with
  | @broke e fault hwhy hschedule hawaited hrunning hscripts hphase hstanding =>
    have he : Deserted e := by
      unfold Deserted
      rw [hschedule]
      exact ho
    exact he.home (hawaited.trans ha) _

/-- A new timer gets its place before the caller. -/
theorem Ends.home (h : Ends r d d') (ho : Deserted d) (ha : d.awaited = some r.id)
    (hn : d.timer = none) (hmanual : d.phase = .executing → d.continuous = false) : Home d' := by
  cases h with
  | @decided result journal hok hover hstanding =>
    have he : Deserted { d with journal, lastExecution := some result } := ho
    exact he.home ha _
  | @passed _ result handed hok hbusy hoff hstanding =>
    obtain ⟨deeds, arena, log, journal, rfl⟩ := handed
    have hstarted := startTimer_untimed (d := d.handed (some result) deeds arena log journal) hn
    rw [beginTurn_manual rfl (by exact hoff), hstarted]
    refine home_endTask (by exact ha) (fun t ht => ?_) (fun t ht => ?_) _
    · rcases List.mem_append.mp ht with ht | ht
      · exact Or.inl (ho t ((Schedule.mem_tasks _ t).mpr (Or.inl ht))).2
      · exact Or.inr (congrArg Task.job (List.mem_singleton.mp ht))
    · rcases (Schedule.mem_tasks_spawn _ _ t).mp ht with rfl | ht
      · exact ⟨nofun, Or.inr rfl⟩
      · exact ⟨(ho t ht).1, Or.inl (ho t ht).2⟩
  | paused handed hok hbusy hon hstanding => cases (hmanual hbusy).symm.trans hon

/-- The caller leaves the queue, and only the timer of the turn is left. -/
theorem Home.left (h : Home d) {caller : Task Job} {ready : List (Task Job)}
    (hr : d.schedule.ready = caller :: ready) (hj : caller.job = .caller) :
    Poised { d with schedule := { d.schedule with ready := d.schedule.ready.drop 1 } } := by
  obtain ⟨before, caller', behind, hqueue, -, -, hmeek⟩ := h.queue
  refine ⟨h.awaited, fun t ht => hmeek t ?_⟩
  cases before with
  | nil =>
    rw [hqueue] at ht
    exact ht
  | cons u before =>
    cases hr.symm.trans hqueue
    exact absurd hj (hmeek caller (by simp)).1

theorem mem_tasks_cancelTimer {t : Task Job} (ht : t ∈ d.cancelTimer.schedule.tasks)
    (hn : Numbered d) (h : ∀ t ∈ d.schedule.tasks, d.Meek t) :
    t.job ≠ .caller ∧ t.cancelled = true := by
  obtain ⟨u, hu, -, hjob⟩ := of_mem_cancelTimer ht
  refine ⟨hjob ▸ (h u hu).1, ?_⟩
  unfold Duel.cancelTimer at ht
  cases htimer : d.timer with
  | none =>
    simp only [htimer] at ht
    have hmeek := (h t ht).2
    rw [htimer] at hmeek
    exact hmeek.resolve_right nofun
  | some id =>
    simp only [htimer] at ht
    by_contra hlive
    obtain ⟨hmem, hne⟩ := Schedule.of_mem_tasks_cancel_live hn.asleep ht
      (Bool.eq_false_iff.mpr hlive)
    rcases (h t hmem).2 with hc | hid
    · exact hlive hc
    · exact hne (Option.some.inj (hid.symm.trans htimer))

/-- Nobody is asleep any more when a run has been accepted. -/
theorem Poised.asleep_accept (h : Poised d) (hn : Numbered d)
    (hlive : ∀ x ∈ d.schedule.asleep, x.task.cancelled = false) (p : Player) :
    (d.accept p).schedule.asleep = [] := by
  refine List.eq_nil_iff_forall_not_mem.mpr fun x hx => ?_
  have hx : x ∈ d.cancelTimer.schedule.asleep := hx
  have hmem : x.task ∈ d.cancelTimer.schedule.tasks :=
    (Schedule.mem_tasks _ _).mpr (Or.inr ⟨x, hx, rfl⟩)
  have hcancelled := (mem_tasks_cancelTimer hmem hn h.meek).2
  cases (hlive x (asleep_cancelTimer d hx)).symm.trans hcancelled

/-- While a run is on its way and everybody else has been called off, nobody sleeps but the run. -/
theorem Alone.sleepers (h : Alone r.id d) {program : List Action} (hway : Underway r program d)
    (hlive : ∀ x ∈ d.schedule.asleep, x.task.cancelled = false) :
    ∀ x ∈ d.schedule.asleep, x.task.job.player?.isSome := by
  intro x hx
  have hmem : x.task ∈ d.schedule.tasks := (Schedule.mem_tasks _ _).mpr (Or.inr ⟨x, hx, rfl⟩)
  have hid := (h.others x.task hmem).resolve_right (by simp [hlive x hx])
  obtain ⟨job, executed, hthere, hprogram, -⟩ := hway.there
  rw [Schedule.eq_of_id_eq hway.toNumbered.asleep hmem hthere hid]
  exact Option.isSome_of_eq_some (program?_own hprogram).1

theorem awaited_accept (d : Duel) (p : Player) : (d.accept p).awaited = d.awaited := rfl

/-- A run that is accepted calls the timer off, and then nobody else is left. -/
theorem Poised.accept (h : Poised d) (hn : Numbered d) (p : Player) :
    Alone d.cancelTimer.schedule.fresh (d.accept p) where
  awaited k hk := by cases h.awaited.symm.trans hk
  callers t ht := by
    rcases (Schedule.mem_tasks_spawn _ _ t).mp ht with rfl | ht
    · nofun
    · exact (mem_tasks_cancelTimer ht hn h.meek).1
  others t ht := by
    rcases (Schedule.mem_tasks_spawn _ _ t).mp ht with rfl | ht
    · exact Or.inl rfl
    · exact Or.inr (mem_tasks_cancelTimer ht hn h.meek).2

theorem Deserted.startTimer (h : Deserted d) (ha : d.awaited = none) (hn : d.timer = none) :
    Poised d.startTimer := by
  rw [startTimer_untimed hn]
  refine ⟨ha, fun t ht => ?_⟩
  rcases (Schedule.mem_tasks_spawn _ _ t).mp ht with rfl | ht
  · exact ⟨nofun, Or.inr rfl⟩
  · exact ⟨(h t ht).1, Or.inl (h t ht).2⟩

/-! ## Until the caller's turn -/

theorem Home.taken (h : Home d) {t : Task Job} {ready : List (Task Job)}
    (hr : d.schedule.ready = t :: ready) (hj : t.job ≠ .caller) :
    Home (d.taken t ready) ∧ d.Meek t ∧ (t.cancelled = true ∨ t.job = .timer) := by
  obtain ⟨before, caller, behind, hqueue, hcaller, hbefore, hmeek⟩ := h.queue
  cases before with
  | nil =>
    cases hr.symm.trans hqueue
    exact absurd hcaller hj
  | cons u before =>
    cases hr.symm.trans hqueue
    refine ⟨⟨h.awaited, before, caller, behind, rfl, hcaller, fun u hu => ?_, fun u hu => ?_⟩, ?_,
      ?_⟩
    · exact hbefore u (List.mem_cons_of_mem _ hu)
    · exact hmeek u (List.mem_cons_of_mem _ hu)
    · exact hmeek t (List.mem_cons_self ..)
    · exact hbefore t (List.mem_cons_self ..)

theorem Home.endTask (h : Home d) (id : Nat) (outcome : Outcome) : Home (d.endTask id outcome) := by
  rw [endTask_of_ne (by simp [h.awaited])]
  exact ⟨h.awaited, h.queue⟩

/-- The timer of the turn rests behind the caller. -/
theorem Home.rest (h : Home d) {job : Job} (hj : job ≠ .caller) (hid : d.timer = some id)
    (delay : Quantity) : Home (d.rest id job delay) := by
  have hnew : d.Meek { id, job } := ⟨hj, Or.inr hid⟩
  unfold Duel.rest
  split
  · obtain ⟨before, caller, behind, hqueue, hcaller, hbefore, hmeek⟩ := h.queue
    unfold Schedule.rest
    split
    · refine ⟨h.awaited, before, caller, behind ++ [⟨id, job, false⟩], ?_, hcaller, hbefore, ?_⟩
      · simp [hqueue]
      · intro t ht
        simp only [List.mem_append, List.mem_singleton] at ht hmeek
        rcases ht with (ht | ht | rfl) | ht
        · exact hmeek t (Or.inl (Or.inl ht))
        · exact hmeek t (Or.inl (Or.inr ht))
        · exact hnew
        · exact hmeek t (Or.inr ht)
    · refine ⟨h.awaited, before, caller, behind, hqueue, hcaller, hbefore, fun t ht => ?_⟩
      rcases List.mem_append.mp ht with ht | ht
      · exact hmeek t (List.mem_append_left _ ht)
      · obtain ⟨x, hx, rfl⟩ := List.mem_map.mp ht
        rcases (Schedule.mem_insertSleeper _ _ _).mp hx with rfl | hx
        · exact hnew
        · exact hmeek _ (List.mem_append_right _ (List.mem_map_of_mem hx))
  · exact h.endTask id _

theorem Home.woken (h : Home d) {schedule : Schedule Job} (hw : d.schedule.wake? = some schedule) :
    Home { d with schedule } := by
  obtain ⟨before, caller, behind, hqueue, hcaller, hbefore, hmeek⟩ := h.queue
  unfold Schedule.wake? at hw
  cases hasleep : d.schedule.asleep with
  | nil => simp [hasleep] at hw
  | cons x asleep =>
    simp only [hasleep, Option.some.injEq] at hw
    subst hw
    refine ⟨h.awaited, before, caller, behind ++ [x.task], ?_, hcaller, hbefore, fun t ht => ?_⟩
    · simp [hqueue]
    · refine hmeek t ?_
      simp only [hasleep, List.map_cons, List.mem_append, List.mem_cons, List.not_mem_nil,
        or_false] at ht ⊢
      tauto

end Duel

namespace Coordinator

open Duel Deed

variable {M : Type} {l : Listener M} {tell : Notification → Coordinator M → Coordinator M}
  {c c' : Coordinator M} {r : Accepted} {program : List Action} {seen : M → List Duel}

/-- Until the caller's turn a step drops a task that has been called off, or lets the timer of the
turn start to count. -/
theorem home_step_eq (h : Home c.duel) {t : Task Job} {ready : List (Task Job)}
    (hr : c.duel.schedule.ready = t :: ready) (hstep : c.step? tell = some c') :
    (∃ outcome, c'.duel =
      { (c.duel.taken t ready).endTask t.id outcome with running := none }) ∨
    c.duel.timer = some t.id ∧ ∃ job, job ≠ .caller ∧ c'.duel =
      { (c.duel.taken t ready).rest t.id job c.duel.timing.tick with running := none } := by
  obtain ⟨t', ready', hr', hj, rfl⟩ := step?_taken tell hstep
  cases hr.symm.trans hr'
  obtain ⟨-, ⟨-, hmeek⟩, hbefore⟩ := h.taken hr hj
  split
  · exact Or.inl ⟨_, rfl⟩
  · rename_i hlive
    rw [hbefore.resolve_left hlive]
    unfold runJob
    dsimp only
    split
    · exact Or.inl ⟨_, rfl⟩
    · rename_i total hticks
      exact Or.inr ⟨hmeek.resolve_left hlive, .tick 1 total, by simp, rfl⟩

/-- Until the caller's turn nothing happens that matters. -/
theorem home_step? (h : Home c.duel) {t : Task Job} {ready : List (Task Job)}
    (hr : c.duel.schedule.ready = t :: ready) (hstep : c.step? tell = some c') :
    Home c'.duel ∧ Apart c.duel c'.duel ∧ ready <+: c'.duel.schedule.ready := by
  obtain ⟨t', ready', hr', hj, -⟩ := step?_taken tell hstep
  cases hr.symm.trans hr'
  obtain ⟨htaken, -, -⟩ := h.taken hr hj
  have hapart : Apart c.duel (c.duel.taken t ready) := apart_beside rfl
  have hstop {d : Duel} (hd : Home d) (hb : Beside t.id (c.duel.taken t ready) d) :
      Home { d with running := none } ∧ Apart c.duel { d with running := none } ∧
        ready <+: d.schedule.ready :=
    ⟨⟨hd.awaited, hd.queue⟩, (hapart.trans hb.toApart).trans (apart_beside rfl), hb.room.ready⟩
  rcases home_step_eq h hr hstep with ⟨outcome, heq⟩ | ⟨hid, job, hnew, heq⟩
  · rw [heq]
    exact hstop (htaken.endTask t.id outcome) (beside_endTask _ t.id outcome)
  · rw [heq]
    exact hstop (htaken.rest hnew hid _) (beside_rest _ t.id hnew _)

theorem home_happen (h : Home c.duel) {x : Happening} (hx : x.isRequest = false) :
    Home (c.happen l x).duel ∧ Apart c.duel (c.happen l x).duel := by
  cases x with
  | request q => cases hx
  | clock now => exact ⟨⟨h.awaited, h.queue⟩, apart_beside rfl⟩
  | wake =>
    unfold happen
    cases hw : c.wake? with
    | none => exact ⟨h, .refl _⟩
    | some c' =>
      unfold Coordinator.wake? at hw
      obtain ⟨schedule, hwake, rfl⟩ := Option.map_eq_some_iff.mp hw
      exact ⟨h.woken hwake, apart_beside rfl⟩
  | step =>
    unfold happen
    cases hstep : c.step? l.tell with
    | none => exact ⟨h, .refl _⟩
    | some c' =>
      obtain ⟨t, ready, hr, -⟩ := step?_taken l.tell hstep
      obtain ⟨hhome, hapart, -⟩ := home_step? h hr hstep
      exact ⟨hhome, hapart⟩

theorem home_after (h : Home c.duel) {hs : List Happening}
    (hhs : ∀ x ∈ hs, x.isRequest = false) : Home (c.after l hs).duel := by
  induction hs generalizing c with
  | nil => exact h
  | cons x hs ih =>
    exact ih (home_happen h (hhs x (List.mem_cons_self ..))).1
      fun y hy => hhs y (List.mem_cons_of_mem _ hy)

/-- Whether it is the turn of somebody who waits from outside. -/
def CallsBack (c : Coordinator M) : Prop :=
  ∃ t ready, c.duel.schedule.ready = t :: ready ∧ t.job = .caller

/-- The caller's turn comes. -/
theorem home_arrives (l : Listener M) (h : Home c.duel) :
    ∃ hs, (∀ x ∈ hs, x = .step) ∧ (c.after l hs).CallsBack ∧
      Apart c.duel (c.after l hs).duel := by
  obtain ⟨before, caller, behind, hqueue, hcaller, -, hmeek⟩ := h.queue
  have hbefore : ∀ t ∈ before, t.job ≠ .caller := fun t ht => (hmeek t (by simp [ht])).1
  clear hmeek
  induction before generalizing c behind with
  | nil => exact ⟨[], nofun, ⟨caller, behind, hqueue, hcaller⟩, .refl _⟩
  | cons t before ih =>
    obtain ⟨c', hstep⟩ := exists_step? l.tell hqueue (hbefore t (List.mem_cons_self ..))
    obtain ⟨hhome, hapart, more, hready⟩ := home_step? h hqueue hstep
    have hqueue' : c'.duel.schedule.ready = before ++ caller :: (behind ++ more) := by
      rw [← hready]
      simp
    obtain ⟨hs, hsteps, hcalls, hkept⟩ := ih hhome _ hqueue' fun t ht =>
      hbefore t (List.mem_cons_of_mem _ ht)
    refine ⟨.step :: hs, fun x hx => ?_, ?_⟩
    · rcases List.mem_cons.mp hx with rfl | hx
      · rfl
      · exact hsteps x hx
    · rw [after_cons, happen_step hstep]
      exact ⟨hcalls, hapart.trans hkept⟩

/-! ## A step -/

/-- Somebody waits for a run, which is on its way or has come to its end. -/
structure Away (r : Accepted) (d : Duel) : Prop extends Still d where
  proper : d.arena.Proper
  course : (∃ program, Underway r program d ∧ Alone r.id d ∧ d.awaited = some r.id) ∨
    Home d ∧ (d.phase = .executing ∨ Settled r.setting r.standing d)

theorem away_happen (hl : Mute seen l) (hmanual : r.continuous = false) (h : Away r c.duel)
    {x : Happening} (hx : x.isRequest = false) : Away r (c.happen l x).duel := by
  have hstill := still_happen (l := l) h.toStill x
  have hproper := proper_happen hl h.toStill h.proper x
  refine ⟨hstill, hproper, ?_⟩
  rcases h.course with ⟨program, hway, halone, hawaited⟩ | ⟨hhome, hleft⟩
  · rcases alone_happen (passive_tell hl) hway halone hx with
      ⟨later, hlater, hkept, hsame⟩ | ⟨t, ready, hr, hid, hlast⟩
    · exact Or.inl ⟨later, hlater, hkept, hsame.trans hawaited⟩
    · right
      have hoff := halone.taken hway.toStill hr hid
      have hmode : (c.duel.taken t ready).phase = .executing →
          (c.duel.taken t ready).continuous = false := fun hbusy =>
        (hway.mode (fun hover => by cases hbusy.symm.trans hover)).trans hmanual
      rcases hlast with hfails | hends
      · exact ⟨hfails.home hoff hawaited, (hfails.settled hstill hproper).imp_right And.right⟩
      · exact ⟨hends.home hoff hawaited hway.untimed hmode,
          Or.inr (hends.settled hstill hproper hway.started hway.setting)⟩
  · obtain ⟨hhome', hapart⟩ := home_happen (l := l) hhome hx
    refine Or.inr ⟨hhome', ?_⟩
    rcases hleft with hbusy | hsettled
    · exact Or.inl (hapart.phase.trans hbusy)
    · exact Or.inr (hsettled.apart hapart hstill)

theorem away_after (hl : Mute seen l) (hmanual : r.continuous = false) (h : Away r c.duel)
    {hs : List Happening} (hhs : ∀ x ∈ hs, x.isRequest = false) : Away r (c.after l hs).duel := by
  induction hs generalizing c with
  | nil => exact h
  | cons x hs ih =>
    exact ih (away_happen hl hmanual h (hhs x (List.mem_cons_self ..)))
      fun y hy => hhs y (List.mem_cons_of_mem _ hy)

/-- When it is the caller's turn again and no script is being executed any more, the match stands as
the rules say. -/
theorem Away.called (h : Away r c.duel) (hc : c.CallsBack) (hp : c.duel.phase ≠ .executing) :
    Settled r.setting r.standing c.takeCaller.duel ∧ Poised c.takeCaller.duel := by
  obtain ⟨caller, ready, hr, hj⟩ := hc
  rcases h.course with ⟨program, -, halone, -⟩ | ⟨hhome, hleft⟩
  · exact absurd hj (halone.callers caller (tasks_of_ready hr))
  · have hsettled := hleft.resolve_left hp
    have hstill := h.toStill.visited (visited_take c.duel) c.duel.awaited
    exact ⟨hsettled.apart (apart_beside rfl) hstill, hhome.left hr hj⟩

/-- Somebody waits for the end of a task. -/
def awaiting (id : Nat) (c : Coordinator M) : Coordinator M :=
  c.update ({ · with awaited := some id })

variable {g : Setting} {s : Standing} {programs : Duo (List Action)}

/-- A run that is accepted between turns is on its way, and can be waited for. -/
theorem away_accepted (h : Settled g s c.duel) (hpoised : Poised c.duel) (hp : c.duel.phase ≠ .over)
    (hread : c.duel.program? (.begin c.duel.current) = some (c.duel.current, program, []))
    (l : Listener M) :
    let x := c.request l (.execute c.duel.current)
    ∃ r : Accepted, r.setting = g ∧ (r.result, r.standing) = s.play c.duel.current program ∧
      x.1 = .flag true ∧ x.2.duel.execution = some r.id ∧ Away r (x.2.awaiting r.id).duel ∧
      Underway r program (x.2.awaiting r.id).duel ∧ Alone r.id (x.2.awaiting r.id).duel := by
  intro x
  obtain ⟨hidle, hstarted, rfl⟩ := h.going hp
  obtain ⟨hreply, hid, hway⟩ := underway_execute h.toStill hstarted (Or.inl hidle) h.proper hread
  let r := c.duel.bid program
  have hway : Underway r program x.2.duel := hway
  obtain ⟨message, heq⟩ := execute_accepted hstarted (Or.inl hidle)
  have hduel : x.2.duel = ({ c.duel.note .debug message with phase := .executing }.accept
      c.duel.current) := congrArg Prod.snd heq
  have halone : Alone r.id x.2.duel := by
    have hnoted : Poised { c.duel.note .debug message with phase := .executing } :=
      ⟨hpoised.awaited, hpoised.meek⟩
    rw [hduel]
    exact hnoted.accept ⟨h.nodup, h.known⟩ c.duel.current
  have hstill := hway.toStill.visited (visited_self x.2.duel) (some r.id)
  have hwaiting : Underway r program (x.2.awaiting r.id).duel :=
    hway.apart (apart_beside rfl) hstill fun _ ht => ht
  have hkept : Alone r.id (x.2.awaiting r.id).duel :=
    ⟨⟨fun k hk => (Option.some.inj hk).symm, halone.callers⟩, halone.others⟩
  refine ⟨r, rfl, ?_, congrArg Reply.flag hreply, hid, ⟨hstill, hwaiting.proper,
    Or.inl ⟨_, hwaiting, hkept, rfl⟩⟩, hwaiting, hkept⟩
  rw [← h.standing]
  rfl

/-- Before every turn a run of the player to move is accepted, and can be waited for. -/
theorem away_execute (h : Settled g s c.duel) (hpoised : Poised c.duel) (hp : c.duel.phase ≠ .over)
    (hread : Reads g.scripts programs) (l : Listener M) :
    let x := c.request l (.execute c.duel.current)
    ∃ r : Accepted, r.setting = g ∧ r.standing = s.turn programs ∧ x.1 = .flag true ∧
      x.2.duel.execution = some r.id ∧ Away r (x.2.awaiting r.id).duel ∧
      ∃ program, Underway r program (x.2.awaiting r.id).duel ∧
        Unhindered r.id (x.2.awaiting r.id).duel := by
  intro x
  have hreads : Reads c.duel.scripts programs := by
    rw [show c.duel.scripts = g.scripts from congrArg Setting.scripts (h.going hp).2.2]
    exact hread
  obtain ⟨r, hsetting, hstanding, hreply, hid, haway, hway, halone⟩ :=
    away_accepted h hpoised hp (hreads.program? c.duel.current) l
  refine ⟨r, hsetting, ?_, hreply, hid, haway, _, hway, halone.toUnhindered⟩
  rw [show c.duel.current = s.current from congrArg Standing.current h.standing] at hstanding
  exact congrArg Prod.snd hstanding

theorem unasked_of_steps {hs : List Happening} (h : ∀ x ∈ hs, x = .step ∨ x = .wake) :
    ∀ x ∈ hs, x.isRequest = false := by
  intro x hx
  rcases h x hx with rfl | rfl <;> rfl

/-- What ends with something that the rest has not ends before the rest. -/
theorem prefix_of_concat_prefix {α : Type} {x : α} {before as rest : List α}
    (h : before ++ [x] <+: as ++ rest) (hx : x ∉ rest) : before ++ [x] <+: as := by
  rcases List.prefix_or_prefix_of_prefix h (List.prefix_append as rest) with h' | ⟨more, heq⟩
  · exact h'
  · cases more using List.reverseRecOn with
    | nil => exact ⟨[], by simpa using heq.symm⟩
    | append_singleton more y =>
      rw [← List.append_assoc] at heq
      obtain ⟨-, rfl⟩ := List.append_inj' heq rfl |>.imp_right List.singleton_inj.mp
      rw [← heq, List.append_assoc] at h
      have hrest := (List.prefix_append_right_inj as).mp h
      exact absurd (hrest.subset (by simp)) hx

/-- A run whose pauses can be kept comes to its end, and then it is the caller's turn. Nothing but
the run is woken until then. -/
theorem away_arrives (hl : Mute seen l) (hmanual : r.continuous = false)
    (hf : r.timing.stepDelay.fitsReal) (hphase : r.standing.phase ≠ .executing)
    (h : Away r c.duel) (hway : Underway r program c.duel) (hu : Unhindered r.id c.duel) :
    ∃ hs, (∀ y ∈ hs, y = .step ∨ y = .wake) ∧ (c.after l hs).CallsBack ∧
      (c.after l hs).duel.phase ≠ .executing ∧
      ∀ before, before ++ [.wake] <+: hs →
        ∃ later, Underway r later (c.after l before).duel ∧ Alone r.id (c.after l before).duel := by
  obtain ⟨hs, hsteps, hunhindered, hfinished⟩ :=
    underway_finishes (passive_tell hl) hmanual hf hway hu
  have hafter := away_after hl hmanual h (unasked_of_steps (steps_concat hsteps))
  obtain ⟨hhome, -⟩ := hafter.course.resolve_left fun ⟨later, hlater, _⟩ => by
    cases hfinished.gone.symm.trans hlater.pending
  obtain ⟨hs', hsteps', hcalls, hapart⟩ := home_arrives l hhome
  rw [← after_append, List.append_assoc] at hcalls hapart
  refine ⟨hs ++ ([.step] ++ hs'), fun y hy => ?_, hcalls, ?_, fun before hbefore => ?_⟩
  · rcases List.mem_append.mp hy with hy | hy
    · exact hsteps y hy
    · rcases List.mem_cons.mp hy with rfl | hy
      · exact Or.inl rfl
      · exact Or.inl (hsteps' y hy)
  · rw [hapart.phase]
    exact fun hbusy => hphase ((congrArg Standing.phase hfinished.standing).symm.trans hbusy)
  · have hrest : Happening.wake ∉ [Happening.step] ++ hs' := by
      rintro hmem
      rcases List.mem_cons.mp hmem with hmem | hmem
      · cases hmem
      · cases hsteps' _ hmem
    obtain ⟨behind, rfl⟩ := prefix_of_concat_prefix hbefore hrest
    rw [List.append_assoc] at hsteps hunhindered
    have hunasked := unasked_of_steps hsteps
    have hthere : Away r (c.after l before).duel :=
      away_after hl hmanual h fun y hy => hunasked y (List.mem_append_left _ hy)
    rcases hthere.course with ⟨later, hlater, halone, -⟩ | ⟨hhome, -⟩
    · exact ⟨later, hlater, halone⟩
    · have hkept := home_after (l := l) hhome fun y hy => hunasked y (List.mem_append_right _ hy)
      rw [← after_append] at hkept
      obtain ⟨ahead, caller, last, hqueue, hcaller, -⟩ := hkept.queue
      refine absurd hcaller (hunhindered.callers caller ((Schedule.mem_tasks _ _).mpr (Or.inl ?_)))
      rw [hqueue]
      exact List.mem_append_right _ (List.mem_cons_self ..)

/-- A match that is stepped from outside: again and again a run of the player to move is accepted,
and somebody waits until its task has ended and it is their turn. -/
inductive Stepping (l : Listener M) (c : Coordinator M) : Nat → Coordinator M → Prop where
  | start : Stepping l c 0 (c.request l .start).2
  | run {n id : Nat} {x y : Coordinator M} {hs : List Happening} (before : Stepping l c n x)
      (accepted : x.request l (.execute x.duel.current) = (.flag true, y))
      (execution : y.duel.execution = some id) (unasked : ∀ h ∈ hs, h.isRequest = false)
      (clock : (y.awaiting id).OnClock l hs)
      (called : ((y.awaiting id).after l hs).CallsBack)
      (ended : ((y.awaiting id).after l hs).duel.phase ≠ .executing) :
      Stepping l c (n + 1) ((y.awaiting id).after l hs).takeCaller

variable {arena : Arena} {timing : Timing} {scripts : Duo Json} {memory : M}

/-- A match that nobody is in yet stands as the rules say once it has been started. -/
theorem settled_opening (hl : Mute seen l) (h : Still c.duel) (hproper : c.duel.arena.Proper)
    (hs : c.duel.started = false) (hmanual : c.duel.continuous = false)
    (hn : c.duel.timer = none) (ha : c.duel.awaited = none) (hoff : Deserted c.duel) :
    let x := (c.request l .start).2
    Settled ⟨false, c.duel.timing, c.duel.scripts⟩ c.duel.standing.opening x.duel ∧
      Poised x.duel := by
  intro x
  have hstill : Still x.duel := h.moves (moves_request l .start c)
  have hproper' : x.duel.arena.Proper := proper_happen hl h hproper (.request .start)
  obtain ⟨journal, journal', hstanding, heq⟩ := start_eq (c := c) (passive_tell hl) hs
  let opened : Duel := { c.duel.opened with
    arena := (c.duel.arena.promote .a).value, journal }
  have hpoised : Poised opened.startTimer := Deserted.startTimer (d := opened) hoff ha hn
  have hduel : x.duel = { opened.startTimer with
      log := c.duel.log.record (.turnChanged .a), journal := journal' } := by
    refine Eq.trans heq (autoExecute_manual ?_)
    exact hmanual
  rw [hduel] at hstill hproper' ⊢
  refine ⟨⟨hstill, hstanding, hproper', fun _ => ⟨rfl, rfl, ?_⟩⟩, hpoised.awaited, hpoised.meek⟩
  exact congrArg (fun on => Setting.mk on c.duel.timing c.duel.scripts) hmanual

/-- A match that has just been started stands as the rules say. -/
theorem settled_start (hl : Mute seen l) (ha : arena.Proper) (timing : Timing)
    (scripts : Duo Json) (memory : M) :
    let x := ((fresh arena timing scripts memory).request l .start).2
    Settled ⟨false, timing, scripts⟩ (.first arena) x.duel ∧ Poised x.duel :=
  settled_opening (c := fresh arena timing scripts memory) hl (still_fresh arena timing scripts) ha
    rfl rfl rfl rfl nofun

/-- After every step the match stands as after so many turns by the rules. -/
theorem stepping_settled (hl : Mute seen l) (ha : arena.Proper) (hread : Reads scripts programs)
    {n : Nat} {x : Coordinator M} (h : Stepping l (fresh arena timing scripts memory) n x) :
    Settled ⟨false, timing, scripts⟩ ((Standing.first arena).turns programs n) x.duel ∧
      Poised x.duel ∧ (Standing.first arena).Lasts programs n := by
  induction h with
  | start =>
    obtain ⟨hsettled, hpoised⟩ := settled_start hl ha _ _ _
    exact ⟨hsettled, hpoised, nofun⟩
  | @run n id x y hs before accepted execution unasked clock called ended ih =>
    obtain ⟨hsettled, hpoised, hlasts⟩ := ih
    have hp : x.duel.phase ≠ .over := by
      intro hover
      obtain ⟨message, hrefused⟩ := execute_busy (Or.inr hover) x.duel.current
      have hreply : (x.request l (.execute x.duel.current)).1 = .flag false :=
        congrArg (fun y : Bool × Duel => Reply.flag y.1) hrefused
      rw [accepted] at hreply
      cases hreply
    obtain ⟨r, hsetting, hstanding, -, hid, haway, -⟩ :=
      away_execute hsettled hpoised hp hread l
    rw [accepted] at hid haway
    cases execution.symm.trans hid
    have hmanual : r.continuous = false := congrArg Setting.continuous hsetting
    obtain ⟨hsettled', hpoised'⟩ := (away_after hl hmanual haway unasked).called called ended
    rw [hsetting, hstanding] at hsettled'
    refine ⟨hsettled', hpoised', hlasts.succ ?_⟩
    rw [← hsettled.standing]
    exact (hsettled.going hp).1

/-- No sleeper has been called off. -/
theorem awake_after {hs : List Happening}
    (h : ∀ s ∈ c.duel.schedule.asleep, s.task.cancelled = false) :
    ∀ s ∈ (c.after l hs).duel.schedule.asleep, s.task.cancelled = false :=
  after_keeps (P := fun d => ∀ s ∈ d.schedule.asleep, s.task.cancelled = false)
    (fun hg h => hg.sleepers (P := fun t => t.cancelled = false) (fun _ _ _ => rfl) h) l c hs h

/-- After every step the clock shows a finite time. -/
theorem stepping_clock {n : Nat} {x : Coordinator M}
    (h : Stepping l (fresh arena timing scripts memory) n x) :
    x.duel.schedule.now.isFinite ∧ ∀ s ∈ x.duel.schedule.asleep, s.task.cancelled = false := by
  induction h with
  | start =>
    let c : Coordinator M := fresh arena timing scripts memory
    have hm := moves_request l .start c
    refine ⟨?_, fun s hs => absurd (hm.asleep hs) (by simp [c, fresh, Duel.fresh])⟩
    rw [hm.now]
    exact (clocked_fresh (fun _ => true) arena timing scripts).now
  | @run n id x y hs before accepted execution unasked clock called ended ih =>
    have hm := moves_request l (.execute x.duel.current) x
    rw [accepted] at hm
    exact ⟨clock hs (List.prefix_refl hs),
      awake_after (c := y.awaiting id) fun s hs => ih.2 s (hm.asleep hs)⟩

/-- Until the match is over it can be stepped on, if the pauses of the next run are short and its
actions can be carried out. -/
theorem stepping_goes_on (hl : Mute seen l) (ha : arena.Proper) (hread : Reads scripts programs)
    (hshort : timing.stepDelay.isShort) {n : Nat} {x : Coordinator M}
    (h : Stepping l (fresh arena timing scripts memory) n x) (hp : x.duel.phase ≠ .over)
    (hnext : (x.duel.standing.turn programs).phase ≠ .executing) :
    ∃ x', Stepping l (fresh arena timing scripts memory) (n + 1) x' := by
  obtain ⟨hsettled, hpoised, -⟩ := stepping_settled hl ha hread h
  obtain ⟨hnow, hlive⟩ := stepping_clock h
  obtain ⟨hidle, hstarted, -⟩ := hsettled.going hp
  let y := (x.request l (.execute x.duel.current)).2
  obtain ⟨r, hsetting, hstanding, hreply, hid, haway, program, hway, hunhindered⟩ :=
    away_execute hsettled hpoised hp hread l
  have hmanual : r.continuous = false := congrArg Setting.continuous hsetting
  have htiming : r.timing = timing := congrArg Setting.timing hsetting
  rw [← htiming] at hshort
  rw [hsettled.standing, ← hstanding] at hnext
  obtain ⟨hs, hsteps, hcalls, hrest, hwakes⟩ := away_arrives hl hmanual
    (Quantity.fitsReal_of_isShort hshort) hnext haway hway hunhindered
  have hnobody : y.duel.schedule.asleep = [] := by
    obtain ⟨message, hexecute⟩ := execute_accepted hstarted (Or.inl hidle)
    have hnoted : Poised { x.duel.note .debug message with phase := .executing } :=
      ⟨hpoised.awaited, hpoised.meek⟩
    have hduel : y.duel = ({ x.duel.note .debug message with phase := .executing }.accept
        x.duel.current) := congrArg Prod.snd hexecute
    rw [hduel]
    exact hnoted.asleep_accept ⟨hsettled.nodup, hsettled.known⟩ hlive x.duel.current
  have hclocked : Clocked (fun job => job.player?.isSome) (y.awaiting r.id).duel := by
    have hm : Moves x.duel y.duel := moves_request l (.execute x.duel.current) x
    refine ⟨hm.now.symm ▸ hnow, fun s hs => ?_⟩
    have hs : s ∈ y.duel.schedule.asleep := hs
    rw [hnobody] at hs
    cases hs
  have hclock := (clocked_steps (l := l) (fun job hrests hkind => ?_) hclocked hsteps
    fun before hbefore => ?_).1
  · exact ⟨_, .run h (Prod.ext hreply rfl) hid (unasked_of_steps hsteps) hclock hcalls hrest⟩
  · have hsame : (y.awaiting r.id).duel.timing = r.timing := hway.timing
    rw [hsame]
    cases job with
    | act p rest executed => exact hshort
    | _ => simp [Job.player?, Job.rests] at hkind hrests
  · obtain ⟨later, hlater, halone⟩ := hwakes before hbefore
    refine halone.sleepers hlater (awake_after (c := y.awaiting r.id) fun s hs => ?_)
    have hs : s ∈ y.duel.schedule.asleep := hs
    rw [hnobody] at hs
    cases hs

/-- If the pauses of its runs are short, a match can be stepped as far as the rules lead. -/
theorem stepping_reaches (hl : Mute seen l) (ha : arena.Proper) (hread : Reads scripts programs)
    (hshort : timing.stepDelay.isShort) {n : Nat} (hlasts : (Standing.first arena).Lasts programs n)
    (hlast : ((Standing.first arena).turns programs n).phase ≠ .executing) :
    ∃ x, Stepping l (fresh arena timing scripts memory) n x := by
  induction n with
  | zero => exact ⟨_, .start⟩
  | succ n ih =>
    have hidle := hlasts n (Nat.lt_succ_self n)
    obtain ⟨x, h⟩ := ih (fun m hm => hlasts m (Nat.lt_succ_of_lt hm)) (by simp [hidle])
    have hstanding := (stepping_settled hl ha hread h).1.standing
    have hphase : x.duel.phase = .idle := (congrArg Standing.phase hstanding).trans hidle
    refine stepping_goes_on hl ha hread hshort h (by simp [hphase]) ?_
    rw [hstanding]
    exact hlast

end Coordinator

end MazeDuel.Turn
