import MazeDuel.Proofs.Turn.Pending
import MazeDuel.Proofs.Turn.Wakeful
/-!
Continuous play waits for no player. A lull, in which the player to move of a match in continuous
play may edit, is never brought about by a request: whatever makes one possible starts a run at
once. Only a run on its way to its pause leaves one behind, and no timer counts in it.
-/

namespace MazeDuel.Turn

namespace Duel

/-- Whether a match in continuous play leaves it to the player to move to go on. -/
structure Lull (d : Duel) : Prop where
  started : d.started = true
  continuous : d.continuous = true
  idle : d.phase = .idle ∨ d.phase = .editing

/-- No lull comes about between two states: what is one now has been one before, with the same
timer and the same tasks. -/
def NoLull (d d' : Duel) : Prop :=
  d'.Lull → d.Lull ∧ d'.timer = d.timer ∧ d'.schedule = d.schedule

theorem NoLull.refl (d : Duel) : NoLull d d := fun h => ⟨h, rfl, rfl⟩

theorem NoLull.trans {d d' d'' : Duel} (h : NoLull d d') (h' : NoLull d' d'') : NoLull d d'' := by
  intro hl
  obtain ⟨hl, htimer, hschedule⟩ := h' hl
  obtain ⟨hl, htimer', hschedule'⟩ := h hl
  exact ⟨hl, htimer.trans htimer', hschedule.trans hschedule'⟩

/-- Nothing differs that a lull depends on. -/
theorem NoLull.frame {d d' : Duel} (hstarted : d'.started = d.started)
    (hcontinuous : d'.continuous = d.continuous) (hphase : d'.phase = d.phase)
    (htimer : d'.timer = d.timer) (hschedule : d'.schedule = d.schedule) : NoLull d d' :=
  fun h => ⟨⟨hstarted ▸ h.started, hcontinuous ▸ h.continuous, hphase ▸ h.idle⟩, htimer, hschedule⟩

theorem Lull.not_busy {d : Duel} (h : d.Lull) : d.isBusy = false := (isBusy_eq_false d).mpr h.idle

theorem not_lull_of_busy {d : Duel} (h : d.isBusy = true) : ¬ d.Lull :=
  fun hl => Bool.false_ne_true (hl.not_busy.symm.trans h)

theorem noLull_of_not {d d' : Duel} (h : ¬ d'.Lull) : NoLull d d' := fun hl => absurd hl h

theorem noLull_note (d : Duel) (level : Level) (message : String) :
    NoLull d (d.note level message) :=
  .frame rfl rfl rfl rfl rfl

theorem noLull_setArena (d : Duel) (x : Logged Arena) : NoLull d (d.setArena x) :=
  .frame rfl rfl rfl rfl rfl

theorem noLull_setScript (d : Duel) (p : Player) (script : Json) :
    NoLull d (d.setScript p script).2 := by
  unfold setScript
  rcases d.accepts_cases p "set_script" with ⟨h, -, -⟩ | ⟨message, h⟩
  · rw [h]
    dsimp only
    split
    · exact noLull_note _ _ _
    · split <;> exact .frame rfl rfl rfl rfl rfl
  · rw [h]
    exact noLull_note _ _ _

/-- A change between thinking and editing leaves a lull what it is. -/
theorem noLull_edit {d : Duel} {phase : Phase} (h : d.phase = .idle ∨ d.phase = .editing)
    (message : String) : NoLull d { d.note .debug message with phase } :=
  fun hl => ⟨⟨hl.started, hl.continuous, h⟩, rfl, rfl⟩

theorem noLull_beginEditing (d : Duel) (p : Player) : NoLull d (d.beginEditing p).2 := by
  unfold beginEditing
  rcases d.accepts_cases p "begin_editing" with ⟨h, -, -⟩ | ⟨message, h⟩
  · rw [h]
    rcases d.fire_cases .beginEdit with ⟨-, m, hf⟩ | ⟨phase, m, hn, hf⟩
    · simp only [hf]
      exact noLull_note _ _ _
    · simp only [hf]
      refine noLull_edit (Or.inl ?_) m
      cases hd : d.phase <;> simp_all [Phase.next?]
  · rw [h]
    exact noLull_note _ _ _

/-- A run that is accepted ends a lull. -/
theorem not_lull_accept {d : Duel} (h : d.phase = .executing) (p : Player) :
    ¬ (d.accept p).Lull :=
  not_lull_of_busy (by simp [isBusy, accept, cancelTimer, remember, h])

theorem noLull_execute (d : Duel) (p : Player) : NoLull d (d.execute p).2 := by
  unfold execute
  split
  · exact noLull_note _ _ _
  · rcases d.accepts_cases p "request_execute" with ⟨h, -, -⟩ | ⟨message, h⟩
    · rw [h]
      rcases d.fire_cases .execute with ⟨-, m, hf⟩ | ⟨phase, m, hn, hf⟩
      · simp only [hf]
        exact noLull_note _ _ _
      · simp only [hf]
        exact noLull_of_not (not_lull_accept (Phase.next?_execute hn).2 p)
    · rw [h]
      exact noLull_note _ _ _

/-- In a lull the player to move is let run. -/
theorem Lull.execute {d : Duel} (h : d.Lull) : (d.execute d.current).2.phase = .executing := by
  have ho : d.isOver = false := by rcases h.idle with hp | hp <;> simp [isOver, hp]
  have hnext : d.phase.next? .execute = some .executing := by
    rcases h.idle with hp | hp <;> rw [hp] <;> rfl
  simp [Duel.execute, h.started, accepts, ho, fire, hnext, accept, cancelTimer, remember]

/-- After an automatic execution there is no lull, whatever was before. -/
theorem not_lull_autoExecute (d : Duel) : ¬ d.autoExecute.Lull := by
  unfold autoExecute
  split
  · rename_i hc
    simp only [Bool.and_eq_true, Bool.or_eq_true, beq_iff_eq] at hc
    have hl : d.Lull := ⟨hc.1.2, hc.1.1, hc.2⟩
    exact not_lull_of_busy (by simp [isBusy, hl.execute])
  · rename_i hc
    intro hl
    have hp : (d.phase == .idle || d.phase == .editing) = true := by simpa using hl.idle
    exact hc (by simp [hl.continuous, hl.started, hp])

theorem noLull_endEditing (d : Duel) (p : Player) : NoLull d (d.endEditing p).2 := by
  unfold endEditing
  rcases d.accepts_cases p "end_editing" with ⟨h, -, -⟩ | ⟨message, h⟩
  · rw [h]
    rcases d.fire_cases .endEdit with ⟨-, m, hf⟩ | ⟨phase, m, hn, hf⟩
    · simp only [hf]
      exact noLull_note _ _ _
    · simp only [hf]
      exact noLull_of_not (not_lull_autoExecute _)
  · rw [h]
    exact noLull_note _ _ _

theorem noLull_setContinuous (d : Duel) (on : Bool) : NoLull d (d.setContinuous on) := by
  unfold setContinuous
  split
  · exact noLull_note _ _ _
  · exact noLull_of_not (not_lull_autoExecute _)

theorem not_lull_beginTurn (d : Duel) : ¬ d.beginTurn.Lull := by
  unfold beginTurn
  split
  · exact not_lull_of_busy ‹_›
  · exact not_lull_autoExecute _

end Duel

namespace Coordinator

open Duel

variable {M : Type} {tell : Notification → Coordinator M → Coordinator M}

/-- A way to tell that brings about no lull. -/
def Rouses (tell : Notification → Coordinator M → Coordinator M) : Prop :=
  ∀ n c, NoLull c.duel (tell n c).duel

theorem noLull_start (tell : Notification → Coordinator M → Coordinator M) (c : Coordinator M) :
    NoLull c.duel (c.start tell).duel := by
  unfold start
  split
  · exact noLull_note _ _ _
  · exact noLull_of_not (not_lull_autoExecute _)

theorem noLull_endMatch (ht : Rouses tell) (winner : Player) (reason : GameResult)
    (c : Coordinator M) : NoLull c.duel (c.endMatch tell winner reason).duel := by
  unfold endMatch
  rcases c.duel.fire_cases .endMatch with ⟨-, m, hf⟩ | ⟨phase, m, hn, hf⟩
  · simp only [onDuel, hf]
    exact noLull_note _ _ _
  · simp only [onDuel, hf]
    -- the match is over when the listener hears of its end
    refine NoLull.trans (noLull_of_not ?_) ((ht _ _).trans (.frame rfl rfl rfl rfl rfl))
    rintro ⟨-, hc, -⟩
    cases hc

theorem noLull_shootAt (ht : Rouses tell) (p : Player) (cell : Place) (c : Coordinator M) :
    NoLull c.duel (c.shootAt tell p cell).2.duel := by
  have hfired : NoLull c.duel (c.onDuel (·.onArena (·.shootAt p cell))).2.duel :=
    noLull_setArena c.duel _
  rcases shootAt_cases tell p cell c with ⟨fault, -, heq⟩ | ⟨result, -, heq⟩
  · rw [heq]
    exact hfired
  · have htold := hfired.trans (ht (.shot result) _)
    rw [heq]
    dsimp only
    split
    · exact htold.trans (noLull_endMatch ht _ _ _)
    · exact htold

theorem noLull_handle (ht : Rouses tell) (r : Request) (c : Coordinator M) :
    NoLull c.duel (c.handle tell r).2.duel := by
  cases r with
  | start => exact noLull_start tell c
  | setScript p script =>
    have h := noLull_setScript c.duel p script
    simp only [handle, onDuel]
    split <;> exact h
  | beginEditing p => exact noLull_beginEditing c.duel p
  | endEditing p => exact noLull_endEditing c.duel p
  | execute p => exact noLull_execute c.duel p
  | setContinuous on => exact noLull_setContinuous c.duel on
  | toggleContinuous => exact noLull_setContinuous c.duel _
  | lost p => exact noLull_endMatch ht _ _ c
  | exited p => exact noLull_endMatch ht _ _ c
  | shootAt p cell =>
    rw [handle_shootAt]
    exact noLull_shootAt ht p cell c
  | tryMove p dir => exact noLull_setArena c.duel _
  | radarFor p => exact noLull_setArena c.duel _
  | position p => exact .refl _
  | facing p => exact .refl _

theorem noLull_perform (ht : Rouses tell) (plan : Plan M) (c : Coordinator M) :
    NoLull c.duel (plan.perform (handle tell) c).duel := by
  induction plan generalizing c with
  | stop => exact .refl _
  | look next ih => exact ih _ _ c
  | keep memory next ih => exact ih { c with memory }
  | ask r next ih => exact (noLull_handle ht r c).trans (ih _ _)

theorem noLull_logEvent (c : Coordinator M) (n : Notification) :
    NoLull c.duel (c.logEvent n).duel :=
  .frame rfl rfl rfl rfl rfl

theorem rouses_tellAt (l : Listener M) (depth : Nat) : Rouses (l.tellAt depth) := by
  induction depth with
  | zero => exact fun n c => noLull_logEvent c n
  | succ depth ih => exact fun n c => (noLull_logEvent c n).trans (noLull_perform ih (l.plan n) _)

theorem rouses_tell (l : Listener M) : Rouses l.tell := rouses_tellAt l l.depth

end Coordinator

namespace Duel

/-- In a lull no timer counts, and a run is in its pause if the pause can be kept. -/
def Minded (d : Duel) : Prop :=
  d.Lull → d.timer = none ∧ (d.timing.turnDelay.fitsReal → d.Expects Job.isPause)

theorem minded_of_not {d : Duel} (h : ¬ d.Lull) : Minded d := fun hl => absurd hl h

theorem Minded.moved {d d' : Duel} (h : Minded d) (hm : Moves d d') (hn : NoLull d d') :
    Minded d' := by
  intro hl
  obtain ⟨hl, htimer, hschedule⟩ := hn hl
  obtain ⟨hnone, hpause⟩ := h hl
  refine ⟨htimer.trans hnone, fun hf => ?_⟩
  obtain ⟨t, ht, hrest⟩ := hpause (hm.timing ▸ hf)
  exact ⟨t, hschedule ▸ ht, hrest⟩

/-- The end of a task is the end of no pause. -/
theorem Minded.endTask {d : Duel} (h : Minded d) (id : Nat) (outcome : Outcome) :
    Minded (d.endTask id outcome) := by
  obtain ⟨schedule, awaited, heq⟩ := endTask_eq d id outcome
  have htasks (t : Task Job) : t ∈ d.schedule.tasks → t ∈ schedule.tasks := by
    have hmem := mem_tasks_endTask (t := t) (d := d) id outcome
    rwa [heq] at hmem
  rw [heq]
  intro hl
  obtain ⟨hnone, hpause⟩ := h ⟨hl.started, hl.continuous, hl.idle⟩
  exact ⟨hnone, fun hf => (hpause hf).mono htasks⟩

theorem Minded.stop {d : Duel} (h : Minded d) : Minded { d with running := none } :=
  fun hl => h ⟨hl.started, hl.continuous, hl.idle⟩

theorem not_lull_endTask {d : Duel} (h : ¬ d.Lull) (id : Nat) (outcome : Outcome) :
    ¬ (d.endTask id outcome).Lull := by
  obtain ⟨schedule, awaited, heq⟩ := endTask_eq d id outcome
  rw [heq]
  exact fun hl => h ⟨hl.started, hl.continuous, hl.idle⟩

theorem not_lull_rest {d : Duel} (h : ¬ d.Lull) (id : Nat) (job : Job) (delay : Quantity) :
    ¬ (d.rest id job delay).Lull := by
  obtain ⟨schedule, awaited, outcomes, heq⟩ := d.rest_beside id job delay
  rw [heq]
  exact fun hl => h ⟨hl.started, hl.continuous, hl.idle⟩

theorem Quiet.not_lull {d d' : Duel} (hq : Quiet d d') (h : ¬ d.Lull) : ¬ d'.Lull := by
  obtain ⟨_, _, _, _, _, rfl⟩ := hq
  exact fun hl => h ⟨hl.started, hl.continuous, hl.idle⟩

/-- A run in its pause goes with no timer. -/
theorem minded_paused {d : Duel} (h : d.timer = none) (id : Nat) (result : ExecutionResult) :
    Minded (d.rest id (.pause result) d.timing.turnDelay) := by
  intro hl
  by_cases hf : d.timing.turnDelay.fitsReal
  · rw [rest_eq hf]
    refine ⟨h, fun _ => ⟨⟨id, .pause result, false⟩, ?_, rfl, rfl⟩⟩
    exact (Schedule.mem_tasks_rest _ _ _ _ _).mpr (Or.inl rfl)
  · obtain ⟨schedule, awaited, heq⟩ := endTask_eq d id (.failed .numberTooLarge)
    rw [rest_long hf, heq]
    exact ⟨h, fun hf' => absurd hf' hf⟩

/-- After an action its run is unfinished still, however the action went. -/
theorem Engaged.not_lull_acted {id : Nat} {job : Job} {d e d'' : Duel} {p : Player} {a : Action}
    {later : List Action} {executed : List String} (h : Engaged id job d)
    (hp : d.program? job = some (p, a :: later, executed)) (hover : d.phase ≠ .over)
    (hq : Quiet d e) (hm : Moves (e.remember (.began id a d.phase d.current)) d'') :
    ¬ d''.Lull := by
  intro hl
  have ho : Orderly d'' := (h.began hp hover hq).moves hm
  have hmem : (id, p) ∈ Deed.unfinished d''.deeds :=
    hm.unfinished (hq.moves.unfinished (h.mem_unfinished hp))
  rw [ho.free hl.idle] at hmem
  cases hmem

/-- A step leaves no lull but that of a run in its pause. -/
theorem Engaged.minded {id : Nat} {job : Job} {d d' : Duel} (h : Engaged id job d)
    (htimer : job.isTimer → ¬ d.Lull) (hw : Work id job d d') :
    Minded { d' with running := none } := by
  -- while a run is unfinished, a script may run or the match is over
  have hrun {p : Player} (hp : job.player? = some p) : ¬ d.Lull := by
    refine fun hl => ?_
    have hmem := h.player p hp
    rw [h.free hl.idle] at hmem
    cases hmem
  have hprogram {x : Player × List Action × List String} (hp : d.program? job = some x) :
      ¬ d.Lull := hrun (program?_own hp).1
  refine Minded.stop ?_
  cases hw with
  | unread fault hp hq => exact minded_of_not (not_lull_endTask (hq.not_lull (hrun rfl)) _ _)
  | acted hp hover hq hm =>
    exact minded_of_not (not_lull_rest (h.not_lull_acted hp hover hq hm) _ _ _)
  | broke hp hover hf hq hm =>
    exact minded_of_not (not_lull_endTask (h.not_lull_acted hp hover hq hm) _ _)
  | stopped result hp hover hq =>
    exact minded_of_not (not_lull_endTask (hq.not_lull (hprogram hp)) _ _)
  | closed result hp hover hq hm hc =>
    exact minded_of_not (not_lull_endTask (not_lull_beginTurn _) _ _)
  | @paused _ _ e d'' p executed result hp hover hq hm hc =>
    obtain ⟨m, heq, -, hnone⟩ := h.closeRun hp hover hq
    rw [heq] at hm
    have hs : (e.closed id m).passTurn.started = true := hq.moves.started h.started
    exact minded_paused (d := d''.remember _) (hm.untimed hs hnone) id result
  | woke _ result => exact minded_of_not (not_lull_endTask (not_lull_beginTurn _) _ _)
  | uncounted hf => exact minded_of_not (not_lull_endTask (htimer rfl) _ _)
  | counted hf => exact minded_of_not (not_lull_rest (htimer rfl) _ _ _)
  | ticked hp hq => exact minded_of_not (not_lull_rest (hq.not_lull (htimer rfl)) _ _ _)
  | late hp hover hq => exact minded_of_not (not_lull_endTask (hq.not_lull (htimer rfl)) _ _)
  | expired hp hi hq hm => exact minded_of_not (not_lull_endTask (not_lull_beginTurn _) _ _)

theorem Minded.stepped {d d' : Duel} (h : Minded d) (ho : Resting d) (hs : Stepped d d') :
    Minded d' := by
  cases hs with
  | @dropped t ready hr hc =>
    have htaken : Minded (d.taken t ready) := by
      intro hl
      obtain ⟨hnone, hpause⟩ := h ⟨hl.started, hl.continuous, hl.idle⟩
      exact ⟨hnone, fun hf => (hpause hf).taken hr (Or.inl hc)⟩
    exact (htaken.endTask _ _).stop
  | @worked t ready d' hr hc hw =>
    refine (ho.engaged hr hc).minded (fun hj hl => ?_) hw
    have hnone := (h ⟨hl.started, hl.continuous, hl.idle⟩).1
    cases hnone.symm.trans (ho.timers t (tasks_of_ready hr) hj hc)

end Duel

namespace Coordinator

open Duel

variable {M : Type} (l : Listener M)

theorem minded_happen {c : Coordinator M} (h : Minded c.duel) (ho : Resting c.duel)
    (x : Happening) : Minded (c.happen l x).duel := by
  cases x with
  | request r =>
    exact h.moved (moves_request l r c) (noLull_handle (rouses_tell l) r c)
  | step =>
    unfold happen
    cases hs : c.step? l.tell with
    | none => exact h
    | some c' => exact h.stepped ho (stepped_step? (tells_tell l) hs)
  | wake =>
    unfold happen wake?
    cases hs : c.duel.schedule.wake? with
    | none => exact h
    | some schedule =>
      intro hl
      obtain ⟨hnone, hpause⟩ := h ⟨hl.started, hl.continuous, hl.idle⟩
      exact ⟨hnone, fun hf => (hpause hf).mono fun t => (Schedule.tasks_wake? hs t).mpr⟩
  | clock now => exact fun hl => h ⟨hl.started, hl.continuous, hl.idle⟩

theorem minded_after (c : Coordinator M) (hs : List Happening) (h : Minded c.duel)
    (ho : Resting c.duel) : Minded (c.after l hs).duel := by
  induction hs generalizing c with
  | nil => exact h
  | cons x hs ih => exact ih _ (minded_happen l h ho x) (ho.goes (goes_happen l c x))

/-- Continuous play waits for no player. After every history of a match in continuous play that has
been started and is not over, no timer is pending, and either a script is running or some run is in
its pause, provided that the pause is a number of seconds that a clock can hold. So no step of a
timer passes the turn on. -/
theorem never_idle (arena : Arena) (timing : Timing) (scripts : Duo Json) (memory : M)
    (hs : List Happening) :
    let c := (fresh arena timing scripts memory).after l hs
    c.duel.started = true → c.duel.phase ≠ .over → c.duel.continuous = true →
      c.duel.pendingTimers = [] ∧
      (timing.turnDelay.fitsReal → c.duel.phase = .executing ∨
        ∃ t ∈ c.duel.schedule.tasks, t.cancelled = false ∧ t.job.isPause) ∧
      ∀ t ready, c.duel.schedule.ready = t :: ready → t.job.isTimer →
        (c.happen l .step).duel.turnNumber = c.duel.turnNumber := by
  intro c hstarted hover hcontinuous
  have ho : Resting c.duel := resting_after l arena timing scripts memory hs
  have hminded : Minded c.duel := by
    refine minded_after l _ hs (minded_of_not ?_) (resting_fresh arena timing scripts)
    exact fun hl => nomatch hl.started
  have htiming : c.duel.timing = timing :=
    after_keeps (P := fun d => d.timing = timing) timing_goes l _ hs rfl
  have htimely : Timely c.duel :=
    (after_keeps (P := fun d => Resting d ∧ Timely d)
      (fun hg h => ⟨h.1.goes hg, h.2.goes h.1 hg⟩) l _ hs
      ⟨resting_fresh arena timing scripts, timely_fresh arena timing scripts⟩).2
  have hcases : c.duel.phase = .executing ∨ c.duel.Lull := by
    cases hp : c.duel.phase with
    | executing => exact Or.inl rfl
    | idle => exact Or.inr ⟨hstarted, hcontinuous, Or.inl hp⟩
    | editing => exact Or.inr ⟨hstarted, hcontinuous, Or.inr hp⟩
    | _ => exact absurd hp hover
  have hnone : c.duel.pendingTimers = [] :=
    ho.toOrderly.pendingTimers_eq_nil
      (hcases.elim ho.toOrderly.timer_executing fun hl => (hminded hl).1)
  refine ⟨hnone, fun hf => ?_, fun t ready hr hj => ?_⟩
  · exact hcases.imp_right fun hl => (hminded hl).2 (htiming.symm ▸ hf)
  · have hcaller : t.job ≠ .caller := by
      intro heq
      rw [heq] at hj
      cases hj
    refine (htimely.turnNumber_stepped ho (stepped_happen l c hr hcaller) hr hj).trans (if_neg ?_)
    rintro ⟨-, hc⟩
    have hmem : t ∈ c.duel.pendingTimers :=
      mem_pendingTimers.mpr ⟨tasks_of_ready hr, hj, hc⟩
    rw [hnone] at hmem
    cases hmem

theorem first_pause_untimed :
    let d := (fieldMatch.after .silent (twoPauses.take 4)).duel
    d.phase = .idle ∧ d.pendingTimers = [] ∧
      ∃ t ∈ d.schedule.tasks, t.cancelled = false ∧ t.job.isPause := by
  intro d
  have hphase : d.phase = .idle := by decide +kernel
  obtain ⟨hnone, hgoes, -⟩ := never_idle .silent openField { turnDelay := .whole 1 } ⟨.null, .null⟩
    () (twoPauses.take 4) (by decide +kernel) (by decide +kernel) (by decide +kernel)
  refine ⟨hphase, hnone, (hgoes (by decide +kernel)).resolve_left fun hbusy => ?_⟩
  cases hphase.symm.trans hbusy

/-- A pause that no clock can hold is no pause: the first run ends without one, and the match waits
for the other player with nobody to go on with it. -/
theorem overlong_pause_idle :
    let timing : Timing := { turnDelay := .whole (10 ^ 400) }
    timing.check.toOption = some timing ∧
      let d := ((fresh openField timing ⟨.null, .null⟩ ()).after .silent (twoPauses.take 4)).duel
      d.started = true ∧ d.continuous = true ∧ d.phase = .idle ∧ d.schedule.tasks = [] := by
  intro timing
  refine ⟨by decide +kernel, ?_⟩
  intro d
  have htasks : d.schedule.tasks.isEmpty = true := by decide +kernel
  exact ⟨by decide +kernel, by decide +kernel, by decide +kernel, List.isEmpty_iff.mp htasks⟩

end Coordinator

end MazeDuel.Turn
