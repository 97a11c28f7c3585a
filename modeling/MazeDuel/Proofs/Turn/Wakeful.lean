import MazeDuel.Proofs.Turn.Moments
import MazeDuel.Proofs.Turn.OrderSteps
import Mathlib.Data.List.Infix
/-!
A match in play is never stuck: when nobody is ready, somebody sleeps who will go on with it. While
a script may run that is the run itself, and otherwise the timer or a run in its pause.
-/

namespace MazeDuel.Turn

namespace Job

/-- Whether a task goes on with the script that is running. -/
def isRun (job : Job) : Bool := job.player?.isSome

/-- Whether a task begins the next turn or ends the present one. -/
def isTurn (job : Job) : Bool := job.isTimer || job.isPause

end Job

/-- Whether all pauses can be kept and the edit time is a finite number of ticks. -/
structure Timing.Sound (t : Timing) : Prop where
  step : t.stepDelay.fitsReal
  turn : t.turnDelay.fitsReal
  tick : t.tick.fitsReal
  ratio : ∃ ratio, t.editLimit.ratio? t.tick = some ratio ∧ ratio.isFinite

theorem Timing.within_tickSlack :
    Number.Within Number.smallExponent tickSlack.toModel.unpack := by
  decide +kernel

/-- Then the ticks can be counted. -/
theorem Timing.Sound.count {t : Timing} (h : t.Sound) : ∃ total, t.ticks = .ok total := by
  obtain ⟨ratio, hratio, hfinite⟩ := h.ratio
  have hceiling := Number.ceiling_isSome (Number.isFinite_sub hfinite within_tickSlack)
  obtain ⟨n, hn⟩ := Option.isSome_iff_exists.mp hceiling
  exact ⟨(max 1 n).toNat, by simp [ticks, hratio, hn]⟩

namespace Duel

/-- Whether the scripts can be read as they stand now. -/
def Legible (d : Duel) : Prop := ∀ p, (d.program? (.begin p)).isSome

instance (d : Duel) : Decidable (Legible d) :=
  decidable_of_iff ((d.program? (.begin .a)).isSome ∧ (d.program? (.begin .b)).isSome)
    ⟨fun h p => by cases p <;> simp [h], fun h => ⟨h .a, h .b⟩⟩

/-- Whether the next step can be made as far as actions go: if it is to begin one, that does not
fail. -/
def able (d : Duel) : Bool :=
  match d.schedule.ready with
  | [] => true
  | t :: _ =>
    t.cancelled || d.isOver ||
      match d.program? t.job with
      | some (_, a :: _, _) => (d.arena.doing a).1.isOk
      | _ => true

theorem able_begins {d : Duel} (h : d.able) {t : Task Job} {ready : List (Task Job)}
    (hr : d.schedule.ready = t :: ready) (hc : t.cancelled = false) (hover : d.phase ≠ .over)
    {p : Player} {a : Action} {later : List Action} {executed : List String}
    (hp : d.program? t.job = some (p, a :: later, executed)) {fault : Fault} :
    (d.arena.doing a).1 ≠ .error fault := by
  intro hfault
  have hgoes : d.isOver = false := by simpa [isOver] using hover
  simp [able, hr, hc, hgoes, hp, hfault, Except.isOk, Except.toBool] at h

/-- Whether a task of some kind that has not been called off waits for a step. -/
def Expects (d : Duel) (kind : Job → Bool) : Prop :=
  ∃ t ∈ d.schedule.tasks, t.cancelled = false ∧ kind t.job

/-- Whether somebody goes on with a running script. -/
def Manned (d : Duel) : Prop := d.phase = .executing → d.Expects Job.isRun

/-- Whether somebody goes on with the match, once it has been started. -/
structure Tended (d : Duel) : Prop where
  manned : d.Manned
  turn : d.started = true → d.phase = .idle ∨ d.phase = .editing → d.Expects Job.isTurn

/-- Only runs, pauses and timers that count are asleep. -/
def Dormant (d : Duel) : Prop := ∀ x ∈ d.schedule.asleep, x.task.job.rests

theorem Expects.mono {d d' : Duel} {kind : Job → Bool} (h : d.Expects kind)
    (ht : ∀ t ∈ d.schedule.tasks, t ∈ d'.schedule.tasks) : d'.Expects kind := by
  obtain ⟨t, hmem, hrest⟩ := h
  exact ⟨t, ht t hmem, hrest⟩

theorem Expects.spawned {d : Duel} {s : Schedule Job} {job : Job} {kind : Job → Bool}
    (hd : d.schedule = (s.spawn job).2) (hj : kind job) : d.Expects kind := by
  refine ⟨{ id := s.fresh, job }, ?_, rfl, hj⟩
  rw [hd]
  exact (Schedule.mem_tasks_spawn _ _ _).mpr (Or.inl rfl)

/-- A task that was called off, or is of another kind, is not missed. -/
theorem Expects.taken {d : Duel} {t : Task Job} {ready : List (Task Job)} {kind : Job → Bool}
    (h : d.Expects kind) (hr : d.schedule.ready = t :: ready)
    (ht : t.cancelled = true ∨ kind t.job = false) : (d.taken t ready).Expects kind := by
  obtain ⟨u, hmem, hl, hk⟩ := h
  refine ⟨u, ?_, hl, hk⟩
  have hne : u ≠ t := by
    rintro rfl
    rcases ht with ht | ht <;> simp_all
  simp only [Schedule.tasks, hr, Duel.taken, List.cons_append, List.mem_cons] at hmem ⊢
  exact hmem.resolve_left hne

/-- When nobody is ready, whoever waits for a step is asleep. -/
theorem Expects.asleep {d : Duel} {kind : Job → Bool} (h : d.Expects kind)
    (hr : d.schedule.ready = []) :
    ∃ x ∈ d.schedule.asleep, x.task.cancelled = false ∧ kind x.task.job := by
  obtain ⟨t, hmem, hrest⟩ := h
  rcases (Schedule.mem_tasks _ _).mp hmem with ht | ⟨x, hx, rfl⟩
  · rw [hr] at ht
    cases ht
  · exact ⟨x, hx, hrest⟩

theorem mem_tasks_endTask {d : Duel} {t : Task Job} (id : Nat) (outcome : Outcome)
    (h : t ∈ d.schedule.tasks) : t ∈ (d.endTask id outcome).schedule.tasks := by
  unfold endTask
  dsimp only
  split
  · exact (Schedule.mem_tasks_spawn _ _ _).mpr (Or.inr h)
  · exact h

theorem Expects.rested {d : Duel} {kind : Job → Bool} {job : Job} {delay : Quantity}
    (hf : delay.fitsReal) (hk : kind job) (id : Nat) : (d.rest id job delay).Expects kind := by
  rw [rest_eq hf]
  exact ⟨{ id, job }, (Schedule.mem_tasks_rest _ _ _ _ _).mpr (Or.inl rfl), rfl, hk⟩

theorem Expects.rest {d : Duel} {kind : Job → Bool} {delay : Quantity} (h : d.Expects kind)
    (hf : delay.fitsReal) (id : Nat) (job : Job) : (d.rest id job delay).Expects kind := by
  rw [rest_eq hf]
  exact h.mono fun t ht => (Schedule.mem_tasks_rest _ _ _ _ t).mpr (Or.inr ht)

theorem Manned.moves {d d' : Duel} (hm : Moves d d') (h : Manned d) : Manned d' := by
  refine hm.keeps ?_ ?_ ?_ h
  · intro e e' hm he
    cases hm with
    | edit phase hp hp' =>
      intro hbusy
      have hphase : phase = .executing := hbusy
      rcases hp' with rfl | rfl <;> cases hphase
    | accept hs hp => exact fun _ => .spawned rfl rfl
    | opening arena journal hs => exact nofun
    | _ => exact he
  · exact fun winner reason journal hp hr he => nofun
  · exact fun he => he

/-- A request that stops a timer starts a run. -/
theorem Tended.moves {d d' : Duel} (hm : Moves d d') (h : Tended d) : Tended d' := by
  refine hm.keeps ?_ ?_ ?_ h
  · intro e e' hm he
    refine ⟨he.manned.moves hm.moves, ?_⟩
    cases hm with
    | edit phase hp hp' => exact fun hs _ => he.turn hs hp
    | accept hs hp => exact nofun
    | opening arena journal hs => exact fun _ _ => .spawned rfl rfl
    | _ => exact he.turn
  · exact fun winner reason journal hp hr he => ⟨nofun, nofun⟩
  · exact fun he => ⟨he.manned, he.turn⟩

theorem Dormant.goes {d d' : Duel} (hg : Goes d d') (h : Dormant d) : Dormant d' :=
  hg.sleepers (P := fun t => t.job.rests = true) (fun _ _ hj => hj) h

theorem Tended.endTask {d : Duel} (h : Tended d) (id : Nat) (outcome : Outcome) :
    Tended (d.endTask id outcome) := by
  obtain ⟨schedule, awaited, heq⟩ := endTask_eq d id outcome
  have htasks (t : Task Job) : t ∈ d.schedule.tasks → t ∈ schedule.tasks := by
    have hmem := mem_tasks_endTask (t := t) (d := d) id outcome
    rwa [heq] at hmem
  rw [heq]
  exact ⟨fun hp => (h.manned hp).mono htasks, fun hs hp => (h.turn hs hp).mono htasks⟩

theorem Tended.stop {d : Duel} (h : Tended d) : Tended { d with running := none } :=
  ⟨h.manned, h.turn⟩

/-- While a script may run or the match is over, the turn needs nobody else. -/
theorem Manned.tended {d : Duel} (h : Manned d) (hb : d.isBusy = true) : Tended d where
  manned := h
  turn _ hp := by
    rw [(isBusy_eq_false d).mpr hp] at hb
    cases hb

theorem tended_over {d : Duel} (h : d.phase = .over) : Tended d := by
  refine Manned.tended (fun hp => ?_) ?_
  · cases h.symm.trans hp
  · simp [isBusy, h]

theorem Manned.beginTurn {d : Duel} (h : Manned d) : Tended d.beginTurn := by
  rcases d.beginTurn_cases with ⟨hb, heq⟩ | ⟨hb, hm⟩
  · exact heq.symm ▸ h.tended hb
  · refine Tended.moves hm ⟨fun hp => ?_, fun _ _ => .spawned rfl rfl⟩
    have hphase : d.phase = .executing := hp
    have hi := (isBusy_eq_false d).mp hb
    rw [hphase] at hi
    simp at hi

/-- A pause or a timer that rests will begin the next turn. -/
theorem Manned.rest {d : Duel} (h : Manned d) {delay : Quantity} (hf : delay.fitsReal) (id : Nat)
    {job : Job} (hj : job.isTurn) : Tended (d.rest id job delay) := by
  have hturn : (d.rest id job delay).Expects Job.isTurn := .rested hf hj id
  rw [rest_eq hf] at hturn ⊢
  refine ⟨fun hp => ?_, fun _ _ => hturn⟩
  rw [← rest_eq hf]
  exact (h hp).rest hf id job

theorem manned_idle {d : Duel} (h : d.phase = .idle) : Manned d := by
  intro hp
  cases h.symm.trans hp

/-- After each way through a step somebody goes on with the match. Only the task that makes the step
may have been the one to do so before. -/
theorem Engaged.tended {id : Nat} {job : Job} {d d' : Duel} (h : Engaged id job d)
    (hmanned : job.isRun = false → Manned d) (ht : d.timing.Sound) (hl : Legible d)
    (hable : ∀ {p a later executed fault}, d.program? job = some (p, a :: later, executed) →
      d.phase ≠ .over → (d.arena.doing a).1 ≠ .error fault)
    (hw : Work id job d d') : Tended { d' with running := none } := by
  cases hw with
  | @unread p _ e fault hp hq =>
    have hread := hl p
    rw [hp] at hread
    cases hread
  | @acted _ _ e d'' p a later executed hp hover hq hm =>
    have ho : Orderly d'' := (h.began hp hover hq).moves hm
    have hmem : (id, p) ∈ Deed.unfinished d''.deeds :=
      hm.unfinished (hq.moves.unfinished (h.mem_unfinished hp))
    have hf : d''.timing.stepDelay.fitsReal := by
      rw [hm.timing.trans hq.moves.timing]
      exact ht.step
    -- the action may have ended the match; otherwise the run is still unfinished, so it executes
    by_cases hend : d''.phase = .over
    · rw [rest_eq hf]
      exact tended_over hend
    · have hbusy := (ho.executing_of_mem hmem hend).1
      refine (Manned.tended (fun _ => .rested hf rfl id) ?_).stop
      rw [rest_eq hf]
      simp [isBusy, hbusy]
  | broke hp hover hf => exact absurd hf (hable hp hover)
  | stopped result hp hover hq =>
    exact ((tended_over (hq.phase.trans hover)).endTask _ _).stop
  | @closed _ _ e d'' p executed result hp hover hq hm hc =>
    obtain ⟨m, heq, -, -⟩ := h.closeRun hp hover hq
    rw [heq] at hm
    have hd : Manned d'' := (manned_idle (d := (e.closed id m).passTurn) rfl).moves hm
    exact (hd.beginTurn.endTask _ _).stop
  | @paused _ _ e d'' p executed result hp hover hq hm hc =>
    obtain ⟨m, heq, -, -⟩ := h.closeRun hp hover hq
    rw [heq] at hm
    have hd : Manned d'' := (manned_idle (d := (e.closed id m).passTurn) rfl).moves hm
    have hpaused : Manned (d''.remember (.paused id d''.turnNumber)) := hd
    have hf : d''.timing.turnDelay.fitsReal := by
      have htiming : (e.closed id m).passTurn.timing = d.timing := hq.moves.timing
      rw [hm.timing, htiming]
      exact ht.turn
    exact (hpaused.rest hf id rfl).stop
  | woke _ result =>
    have hd : Manned (d.remember (.woke id d.turnNumber d.phase)) := hmanned rfl
    exact (hd.beginTurn.endTask _ _).stop
  -- a timer that fails would leave the turn to nobody
  | uncounted hf =>
    obtain ⟨total, hcount⟩ := ht.count
    cases hf.symm.trans hcount
  | counted hf => exact ((hmanned rfl).rest ht.tick id rfl).stop
  | @ticked _ e passed total hp hq =>
    have hf : e.timing.tick.fitsReal := by
      rw [hq.moves.timing]
      exact ht.tick
    exact (((hmanned rfl).moves hq.moves).rest hf id rfl).stop
  | @late _ e passed total hp hover hq =>
    have hb : e.isBusy = true := by
      rcases hover with hover | hover <;> simp [isBusy, hq.phase, hover]
    exact ((((hmanned rfl).moves hq.moves).tended hb).endTask _ _).stop
  | @expired _ e d'' passed total hp hi hq hm =>
    have hphase : e.passTurn.phase = .idle := hq.phase
    exact ((((manned_idle hphase).moves hm).beginTurn).endTask _ _).stop

theorem Tended.stepped {d d' : Duel} (h : Tended d) (ho : Resting d) (ht : d.timing.Sound)
    (hl : Legible d) (hable : d.able) (hs : Stepped d d') : Tended d' := by
  cases hs with
  | @dropped t ready hr hc =>
    have htaken : Tended (d.taken t ready) :=
      ⟨fun hp => (h.manned hp).taken hr (Or.inl hc),
        fun hs hp => (h.turn hs hp).taken hr (Or.inl hc)⟩
    exact (htaken.endTask _ _).stop
  | @worked t ready d' hr hc hw =>
    refine (ho.engaged hr hc).tended (fun hj hp => (h.manned hp).taken hr (Or.inr hj)) ht hl ?_ hw
    intro p a later executed fault hp hover
    exact able_begins hable hr hc hover hp

theorem Tended.goes {d d' : Duel} (h : Tended d) (ho : Resting d) (ht : d.timing.Sound)
    (hl : Legible d) (hable : d.able) (hg : Goes d d') : Tended d' := by
  cases hg with
  | moved hm => exact h.moves hm
  | stepped hs => exact h.stepped ho ht hl hable hs
  | woken hw =>
    have htasks := fun t => (Schedule.tasks_wake? hw t).mpr
    exact ⟨fun hp => (h.manned hp).mono htasks, fun hs hp => (h.turn hs hp).mono htasks⟩
  | timed now => exact ⟨h.manned, h.turn⟩

end Duel

namespace Coordinator

open Duel

variable {M : Type} (l : Listener M)

/-- Somebody goes on with a match through every history in which the scripts can be read and no
action fails. -/
theorem tended_after (c : Coordinator M) (hs : List Happening) (h : Tended c.duel)
    (ho : Resting c.duel) (ht : c.duel.timing.Sound)
    (hl : ∀ hs', hs' <+: hs → Legible (c.after l hs').duel ∧ (c.after l hs').duel.able) :
    Tended (c.after l hs).duel := by
  induction hs generalizing c with
  | nil => exact h
  | cons x hs ih =>
    have hg := goes_happen l c x
    obtain ⟨hread, hable⟩ := hl [] List.nil_prefix
    refine ih (c.happen l x) (h.goes ho ht hread hable hg) (ho.goes hg) ?_ ?_
    · rw [timing_goes hg rfl]
      exact ht
    · exact fun hs' hp => hl (x :: hs') (List.cons_prefix_cons.mpr ⟨rfl, hp⟩)

/-- No match is stuck in which the scripts can be read and the actions that are begun do not fail.
When nobody is ready in such a match and it has been started, then, while a script may run, the run
accepted last sleeps after one of its actions, and while the player to move may edit, the timer
sleeps between two ticks or some run sleeps in its pause. -/
theorem never_stuck (arena : Arena) (timing : Timing) (scripts : Duo Json) (memory : M)
    (hs : List Happening) (ht : timing.Sound)
    (hl : ∀ hs', hs' <+: hs → Legible ((fresh arena timing scripts memory).after l hs').duel ∧
      ((fresh arena timing scripts memory).after l hs').duel.able) :
    let d := ((fresh arena timing scripts memory).after l hs).duel
    d.schedule.ready = [] → d.started = true →
      (d.phase = .executing → ∃ x ∈ d.schedule.asleep, x.task.cancelled = false ∧
        d.execution = some x.task.id ∧ ∃ rest executed, x.task.job = .act d.current rest executed) ∧
      (d.phase = .idle ∨ d.phase = .editing → ∃ x ∈ d.schedule.asleep, x.task.cancelled = false ∧
        ((d.timer = some x.task.id ∧ ∃ passed total, x.task.job = .tick passed total) ∨
          ∃ result, x.task.job = .pause result)) := by
  intro d hr hstarted
  have ho : Resting d := resting_after l arena timing scripts memory hs
  have h : Tended d := tended_after l _ hs ⟨nofun, fun h => nomatch h⟩ (resting_fresh _ _ _) ht hl
  have hdormant : Dormant d := after_keeps Dormant.goes l _ hs nofun
  have hmem {x : Sleeper Job} (hx : x ∈ d.schedule.asleep) : x.task ∈ d.schedule.tasks :=
    (Schedule.mem_tasks _ _).mpr (Or.inr ⟨x, hx, rfl⟩)
  refine ⟨?_, ?_⟩
  · intro hp
    obtain ⟨x, hx, hl, hrun⟩ := (h.manned hp).asleep hr
    obtain ⟨p, hplayer⟩ := Option.isSome_iff_exists.mp hrun
    have hlatest := ho.latest _ (ho.runs x.task (hmem hx) p hplayer)
    refine ⟨x, hx, hl, hlatest.2.1, ?_⟩
    cases hj : x.task.job with
    | act q rest executed =>
      rw [hj] at hplayer
      cases hplayer
      exact ⟨rest, executed, by rw [← hlatest.1]⟩
    | begin q => simpa [hj, Job.rests] using hdormant x hx
    | _ => simp [hj, Job.player?] at hplayer
  · intro hp
    obtain ⟨x, hx, hl, hturn⟩ := (h.turn hstarted hp).asleep hr
    refine ⟨x, hx, hl, ?_⟩
    cases hj : x.task.job with
    | tick passed total =>
      exact Or.inl ⟨ho.timers x.task (hmem hx) (by rw [hj]; rfl) hl, passed, total, rfl⟩
    | pause result => exact Or.inr ⟨result, rfl⟩
    | timer => simpa [hj, Job.rests] using hdormant x hx
    | _ => simp [hj, Job.isTurn, Job.isTimer, Job.isPause] at hturn

theorem pause_wakes :
    let d := (fieldMatch.after .silent
      [.request .start, .request (.setContinuous true), .step, .step]).duel
    d.phase = .idle ∧ d.timer = none ∧ ∃ x ∈ d.schedule.asleep, x.task.cancelled = false ∧
      ((d.timer = some x.task.id ∧ ∃ passed total, x.task.job = .tick passed total) ∨
        ∃ result, x.task.job = .pause result) := by
  intro d
  have hl : ∀ hs' ∈ [.request .start, .request (.setContinuous true), .step, .step].inits,
      Legible (fieldMatch.after .silent hs').duel ∧ (fieldMatch.after .silent hs').duel.able := by
    decide +kernel
  have hphase : d.phase = .idle := by decide +kernel
  refine ⟨hphase, by decide +kernel, ?_⟩
  exact (never_stuck .silent openField { turnDelay := .whole 1 } ⟨.null, .null⟩ () _
    ⟨by decide +kernel, by decide +kernel, by decide +kernel, _, rfl, by decide +kernel⟩
    (fun hs' hp => hl hs' ((List.mem_inits _ _).mpr hp)) (by decide +kernel)
    (by decide +kernel)).2 (Or.inl hphase)

/-- A shot whose damage, a half, cannot be taken from health with hundreds of digits ends the run of
the player to move, and nobody goes on with the match. -/
theorem failing_shot_stuck :
    let b := { standing .b ⟨4, 4⟩ with
      maxHealth := .whole (10 ^ 400), health := .whole (10 ^ 400) }
    ∃ arena, Arena.make (.build 5 5 false) (standing .a ⟨0, 0⟩) b (.real 0.5) = .ok arena ∧
      Timing.Sound {} ∧
      let start := fresh arena {} ⟨.text "Shoot(Radar)", .null⟩ ()
      let hs : List Happening := [.request .start, .request (.execute .a), .step, .step]
      let d := (start.after .silent hs).duel
      (∀ hs', hs' <+: hs → Legible (start.after .silent hs').duel) ∧
        d.schedule.ready = [] ∧ d.started = true ∧ d.phase = .executing ∧
          d.schedule.asleep = [] := by
  intro b
  refine ⟨_, rfl, ⟨by decide +kernel, by decide +kernel, by decide +kernel, _, rfl,
    by decide +kernel⟩, ?_⟩
  intro start hs d
  have hl : ∀ hs' ∈ hs.inits, Legible (start.after .silent hs').duel := by decide +kernel
  have hready : d.schedule.ready.isEmpty = true := by decide +kernel
  have hasleep : d.schedule.asleep.isEmpty = true := by decide +kernel
  exact ⟨fun hs' hp => hl hs' ((List.mem_inits _ _).mpr hp), List.isEmpty_iff.mp hready,
    by decide +kernel, by decide +kernel, List.isEmpty_iff.mp hasleep⟩

end Coordinator

end MazeDuel.Turn
