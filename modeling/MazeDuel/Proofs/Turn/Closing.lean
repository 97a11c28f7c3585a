import MazeDuel.Proofs.Turn.OrderSteps
/-!
Closing a match: the timer and the run accepted last are called off. What is left is exactly the
earlier runs that are still asleep in their pause.
-/

namespace MazeDuel.Turn

namespace Duel

/-- Nobody waits for the match from outside, and whoever sleeps was not called off. -/
structure Unattended (d : Duel) : Prop where
  unawaited : d.awaited = none
  nobody : ∀ t ∈ d.schedule.tasks, t.job ≠ .caller
  sound : ∀ x ∈ d.schedule.asleep, x.task.cancelled = false

theorem unattended_fresh (arena : Arena) (timing : Timing) (scripts : Duo Json) :
    Unattended (fresh arena timing scripts) :=
  ⟨rfl, nofun, nofun⟩

theorem Unattended.cancelTimer {d : Duel} (h : Unattended d) : Unattended d.cancelTimer := by
  refine ⟨h.unawaited, ?_, ?_⟩
  · intro t ht
    obtain ⟨u, hu, -, hjob⟩ := of_mem_cancelTimer ht
    exact hjob ▸ h.nobody u hu
  · intro x hx
    refine h.sound x ?_
    unfold Duel.cancelTimer at hx
    cases ht : d.timer with
    | none => simpa [ht] using hx
    | some id =>
      simp only [ht, Schedule.asleep_cancel] at hx
      exact (List.mem_filter.mp hx).1

theorem Unattended.spawn {d d' : Duel} (h : Unattended d) (job : Job) (hj : job ≠ .caller)
    (ha : d'.awaited = d.awaited) (hs : d'.schedule = (d.schedule.spawn job).2) :
    Unattended d' := by
  refine ⟨ha.trans h.unawaited, ?_, ?_⟩
  · intro t ht
    rw [hs, Schedule.mem_tasks_spawn] at ht
    rcases ht with rfl | ht
    · exact hj
    · exact h.nobody t ht
  · intro x hx
    rw [hs] at hx
    exact h.sound x hx

theorem Unattended.move {d d' : Duel} (hm : Move d d') (h : Unattended d) : Unattended d' := by
  cases hm with
  | accept hs hp => exact h.cancelTimer.spawn (.begin d.current) nofun rfl rfl
  | opening arena journal hs =>
    have hopened : Unattended { d.opened with arena, journal } := ⟨h.1, h.2, h.3⟩
    exact hopened.cancelTimer.spawn .timer nofun rfl rfl
  | _ => exact ⟨h.1, h.2, h.3⟩

theorem Unattended.moves {d d' : Duel} (hm : Moves d d') (h : Unattended d) : Unattended d' := by
  refine hm.keeps Unattended.move ?_ ?_ h
  · intro d winner reason journal hp hr h
    exact ⟨h.cancelTimer.1, h.cancelTimer.2, h.cancelTimer.3⟩
  · intro d h
    exact ⟨h.1, h.2, h.3⟩

theorem deeds_beginTurn (d : Duel) : d.deeds <:+ d.beginTurn.deeds := by
  rcases d.beginTurn_cases with ⟨-, heq⟩ | ⟨-, hm⟩
  · exact heq.symm ▸ List.suffix_rfl
  · exact (List.suffix_cons _ _).trans hm.deeds

theorem endTask_unawaited {d : Duel} (h : d.awaited = none) (id : Nat) (outcome : Outcome) :
    d.endTask id outcome = { d with outcomes := (id, outcome) :: d.outcomes } := by
  unfold endTask
  simp [h]

theorem Unattended.goes {d d' : Duel} (hg : Goes d d') (h : Unattended d) : Unattended d' := by
  refine hg.keeps Unattended.moves ?_ ?_ ?_ ?_ ?_ ?_ ?_ ?_ ?_ ?_ h
  · intro d id outcome h
    rw [endTask_unawaited h.unawaited]
    exact ⟨h.1, h.2, h.3⟩
  · intro d id job hj h
    refine ⟨h.unawaited, ?_, ?_⟩
    · intro t ht
      rcases (Schedule.mem_tasks_rest _ _ _ _ t).mp ht with rfl | ht
      · rintro rfl
        cases hj
      · exact h.nobody t ht
    · intro x hx
      rcases Schedule.of_mem_asleep_rest hx with hx | hx
      · rw [hx]
      · exact h.sound x hx
  · intro d t ready hr h
    exact ⟨h.unawaited, fun u hu => h.nobody u (mem_tasks_taken hr hu), h.sound⟩
  · intro d h
    exact ⟨h.1, h.2, h.3⟩
  · intro d schedule hw h
    refine ⟨h.unawaited, fun t ht => h.nobody t ((Schedule.tasks_wake? hw t).mp ht), ?_⟩
    exact fun x hx => h.sound x (Schedule.of_mem_asleep_wake? hw hx)
  · intro d now h
    exact ⟨h.1, h.2, h.3⟩
  · intro d x hx h
    exact ⟨h.1, h.2, h.3⟩
  · intro d hp h
    exact ⟨h.1, h.2, h.3⟩
  · intro d hp h
    exact ⟨h.1, h.2, h.3⟩
  · intro d hp h
    exact h.cancelTimer.spawn .timer nofun rfl rfl

/-- A caller finds no pause that is just over, except that of the run accepted last while no timer
runs. -/
def Calm (d : Duel) : Prop :=
  ∀ t ∈ d.schedule.ready, t.job.isPause → t.cancelled = false →
    d.timer = none ∧ d.execution = some t.id

instance (d : Duel) : Decidable (Calm d) :=
  inferInstanceAs (Decidable (∀ t ∈ d.schedule.ready, t.job.isPause → t.cancelled = false →
    d.timer = none ∧ d.execution = some t.id))

theorem of_mem_ready_cancelTimer {d : Duel} {t : Task Job} (h : t ∈ d.cancelTimer.schedule.ready)
    (hl : t.cancelled = false) : t ∈ d.schedule.ready := by
  unfold cancelTimer at h
  cases ht : d.timer with
  | none => simpa [ht] using h
  | some id =>
    simp only [ht] at h
    exact Schedule.of_mem_ready_cancel h hl

/-- No request makes a pause end. -/
theorem Moves.no_pause {d d' : Duel} (hm : Moves d d')
    (h : ∀ t ∈ d.schedule.ready, t.job.isPause → t.cancelled = true) :
    ∀ t ∈ d'.schedule.ready, t.job.isPause → t.cancelled = true := by
  let P (e : Duel) : Prop := ∀ t ∈ e.schedule.ready, t.job.isPause → t.cancelled = true
  have hcancel {e : Duel} (he : P e) : P e.cancelTimer := by
    intro t ht hj
    by_contra hc
    exact hc (he t (of_mem_ready_cancelTimer ht (Bool.eq_false_iff.mpr hc)) hj)
  have hspawn {e : Duel} (job : Job) (hj : job.isPause = false) (he : P e) :
      P { e with schedule := (e.schedule.spawn job).2 } := by
    intro t ht htj
    rcases List.mem_append.mp ht with ht | ht
    · exact he t ht htj
    · rw [List.mem_singleton] at ht
      subst ht
      rw [hj] at htj
      cases htj
  refine hm.keeps (P := P) ?_ ?_ ?_ h
  · intro e e' hm he
    cases hm with
    | accept hs hp => exact hspawn (.begin e.current) rfl (hcancel he)
    | opening arena journal hs =>
      exact hspawn .timer rfl (hcancel (e := { e.opened with arena, journal }) he)
    | _ => exact he
  · intro e winner reason journal hp hr he
    exact hcancel he
  · intro e he
    exact he

/-- Sleepers that closing does not know of: runs in their pause, but for the one accepted last. -/
def forgotten (d : Duel) : List (Sleeper Job) :=
  d.schedule.asleep.filter fun x => x.task.job.isPause && d.execution != some x.task.id

theorem forgotten_eq {d : Duel} (ho : Orderly d) (hu : Unattended d) :
    (d.schedule.asleep.filter (fun x => d.timer != some x.task.id)).filter
      (fun x => d.execution != some x.task.id) = forgotten d := by
  rw [List.filter_filter]
  refine List.filter_congr ?_
  intro x hx
  have hmem : x.task ∈ d.schedule.tasks := (Schedule.mem_tasks _ _).mpr (Or.inr ⟨x, hx, rfl⟩)
  by_cases he : d.execution = some x.task.id
  · simp [he]
  · have hrun (p : Player) : x.task.job.player? ≠ some p := fun hp =>
      he (ho.latest _ (ho.runs _ hmem p hp)).2.1
    have htimer : d.timer = some x.task.id ↔ x.task.job.isTimer = true :=
      ⟨fun h => (ho.watch _ h).2 _ hmem rfl, fun h => ho.timers _ hmem h (hu.sound x hx)⟩
    cases hjob : x.task.job with
    | caller => exact absurd hjob (hu.nobody _ hmem)
    | begin p => exact absurd (by rw [hjob]; rfl) (hrun p)
    | act p rest executed => exact absurd (by rw [hjob]; rfl) (hrun p)
    | pause result =>
      have hno : d.timer ≠ some x.task.id := fun h => by
        simp [hjob, Job.isTimer] at htimer
        exact htimer h
      simp [he, hno, Job.isPause]
    | timer =>
      have hyes : d.timer = some x.task.id := htimer.mpr (by rw [hjob]; rfl)
      simp [hyes, Job.isPause]
    | tick passed total =>
      have hyes : d.timer = some x.task.id := htimer.mpr (by rw [hjob]; rfl)
      simp [hyes, Job.isPause]

/-- Who is ready and not called off is the timer or the run accepted last, never both. -/
theorem going_of_calm {d : Duel} (ho : Orderly d) (hu : Unattended d) (hcalm : Calm d)
    {t : Task Job} (ht : t ∈ d.schedule.ready) (hl : t.cancelled = false) :
    d.timer = some t.id ∨ d.timer = none ∧ d.execution = some t.id := by
  have hmem : t ∈ d.schedule.tasks := (Schedule.mem_tasks _ _).mpr (Or.inl ht)
  have hrun (p : Player) (hp : t.job.player? = some p) :
      d.timer = none ∧ d.execution = some t.id :=
    ⟨(ho.latest _ (ho.runs t hmem p hp)).2.2, (ho.latest _ (ho.runs t hmem p hp)).2.1⟩
  cases hjob : t.job with
  | caller => exact absurd hjob (hu.nobody t hmem)
  | begin p => exact Or.inr (hrun p (by rw [hjob]; rfl))
  | act p rest executed => exact Or.inr (hrun p (by rw [hjob]; rfl))
  | pause result => exact Or.inr (hcalm t ht (by rw [hjob]; rfl) hl)
  | timer => exact Or.inl (ho.timers t hmem (by rw [hjob]; rfl) hl)
  | tick passed total => exact Or.inl (ho.timers t hmem (by rw [hjob]; rfl) hl)

end Duel

namespace Coordinator

open Duel

variable {M : Type} (tell : Notification → Coordinator M → Coordinator M)

/-! ## Waiting for what was called off -/

/-- Whether tasks only have to end. -/
def CalledOff (ts : List (Task Job)) : Prop := ∀ t ∈ ts, t.cancelled = true ∧ t.job ≠ .caller

theorem step?_cancelled {c : Coordinator M} {t : Task Job} {ready : List (Task Job)}
    (hr : c.duel.schedule.ready = t :: ready) (hc : t.cancelled = true) (hj : t.job ≠ .caller) :
    c.step? tell = some (c.update fun d =>
      { (d.taken t ready).endTask t.id .cancelled with running := none }) := by
  have hstep : c.step? tell = some ((c.update fun d =>
      { d with schedule := { d.schedule with ready } }).runTask tell t) := by
    unfold step? Schedule.next?
    simp only [hr]
    cases hjob : t.job with
    | caller => exact absurd hjob hj
    | _ => rfl
  rw [hstep]
  unfold runTask
  simp only [hc, if_true]
  rfl

theorem untilCallerAt_caller {c : Coordinator M} {t : Task Job} (fuel : Nat)
    (hr : c.duel.schedule.ready = [t]) (hj : t.job = .caller) : c.untilCallerAt tell fuel = c := by
  cases fuel with
  | zero => rfl
  | succ fuel =>
    have hstep : c.step? tell = none := by
      unfold step? Schedule.next?
      simp [hr, hj]
    unfold untilCallerAt
    simp [hstep, hr]

/-- Tasks that only have to end leave the queue before the caller behind them gets its turn. -/
theorem untilCaller_queued (ts : List (Task Job)) {c : Coordinator M} {t : Task Job} {fuel : Nat}
    (hr : c.duel.schedule.ready = ts ++ [t]) (hj : t.job = .caller) (hts : CalledOff ts)
    (hn : c.duel.running = none) (ha : c.duel.awaited = none) (hf : ts.length ≤ fuel) :
    ∃ outcomes, (c.untilCallerAt tell fuel).takeCaller = c.update fun d =>
      { d with schedule := { d.schedule with ready := [] }, outcomes } := by
  induction ts generalizing c fuel with
  | nil =>
    refine ⟨c.duel.outcomes, ?_⟩
    rw [untilCallerAt_caller tell fuel hr hj]
    simp [takeCaller, update, hr]
  | cons u ts ih =>
    obtain ⟨fuel, rfl⟩ : ∃ n, fuel = n + 1 := ⟨fuel - 1, by simp at hf; omega⟩
    obtain ⟨hc, hu⟩ := hts u (List.mem_cons_self ..)
    have hstep := step?_cancelled tell (hr.trans (List.cons_append ..)) hc hu
    unfold untilCallerAt
    simp only [hstep]
    have hend : (c.duel.taken u (ts ++ [t])).endTask u.id .cancelled =
        { c.duel.taken u (ts ++ [t]) with outcomes := (u.id, .cancelled) :: c.duel.outcomes } :=
      endTask_unawaited (d := c.duel.taken u (ts ++ [t])) ha _ _
    simp only [update, hend]
    obtain ⟨outcomes, hi⟩ := ih (c := ⟨{ c.duel.taken u (ts ++ [t]) with
      outcomes := (u.id, .cancelled) :: c.duel.outcomes, running := none }, c.memory⟩) rfl
      (fun x hx => hts x (List.mem_cons_of_mem _ hx)) rfl ha (by simpa using hf)
    refine ⟨outcomes, hi.trans ?_⟩
    simp only [update, taken, hn]

/-- Waiting for a task that was called off empties a queue in which nothing goes on. -/
theorem untilCaller_awaited (ts : List (Task Job)) {c : Coordinator M} {id fuel : Nat}
    (hr : c.duel.schedule.ready = ts) (hts : CalledOff ts) (hn : c.duel.running = none)
    (ha : c.duel.awaited = some id) (hid : id ∈ ts.map Task.id) (hf : ts.length ≤ fuel) :
    ∃ fresh outcomes, (c.untilCallerAt tell fuel).takeCaller = c.update fun d =>
      { d with schedule := { d.schedule with ready := [], fresh }, awaited := none, outcomes } := by
  induction ts generalizing c fuel with
  | nil => cases hid
  | cons u ts ih =>
    obtain ⟨fuel, rfl⟩ : ∃ n, fuel = n + 1 := ⟨fuel - 1, by simp at hf; omega⟩
    have hf' : ts.length ≤ fuel := by simpa using hf
    obtain ⟨hc, hu⟩ := hts u (List.mem_cons_self ..)
    have hts' : CalledOff ts := fun x hx => hts x (List.mem_cons_of_mem _ hx)
    have hstep := step?_cancelled tell hr hc hu
    unfold untilCallerAt
    simp only [hstep]
    by_cases hui : u.id = id
    · -- its end queues the caller, behind whatever else has to end
      have hend : (c.duel.taken u ts).endTask u.id .cancelled =
          { c.duel.taken u ts with
            outcomes := (u.id, .cancelled) :: c.duel.outcomes, awaited := none,
            schedule := ((c.duel.taken u ts).schedule.spawn .caller).2 } := by
        unfold Duel.endTask
        simp [taken, ha, hui]
      simp only [update, hend]
      obtain ⟨outcomes, hi⟩ := untilCaller_queued tell ts (c := ⟨{ c.duel.taken u ts with
        outcomes := (u.id, .cancelled) :: c.duel.outcomes, awaited := none, running := none,
        schedule := ((c.duel.taken u ts).schedule.spawn .caller).2 }, c.memory⟩)
        rfl rfl hts' rfl rfl hf'
      refine ⟨c.duel.schedule.fresh + 1, outcomes, hi.trans ?_⟩
      simp only [update, taken, hn, Schedule.spawn]
    · have hend : (c.duel.taken u ts).endTask u.id .cancelled =
          { c.duel.taken u ts with outcomes := (u.id, .cancelled) :: c.duel.outcomes } := by
        unfold Duel.endTask
        simp [taken, ha, Ne.symm hui]
      simp only [update, hend]
      have hid' : id ∈ ts.map Task.id := by
        rcases List.mem_cons.mp hid with hid | hid
        · exact absurd hid.symm hui
        · exact hid
      obtain ⟨fresh, outcomes, hi⟩ := ih (c := ⟨{ c.duel.taken u ts with
        outcomes := (u.id, .cancelled) :: c.duel.outcomes, running := none }, c.memory⟩)
        rfl hts' rfl ha hid' hf'
      refine ⟨fresh, outcomes, hi.trans ?_⟩
      simp only [update, taken, hn]

theorem isPending_iff {d : Duel} (hn : d.running = none) (id : Nat) :
    d.isPending id = true ↔ id ∈ d.schedule.ids := by
  simp [isPending, Schedule.holds, hn]

/-- Calling off a task that has not ended empties a queue in which nothing else goes on. -/
theorem callOffAt_pending {c : Coordinator M} {id fuel : Nat} (hids : c.duel.schedule.ids.Nodup)
    (hn : c.duel.running = none) (hu : Unattended c.duel)
    (hr : ∀ t ∈ c.duel.schedule.ready, t.cancelled = false → t.id = id)
    (hid : id ∈ c.duel.schedule.ids) (hf : c.duel.schedule.ready.length + 1 ≤ fuel) :
    ∃ fresh outcomes, c.callOffAt tell fuel (some id) = c.update fun d =>
      { d with
        schedule := { d.schedule with
          ready := [], asleep := d.schedule.asleep.filter (·.task.id != id), fresh }
        outcomes } := by
  have hcalled : CalledOff (c.duel.schedule.cancel id).ready := by
    intro t ht
    have htask := (Schedule.mem_tasks _ t).mpr (Or.inl ht)
    refine ⟨?_, ?_⟩
    · by_contra hc
      have hl : t.cancelled = false := Bool.eq_false_iff.mpr hc
      exact (Schedule.of_mem_tasks_cancel_live hids htask hl).2
        (hr t (Schedule.of_mem_ready_cancel ht hl) hl)
    · rcases Schedule.of_mem_tasks_cancel htask with hmem | ⟨-, -, u, hmem, -, hjob⟩
      · exact hu.nobody t hmem
      · exact hjob ▸ hu.nobody u hmem
  have hids' : id ∈ (c.duel.schedule.cancel id).ids :=
    (c.duel.schedule.ids_cancel_perm id hids).mem_iff.mpr hid
  have hpending : c.duel.isPending id = true := (isPending_iff hn id).mpr hid
  have hpending' : ({ c.duel with schedule := c.duel.schedule.cancel id }).isPending id = true :=
    (isPending_iff (d := { c.duel with schedule := c.duel.schedule.cancel id }) hn id).mpr hids'
  have hlength := c.duel.schedule.length_ready_cancel id
  obtain ⟨fresh, outcomes, heq⟩ := untilCaller_awaited tell _
    (c := ⟨{ c.duel with schedule := c.duel.schedule.cancel id, awaited := some id }, c.memory⟩)
    rfl hcalled hn rfl (Schedule.mem_ready_cancel_self hid) (Nat.le_trans hlength hf)
  refine ⟨fresh, outcomes, ?_⟩
  unfold callOffAt awaitTaskAt
  simp only [hpending, update, hpending', if_true]
  rw [heq]
  simp only [update, Schedule.now_cancel, Schedule.asleep_cancel, hu.unawaited]

/-- Calling off one task, or none: only others sleep on, and the queue has been emptied unless there
was nothing to call off. -/
theorem callOffAt_spec {c : Coordinator M} {fuel : Nat} (id : Option Nat)
    (hids : c.duel.schedule.ids.Nodup) (hn : c.duel.running = none) (hu : Unattended c.duel)
    (hr : ∀ x, id = some x → x ∈ c.duel.schedule.ids →
      ∀ t ∈ c.duel.schedule.ready, t.cancelled = false → t.id = x)
    (hf : c.duel.schedule.ready.length + 1 ≤ fuel) :
    ∃ ready fresh outcomes, (c.callOffAt tell fuel id = c.update fun d =>
      { d with
        schedule := { d.schedule with
          ready, asleep := d.schedule.asleep.filter (fun x => id != some x.task.id), fresh }
        outcomes }) ∧
      (ready = [] ∨
        ready = c.duel.schedule.ready ∧ ∀ x, id = some x → x ∉ c.duel.schedule.ids) := by
  have hkept (h : ∀ x, id = some x → x ∉ c.duel.schedule.ids) :
      c.duel.schedule.asleep.filter (fun x => id != some x.task.id) = c.duel.schedule.asleep := by
    refine List.filter_eq_self.mpr ?_
    intro x hx
    have hmem : x.task.id ∈ c.duel.schedule.ids :=
      List.mem_append_right _ (List.mem_map.mpr ⟨x, hx, rfl⟩)
    simp only [bne_iff_ne]
    exact fun heq => h _ heq hmem
  cases id with
  | none =>
    refine ⟨c.duel.schedule.ready, c.duel.schedule.fresh, c.duel.outcomes, ?_, Or.inr ⟨rfl, nofun⟩⟩
    simp only [update, hkept nofun]
    rfl
  | some id =>
    by_cases hid : id ∈ c.duel.schedule.ids
    · obtain ⟨fresh, outcomes, heq⟩ := callOffAt_pending tell hids hn hu (hr id rfl hid) hid hf
      refine ⟨[], fresh, outcomes, heq.trans ?_, Or.inl rfl⟩
      have hsame (x : Sleeper Job) : (x.task.id != id) = (some id != some x.task.id) := by
        rw [Bool.eq_iff_iff, bne_iff_ne, bne_iff_ne, ne_comm]
        simp
      simp only [hsame]
    · have habsent : ∀ x, some id = some x → x ∉ c.duel.schedule.ids := by
        intro x hx
        cases hx
        exact hid
      refine ⟨c.duel.schedule.ready, c.duel.schedule.fresh, c.duel.outcomes, ?_,
        Or.inr ⟨rfl, habsent⟩⟩
      have hpending : ¬ c.duel.isPending id = true := mt (isPending_iff hn id).mp hid
      unfold callOffAt
      simp only [hpending, update, hkept habsent]
      rfl

/-- Closing leaves the runs asleep that it does not know of, and nothing else that goes on. -/
theorem callOffAllAt_spec {c : Coordinator M} {fuel : Nat} (ho : Resting c.duel)
    (hu : Unattended c.duel) (hcalm : Calm c.duel)
    (hf : c.duel.schedule.ready.length + 1 ≤ fuel) :
    ∃ ready fresh outcomes, (c.callOffAllAt tell fuel = c.update fun d =>
      { d with
        schedule := { d.schedule with ready, asleep := forgotten d, fresh }
        outcomes, timer := none }) ∧ CalledOff ready := by
  have hgoing {t : Task Job} (ht : t ∈ c.duel.schedule.ready) (hl : t.cancelled = false) :=
    going_of_calm ho.toOrderly hu hcalm ht hl
  have hready {t : Task Job} (ht : t ∈ c.duel.schedule.ready) : t.id ∈ c.duel.schedule.ids :=
    List.mem_append_left _ (List.mem_map_of_mem ht)
  obtain ⟨ready, fresh, outcomes, heq, hcase⟩ := callOffAt_spec tell c.duel.timer ho.asleep ho.still
    hu (by
      intro x hx _ t ht hl
      rcases hgoing ht hl with h | ⟨h, -⟩
      · exact (Option.some.inj (hx.symm.trans h)).symm
      · cases hx.symm.trans h) hf
  have hsub : ready.Sublist c.duel.schedule.ready := by
    rcases hcase with rfl | ⟨rfl, -⟩
    · exact List.nil_sublist _
    · exact .refl _
  -- whatever goes on in the queue now is the run accepted last
  have hlatest : ∀ t ∈ ready, t.cancelled = false → c.duel.execution = some t.id := by
    rcases hcase with rfl | ⟨rfl, habsent⟩
    · exact nofun
    · intro t ht hl
      rcases hgoing ht hl with h | ⟨-, h⟩
      · exact absurd (hready ht) (habsent _ h)
      · exact h
  let asleep := c.duel.schedule.asleep.filter fun x => c.duel.timer != some x.task.id
  let c' : Coordinator M := c.update fun d =>
    { d with schedule := { d.schedule with ready, asleep, fresh }, outcomes }
  have hids : c'.duel.schedule.ids.Nodup :=
    ho.asleep.sublist ((hsub.map Task.id).append (List.filter_sublist.map _))
  have htasks : ∀ t ∈ c'.duel.schedule.tasks, t ∈ c.duel.schedule.tasks := by
    intro t ht
    exact ((hsub.append (List.filter_sublist.map _)).subset ht : _)
  have hu' : Unattended c'.duel :=
    ⟨hu.unawaited, fun t ht => hu.nobody t (htasks t ht),
      fun x hx => hu.sound x (List.mem_filter.mp hx).1⟩
  obtain ⟨ready', fresh', outcomes', heq', hcase'⟩ := callOffAt_spec tell (c := c')
    c.duel.execution hids ho.still hu' (by
      intro x hx _ t ht hl
      exact Option.some.inj ((hlatest t ht hl).symm.trans hx))
    (Nat.le_trans (Nat.succ_le_succ hsub.length_le) hf)
  refine ⟨ready', fresh', outcomes', ?_, ?_⟩
  · unfold callOffAllAt
    simp only [heq]
    have hrest : (c'.callOffAt tell fuel c.duel.execution) = _ := heq'
    simp only [c', update] at hrest ⊢
    rw [hrest]
    simp only [asleep, forgotten_eq ho.toOrderly hu]
  · rcases hcase' with rfl | ⟨rfl, habsent⟩
    · exact fun t ht => absurd ht List.not_mem_nil
    · intro t ht
      refine ⟨?_, hu'.nobody t ((Schedule.mem_tasks _ t).mpr (Or.inl ht))⟩
      by_contra hc
      have hlast := hlatest t ht (Bool.eq_false_iff.mpr hc)
      exact habsent _ hlast (List.mem_append_left _ (List.mem_map_of_mem ht))

/-! ## Whether a match is at rest for good -/

variable (l : Listener M)

/-- Whatever the clock does, nothing comes of it: only tasks that were called off still end. -/
def Undisturbed (c : Coordinator M) : Prop :=
  ∀ c', Passes l c c' → ∃ schedule outcomes, c' = c.update fun d => { d with schedule, outcomes }

/-- Nobody sleeps, and whoever is ready was called off. -/
structure Spent (d : Duel) : Prop where
  unawaited : d.awaited = none
  still : d.running = none
  calledOff : CalledOff d.schedule.ready
  asleep : d.schedule.asleep = []

theorem spent_happen {c : Coordinator M} (h : Spent c.duel) {x : Happening}
    (hx : x.isRequest = false) : Spent (c.happen l x).duel ∧ ∃ schedule outcomes,
      c.happen l x = c.update fun d => { d with schedule, outcomes } := by
  have hsame : Spent c.duel ∧ ∃ schedule outcomes,
      c = c.update fun d => { d with schedule, outcomes } :=
    ⟨h, c.duel.schedule, c.duel.outcomes, rfl⟩
  cases x with
  | request r => cases hx
  | step =>
    unfold happen
    cases hr : c.duel.schedule.ready with
    | nil =>
      have hstep : c.step? l.tell = none := by
        unfold step? Schedule.next?
        simp [hr]
      rw [hstep]
      exact hsame
    | cons t ready =>
      obtain ⟨hc, hj⟩ := h.calledOff t (hr ▸ List.mem_cons_self ..)
      rw [step?_cancelled l.tell hr hc hj]
      have hend : (c.duel.taken t ready).endTask t.id .cancelled =
          { c.duel.taken t ready with outcomes := (t.id, .cancelled) :: c.duel.outcomes } :=
        endTask_unawaited (d := c.duel.taken t ready) h.unawaited _ _
      simp only [Option.getD_some, update, hend]
      refine ⟨⟨h.unawaited, rfl, ?_, h.asleep⟩, { c.duel.schedule with ready },
        (t.id, .cancelled) :: c.duel.outcomes, ?_⟩
      · exact fun u hu => h.calledOff u (hr ▸ List.mem_cons_of_mem _ hu)
      · simp only [taken, h.still]
  | wake =>
    have hwake : c.wake? = none := by
      unfold wake? Schedule.wake?
      simp [h.asleep]
    unfold happen
    rw [hwake]
    exact hsame
  | clock now => exact ⟨⟨h.1, h.2, h.3, h.4⟩, { c.duel.schedule with now }, c.duel.outcomes, rfl⟩

theorem undisturbed_of_spent {c : Coordinator M} (h : Spent c.duel) : Undisturbed l c := by
  rintro c' ⟨hs, hn, rfl⟩
  induction hs generalizing c with
  | nil => exact ⟨c.duel.schedule, c.duel.outcomes, rfl⟩
  | cons x hs ih =>
    obtain ⟨hspent, schedule, outcomes, heq⟩ := spent_happen l h (hn x (List.mem_cons_self ..))
    obtain ⟨schedule', outcomes', hlater⟩ := ih hspent fun y hy => hn y (List.mem_cons_of_mem _ hy)
    refine ⟨schedule', outcomes', ?_⟩
    rw [after_cons, hlater, heq]
    rfl

/-- A run that comes back from its pause does something, once all before it in the queue have
ended. -/
theorem woke_of_steps (ts : List (Task Job)) {c : Coordinator M} {t : Task Job}
    {result : ExecutionResult} (hr : c.duel.schedule.ready = ts ++ [t]) (hts : CalledOff ts)
    (hj : t.job = .pause result) (hc : t.cancelled = false) (ha : c.duel.awaited = none) :
    c.duel.deeds.length <
      (c.after l (List.replicate (ts.length + 1) .step)).duel.deeds.length := by
  induction ts generalizing c with
  | nil =>
    have hstep : c.step? l.tell = some ((c.update fun d =>
        { d with schedule := { d.schedule with ready := [] } }).runTask l.tell t) := by
      unfold step? Schedule.next?
      simp only [hr, List.nil_append, hj]
      rfl
    let d := (c.duel.taken t []).remember (.woke t.id c.duel.turnNumber c.duel.phase)
    have hwoke : (c.happen l .step).duel.deeds =
        (d.beginTurn.endTask t.id (.done (some result))).deeds := by
      unfold happen
      rw [hstep]
      unfold runTask
      simp only [update, hc, hj]
      rfl
    have hlonger : d.deeds.length ≤ d.beginTurn.deeds.length := d.deeds_beginTurn.length_le
    obtain ⟨schedule, awaited, hend⟩ := endTask_eq d.beginTurn t.id (.done (some result))
    rw [hend] at hwoke
    change c.duel.deeds.length < (c.happen l .step).duel.deeds.length
    rw [hwoke]
    exact hlonger
  | cons u ts ih =>
    obtain ⟨hcu, hju⟩ := hts u (List.mem_cons_self ..)
    have hend : (c.duel.taken u (ts ++ [t])).endTask u.id .cancelled =
        { c.duel.taken u (ts ++ [t]) with outcomes := (u.id, .cancelled) :: c.duel.outcomes } :=
      endTask_unawaited (d := c.duel.taken u (ts ++ [t])) ha _ _
    let c' : Coordinator M := ⟨{ c.duel.taken u (ts ++ [t]) with
      outcomes := (u.id, .cancelled) :: c.duel.outcomes, running := none }, c.memory⟩
    have hhappen : c.happen l .step = c' := by
      unfold happen
      rw [step?_cancelled l.tell (hr.trans (List.cons_append ..)) hcu hju]
      simp only [Option.getD_some, update, hend, c']
    rw [List.length_cons, List.replicate_succ, after_cons, hhappen]
    exact ih (c := c') rfl (fun x hx => hts x (List.mem_cons_of_mem _ hx)) ha

/-- A match in which a run is asleep in its pause does not stay as it is. -/
theorem not_undisturbed {c : Coordinator M} {x : Sleeper Job}
    (hready : CalledOff c.duel.schedule.ready)
    (hfirst : ∃ asleep, c.duel.schedule.asleep = x :: asleep) (hj : x.task.job.isPause)
    (hc : x.task.cancelled = false) (ha : c.duel.awaited = none) : ¬ Undisturbed l c := by
  intro h
  obtain ⟨asleep, hasleep⟩ := hfirst
  let c' : Coordinator M := c.update fun d =>
    { d with schedule := { d.schedule with
        now := x.due, ready := d.schedule.ready ++ [x.task], asleep } }
  have hwake : c.happen l .wake = c' := by
    unfold happen wake? Schedule.wake?
    simp only [hasleep, Option.map_some, Option.getD_some]
    rfl
  obtain ⟨result, hj⟩ : ∃ result, x.task.job = .pause result := by
    cases hjob : x.task.job with
    | pause result => exact ⟨result, rfl⟩
    | _ => simp [hjob, Job.isPause] at hj
  have hlonger := woke_of_steps l c.duel.schedule.ready (c := c') rfl hready hj hc ha
  have hpasses : Passes l c
      (c'.after l (List.replicate (c.duel.schedule.ready.length + 1) .step)) := by
    refine ⟨.wake :: List.replicate (c.duel.schedule.ready.length + 1) .step, ?_, ?_⟩
    · intro y hy
      rcases List.mem_cons.mp hy with rfl | hy
      · rfl
      · rw [List.eq_of_mem_replicate hy]
        rfl
    · rw [after_cons, hwake]
  obtain ⟨schedule, outcomes, heq⟩ := h _ hpasses
  rw [heq] at hlonger
  exact Nat.lt_irrefl _ hlonger

/-- A caller who has let the clock loops come to rest, and has made requests since, is not in the
middle of a pause. -/
theorem calm_of_rest (c : Coordinator M) (rs : List Request) (h : c.duel.schedule.ready = []) :
    Calm (c.after l (rs.map .request)).duel := by
  have hnone : ∀ t ∈ (c.after l (rs.map .request)).duel.schedule.ready,
      t.job.isPause → t.cancelled = true := by
    have hstart : ∀ t ∈ c.duel.schedule.ready, t.job.isPause → t.cancelled = true := by
      rw [h]
      exact nofun
    clear h
    induction rs generalizing c with
    | nil => exact hstart
    | cons r rs ih => exact ih _ ((moves_request l r c).no_pause hstart)
  intro t ht hj hl
  rw [hnone t ht hj] at hl
  cases hl

/-- Closing is final just if every run that is asleep in its pause at that moment is the one
accepted last. Any other one comes back from its pause as if nothing had been closed. -/
theorem close_final_iff (arena : Arena) (timing : Timing) (scripts : Duo Json) (memory : M)
    (hs : List Happening) (hcalm : Calm ((fresh arena timing scripts memory).after l hs).duel) :
    let c := (fresh arena timing scripts memory).after l hs
    Undisturbed l (c.callOffAll l.tell) ↔ ∀ x ∈ c.duel.schedule.asleep,
      x.task.job.isPause → c.duel.execution = some x.task.id := by
  intro c
  have ho : Resting c.duel := resting_after l arena timing scripts memory hs
  have hu : Unattended c.duel :=
    after_keeps Unattended.goes l _ hs (unattended_fresh arena timing scripts)
  have hfuel : c.duel.schedule.ready.length + 1 ≤ patience + c.duel.schedule.ready.length := by
    rw [Nat.add_comm]
    exact Nat.add_le_add_right (by decide) _
  obtain ⟨ready, fresh, outcomes, heq, hready⟩ := callOffAllAt_spec l.tell ho hu hcalm hfuel
  unfold callOffAll
  rw [heq]
  have hnone : c.duel.forgotten = [] ↔ ∀ x ∈ c.duel.schedule.asleep,
      x.task.job.isPause → c.duel.execution = some x.task.id := by
    simp [forgotten, List.filter_eq_nil_iff]
  rw [← hnone]
  constructor
  · intro h
    by_contra hleft
    obtain ⟨x, asleep, hasleep⟩ := List.exists_cons_of_ne_nil hleft
    obtain ⟨hmem, hpause⟩ := List.mem_filter.mp (hasleep ▸ List.mem_cons_self .. : x ∈ forgotten _)
    rw [Bool.and_eq_true] at hpause
    refine not_undisturbed l ?_ ?_ hpause.1 (hu.sound x hmem) ?_ h
    · exact hready
    · exact ⟨asleep, hasleep⟩
    · exact hu.unawaited
  · exact fun h => undisturbed_of_spent l ⟨hu.unawaited, ho.still, hready, h⟩

theorem close_final_in_pause :
    Undisturbed .silent ((fieldMatch.after .silent (twoPauses.take 4)).callOffAll
      Listener.silent.tell) :=
  (close_final_iff .silent openField { turnDelay := .whole 1 } ⟨.null, .null⟩ ()
    (twoPauses.take 4) (by decide +kernel)).mpr (by decide +kernel)

/-- After closing, the first of two runs passes on a turn that was never its own. -/
theorem close_leaves_pause :
    let c := (fieldMatch.after .silent twoPauses).callOffAll Listener.silent.tell
    c.duel.turnNumber = 2 ∧ (c.advance Listener.silent.tell 1).duel.turnNumber = 3 := by
  decide +kernel

end Coordinator

end MazeDuel.Turn
