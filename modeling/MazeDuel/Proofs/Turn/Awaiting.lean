import MazeDuel.Proofs.Turn.Stepping
/-!
Waiting for a run from outside, with a bound on the steps. In a match that nobody else is in the run
makes each of its steps in turn, so that the wait ends before the bound is met, and nothing is left
to come but the timer of the next turn.
-/

namespace MazeDuel.Turn

namespace Duel

open Deed

variable {d d' : Duel} {r : Accepted} {program : List Action} {id k : Nat} {outcome : Outcome}
  {t : Task Job} {ready : List (Task Job)}

/-- A task is gone, and this came of it. -/
structure Left (id : Nat) (outcome : Outcome) (d : Duel) : Prop where
  gone : id ∉ d.ids
  outcome : d.outcome? id = some outcome

theorem left_of_gone (h : d.isPending id = false) (ho : d.outcome? id = some outcome) :
    Left id outcome d := by
  refine ⟨?_, ho⟩
  simp only [isPending, Schedule.holds, Bool.or_eq_false_iff, List.contains_eq_mem,
    decide_eq_false_iff_not, beq_eq_false_iff_ne] at h
  simp only [ids, List.mem_append, Option.mem_toList, not_or]
  exact ⟨fun hr => h.2 hr, h.1⟩

theorem Left.taken (h : Left id outcome d) (hr : d.schedule.ready = t :: ready) :
    Left id outcome (d.taken t ready) ∧ t.id ≠ id := by
  have hne : t.id ≠ id := by
    rintro rfl
    refine h.gone (List.mem_append_right _ ?_)
    rw [Schedule.ids_eq]
    exact List.mem_map_of_mem (tasks_of_ready hr)
  refine ⟨⟨fun hmem => h.gone ?_, h.outcome⟩, hne⟩
  rcases List.mem_append.mp hmem with hmem | hmem
  · exact absurd (Option.some.inj (Option.mem_toList.mp hmem)) hne
  · rw [Schedule.ids_eq] at hmem
    obtain ⟨u, hu, rfl⟩ := List.mem_map.mp hmem
    refine List.mem_append_right _ ?_
    rw [Schedule.ids_eq]
    exact List.mem_map_of_mem (mem_tasks_taken hr hu)

theorem Left.endTask (h : Left id outcome d) (hne : k ≠ id) (ha : d.awaited = none)
    (other : Outcome) : Left id outcome { d.endTask k other with running := none } := by
  rw [endTask_of_ne (by simp [ha])]
  refine ⟨fun hmem => h.gone (List.mem_append_right _ hmem), ?_⟩
  have hskip : (k == id) = false := by simpa using hne
  simp only [outcome?, List.find?_cons, hskip]
  exact h.outcome

theorem Left.rest (h : Left id outcome d) (hne : k ≠ id) (ha : d.awaited = none) (job : Job)
    (delay : Quantity) : Left id outcome { d.rest k job delay with running := none } := by
  unfold Duel.rest
  split
  · refine ⟨fun hmem => ?_, h.outcome⟩
    have hmem : id ∈ (d.schedule.rest k job delay.toFloat).ids := hmem
    rcases List.mem_cons.mp ((Schedule.ids_rest _ _ _ _).mem_iff.mp hmem) with rfl | hmem
    · exact hne rfl
    · exact h.gone (List.mem_append_right _ hmem)
  · exact h.endTask hne ha _

/-- A step that only lets its own task rest leaves no more tasks, and one more asleep at most. -/
theorem Rests.length_le (h : Rests id (d.taken t ready) d') (hr : d.schedule.ready = t :: ready)
    (hn : Numbered d') : d'.schedule.tasks.length ≤ d.schedule.tasks.length ∧
      d'.schedule.asleep.length ≤ d.schedule.asleep.length + 1 := by
  have hids : (d'.schedule.tasks.map Task.id).Nodup := by
    rw [← Schedule.ids_eq]
    exact (List.nodup_append.mp hn.nodup).2.1
  have htasks : d'.schedule.tasks.map Task.id ⊆
      id :: (d.taken t ready).schedule.tasks.map Task.id := by
    intro k hk
    obtain ⟨u, hu, rfl⟩ := List.mem_map.mp hk
    rcases h.tasks u hu with hu | ⟨hid, -⟩
    · exact List.mem_cons_of_mem _ (List.mem_map_of_mem hu)
    · exact List.mem_cons.mpr (Or.inl hid)
  have hasleep : d'.schedule.asleep.map (·.task.id) ⊆
      id :: d.schedule.asleep.map (·.task.id) := by
    intro k hk
    obtain ⟨x, hx, rfl⟩ := List.mem_map.mp hk
    rcases h.asleep x hx with hx | hid
    · exact List.mem_cons_of_mem _ (List.mem_map_of_mem hx)
    · exact List.mem_cons.mpr (Or.inl hid)
  have hasleepIds : (d'.schedule.asleep.map (·.task.id)).Nodup := by
    refine hids.sublist ?_
    simp only [Schedule.tasks, List.map_append, List.map_map, Function.comp_def]
    exact List.sublist_append_right _ _
  have hfirst := (List.subperm_of_subset hids htasks).length_le
  have hsecond := (List.subperm_of_subset hasleepIds hasleep).length_le
  simp only [List.length_map, List.length_cons, Schedule.tasks, List.length_append,
    Duel.taken] at hfirst
  simp only [List.length_map, List.length_cons] at hsecond
  refine ⟨?_, hsecond⟩
  simp only [Schedule.tasks, List.length_append, List.length_map, hr, List.length_cons]
  omega

theorem length_ready_endTask (d : Duel) (id : Nat) (outcome : Outcome) :
    (d.endTask id outcome).schedule.ready.length ≤ d.schedule.ready.length + 1 := by
  unfold endTask
  dsimp only
  split
  · simp [Schedule.spawn]
  · exact Nat.le_succ _

/-- With the last step of a run the caller comes into the queue, and a new timer. -/
theorem Ends.length_ready (h : Ends r d d') (hn : d.timer = none)
    (hmanual : d.phase = .executing → d.continuous = false) :
    d'.schedule.ready.length ≤ d.schedule.ready.length + 2 := by
  cases h with
  | decided journal hok hover hstanding =>
    exact (length_ready_endTask _ _ _).trans (Nat.le_succ _)
  | passed handed hok hbusy hoff hstanding =>
    obtain ⟨deeds, arena, log, journal, rfl⟩ := handed
    rw [beginTurn_manual rfl (by exact hoff), startTimer_untimed (by exact hn)]
    refine (length_ready_endTask _ _ _).trans (Nat.le_of_eq ?_)
    simp [Schedule.spawn, Duel.handed]
  | paused handed hok hbusy hon hstanding => cases (hmanual hbusy).symm.trans hon

theorem Fails.length_ready (h : Fails r d d') :
    d'.schedule.ready.length ≤ d.schedule.ready.length + 1 := by
  cases h with
  | @broke e fault hwhy hschedule hawaited hrunning hscripts hphase hstanding =>
    rw [← hschedule]
    exact length_ready_endTask _ _ _

/-- Somebody waits for a run in a match that nobody else is in, and so many steps and wakings are
enough: the run is on its way, or it has ended and the caller is in the queue. -/
inductive Awaits (r : Accepted) (n : Nat) (d : Duel) : Prop where
  | away {program : List Action} (way : Underway r program d) (alone : Alone r.id d)
      (awaited : d.awaited = some r.id)
      (enough : 2 * program.length + d.schedule.tasks.length + d.schedule.asleep.length + 3 ≤ n)
  | home {outcome : Outcome} (still : Still d) (home : Home d) (left : Left r.id outcome d)
      (came : (∃ fault, outcome = .failed fault ∧ r.Breaks fault) ∨
        outcome = r.outcome ∧ Settled r.setting r.standing d)
      (enough : ∃ before caller behind, d.schedule.ready = before ++ caller :: behind ∧
        caller.job = .caller ∧ before.length ≤ n)

/-- Once the caller is home, whoever is before it in the queue is all there is to wait for. -/
theorem Home.enough (h : Home d) {n : Nat} (hn : d.schedule.ready.length ≤ n) :
    ∃ before caller behind, d.schedule.ready = before ++ caller :: behind ∧
      caller.job = .caller ∧ before.length ≤ n := by
  obtain ⟨before, caller, behind, hqueue, hcaller, -, -⟩ := h.queue
  refine ⟨before, caller, behind, hqueue, hcaller, Nat.le_trans ?_ hn⟩
  simp [hqueue]

end Duel

namespace Coordinator

open Duel Deed

variable {M : Type} {l : Listener M} {tell : Notification → Coordinator M → Coordinator M}
  {c c' : Coordinator M} {r : Accepted} {program : List Action} {seen : M → List Duel}
  {n fuel : Nat} {t : Task Job} {ready : List (Task Job)} {outcome : Outcome}

/-- As long as anybody is there, the loop makes a step or wakes somebody, or it is the caller's
turn. -/
theorem untilCallerAt_next (tell : Notification → Coordinator M → Coordinator M)
    (hthere : c.duel.schedule.tasks ≠ []) :
    (∃ c', (c.step? tell = some c' ∨ c.duel.schedule.ready = [] ∧ c.wake? = some c') ∧
      ∀ fuel, c.untilCallerAt tell (fuel + 1) = c'.untilCallerAt tell fuel) ∨
    c.CallsBack ∧ ∀ fuel, c.untilCallerAt tell fuel = c := by
  cases hs : c.step? tell with
  | some c' => exact Or.inl ⟨c', Or.inl rfl, fun fuel => by rw [untilCallerAt, hs]⟩
  | none =>
    cases hr : c.duel.schedule.ready with
    | nil =>
      obtain ⟨c', hw⟩ : ∃ c', c.wake? = some c' := by
        unfold wake? Schedule.wake?
        cases ha : c.duel.schedule.asleep with
        | nil => simp [Schedule.tasks, hr, ha] at hthere
        | cons x asleep => exact ⟨_, rfl⟩
      refine Or.inl ⟨c', Or.inr ⟨rfl, hw⟩, fun fuel => ?_⟩
      rw [untilCallerAt, hs, hr, hw]
      rfl
    | cons t ready =>
      have hj : t.job = .caller := by
        by_contra hj
        obtain ⟨c', hs'⟩ := exists_step? tell hr hj
        cases hs.symm.trans hs'
      refine Or.inr ⟨⟨t, ready, hr, hj⟩, fun fuel => ?_⟩
      cases fuel with
      | zero => rfl
      | succ fuel =>
        rw [untilCallerAt, hs, hr]
        rfl

/-- If each step and each waking leaves fewer to come, and somebody always goes on until the
caller's turn, the caller's turn comes. -/
theorem untilCallerAt_arrives {P : Nat → Coordinator M → Prop}
    (hstep : ∀ {n c c'}, P n c → c.step? tell = some c' → ∃ m < n, P m c')
    (hwake : ∀ {n c c'}, P n c → c.duel.schedule.ready = [] → c.wake? = some c' → ∃ m < n, P m c')
    (hthere : ∀ {n c}, P n c → c.duel.schedule.tasks ≠ [])
    (h : P n c) (hn : n ≤ fuel) :
    ∃ m, P m (c.untilCallerAt tell fuel) ∧ (c.untilCallerAt tell fuel).CallsBack := by
  induction fuel generalizing n c with
  | zero =>
    rcases untilCallerAt_next tell (hthere h) with ⟨c', hs | ⟨hr, hw⟩, -⟩ | ⟨hcalls, hsame⟩
    · obtain ⟨m, hm, -⟩ := hstep h hs
      omega
    · obtain ⟨m, hm, -⟩ := hwake h hr hw
      omega
    · exact ⟨n, (hsame 0).symm ▸ h, (hsame 0).symm ▸ hcalls⟩
  | succ fuel ih =>
    rcases untilCallerAt_next tell (hthere h) with ⟨c', hgone, hgoes⟩ | ⟨hcalls, hsame⟩
    · obtain ⟨m, hm, hnext⟩ : ∃ m < n, P m c' := by
        rcases hgone with hs | ⟨hr, hw⟩
        · exact hstep h hs
        · exact hwake h hr hw
      rw [hgoes]
      exact ih hnext (by omega)
    · rw [hsame]
      exact ⟨n, h, hcalls⟩

/-- A step of the run is one action less to come, or its end, with which the caller comes home. -/
theorem awaits_own (hl : Mute seen l) (hmanual : r.continuous = false)
    (way : Underway r program c.duel) (alone : Alone r.id c.duel)
    (awaited : c.duel.awaited = some r.id)
    (enough : 2 * program.length + c.duel.schedule.tasks.length +
      c.duel.schedule.asleep.length + 3 ≤ n)
    (hr : c.duel.schedule.ready = t :: ready) (hid : t.id = r.id)
    (hstep : c.step? l.tell = some c') : ∃ m < n, Awaits r m c'.duel := by
  have ht : Passive l.tell := passive_tell hl
  have hstill : Still c'.duel := still_step? ht.tells way.toStill hstep
  have hready : c.duel.schedule.tasks.length =
      ready.length + 1 + c.duel.schedule.asleep.length := by
    simp only [Schedule.tasks, hr, List.length_append, List.length_cons, List.length_map]
  have hnumbered : Numbered (c.duel.taken t ready) :=
    (way.toSolo.taken way.still hr).toNumbered
  have hoff : Deserted (c.duel.taken t ready) := alone.taken way.toStill hr hid
  have hmode : (c.duel.taken t ready).phase = .executing →
      (c.duel.taken t ready).continuous = false := fun hbusy =>
    (way.mode (fun hover => by cases hbusy.symm.trans hover)).trans hmanual
  rcases underway_step_own ht way hr hid hstep with
    ⟨a, later, rfl, ⟨hlater, hrests⟩ | hfails⟩ | hends
  · obtain ⟨hfewer, hasleep⟩ := hrests.length_le hr hstill.toNumbered
    refine ⟨n - 1, by omega, .away hlater (alone.rests hr hrests)
      (hrests.awaited.trans awaited) ?_⟩
    rw [List.length_cons] at enough
    omega
  · have hhome : Home c'.duel := hfails.home hoff awaited
    obtain ⟨fault, hfailed⟩ := hfails.failed hnumbered (congrArg some hid)
    refine ⟨n - 1, by omega, .home hstill hhome (left_of_gone hfailed.gone hfailed.outcome)
      (Or.inl ⟨fault, rfl, hfailed.why⟩) (hhome.enough ?_)⟩
    have hmore := hfails.length_ready
    simp only [Duel.taken] at hmore
    omega
  · have hhome : Home c'.duel := hends.home hoff awaited way.untimed hmode
    have hfinished := hends.finished hnumbered (congrArg some hid) way.scripts fun hp =>
      (way.mode hp).trans hmanual
    have hproper : c'.duel.arena.Proper := by
      exact happen_step hstep ▸ proper_happen hl way.toStill way.proper .step
    refine ⟨n - 1, by omega, .home hstill hhome
      (left_of_gone hfinished.gone hfinished.outcome)
      (Or.inr ⟨rfl, hends.settled hstill hproper way.started way.setting⟩) (hhome.enough ?_)⟩
    have hmore := hends.length_ready way.untimed hmode
    simp only [Duel.taken] at hmore
    omega

/-- A step of anybody else drops a task that has been called off. -/
theorem awaits_other (ht : Passive l.tell) (way : Underway r program c.duel)
    (alone : Alone r.id c.duel) (awaited : c.duel.awaited = some r.id)
    (enough : 2 * program.length + c.duel.schedule.tasks.length +
      c.duel.schedule.asleep.length + 3 ≤ n)
    (hr : c.duel.schedule.ready = t :: ready) (hid : t.id ≠ r.id)
    (hstep : c.step? l.tell = some c') : ∃ m < n, Awaits r m c'.duel := by
  obtain ⟨hway, -⟩ := underway_step_other ht.tells way hr hid hstep
  have hcancelled := (alone.others t (tasks_of_ready hr)).resolve_left hid
  have heq := step?_dropped hr hcancelled (fun hk => hid (alone.awaited _ hk)) hstep
  rw [heq] at hway ⊢
  refine ⟨n - 1, by omega, .away hway ⟨⟨alone.awaited, fun u hu => ?_⟩, fun u hu => ?_⟩
    awaited ?_⟩
  · exact alone.callers u (mem_tasks_taken hr hu)
  · exact alone.others u (mem_tasks_taken hr hu)
  · simp only [Schedule.tasks, hr, List.length_append, List.length_cons, List.length_map] at enough
    simp only [Schedule.tasks, List.length_append, List.length_map]
    omega

/-- When the caller is home, a step is made by somebody before it in the queue. -/
theorem awaits_home (ht : Passive l.tell) (still : Still c.duel) (home : Home c.duel)
    (left : Left r.id outcome c.duel)
    (came : (∃ fault, outcome = .failed fault ∧ r.Breaks fault) ∨
      outcome = r.outcome ∧ Settled r.setting r.standing c.duel)
    {before behind : List (Task Job)} {caller : Task Job}
    (hqueue : c.duel.schedule.ready = before ++ caller :: behind) (hcaller : caller.job = .caller)
    (hn : before.length ≤ n) (hr : c.duel.schedule.ready = t :: ready) (hj : t.job ≠ .caller)
    (hstep : c.step? l.tell = some c') : ∃ m < n, Awaits r m c'.duel := by
  have hstill : Still c'.duel := still_step? ht.tells still hstep
  obtain ⟨hhome, hapart, more, hready⟩ := home_step? home hr hstep
  obtain ⟨hleft, hne⟩ := left.taken hr
  cases before with
  | nil =>
    cases hr.symm.trans hqueue
    exact absurd hcaller hj
  | cons u before =>
    cases hr.symm.trans hqueue
    rw [List.length_cons] at hn
    refine ⟨n - 1, by omega, .home hstill hhome ?_
      (came.imp_right fun ⟨hdone, hsettled⟩ => ⟨hdone, hsettled.apart hapart hstill⟩)
      ⟨before, caller, behind ++ more, ?_, hcaller, by omega⟩⟩
    · rcases home_step_eq home hr hstep with ⟨other, heq⟩ | ⟨-, job, -, heq⟩
      · exact heq ▸ hleft.endTask hne home.awaited other
      · exact heq ▸ hleft.rest hne home.awaited job _
    · rw [← hready]
      simp

/-- Each step comes nearer to the caller's turn. -/
theorem awaits_step (hl : Mute seen l) (hmanual : r.continuous = false) (h : Awaits r n c.duel)
    (hstep : c.step? l.tell = some c') : ∃ m < n, Awaits r m c'.duel := by
  obtain ⟨t, ready, hr, hj, -⟩ := step?_taken l.tell hstep
  cases h with
  | away way alone awaited enough =>
    by_cases hid : t.id = r.id
    · exact awaits_own hl hmanual way alone awaited enough hr hid hstep
    · exact awaits_other (passive_tell hl) way alone awaited enough hr hid hstep
  | home still home left came enough =>
    obtain ⟨before, caller, behind, hqueue, hcaller, hn⟩ := enough
    exact awaits_home (passive_tell hl) still home left came hqueue hcaller hn hr hj hstep

/-- The same for each waking; nobody is woken any more when the caller is home. -/
theorem awaits_wake? (h : Awaits r n c.duel) (hr : c.duel.schedule.ready = [])
    (hwake : c.wake? = some c') : ∃ m < n, Awaits r m c'.duel := by
  cases h with
  | home still home left came enough =>
    obtain ⟨before, caller, behind, hqueue, -⟩ := enough
    simp [hr] at hqueue
  | @away program way alone awaited enough =>
    have hway := underway_wake? way hwake
    unfold wake? Schedule.wake? at hwake
    cases ha : c.duel.schedule.asleep with
    | nil => simp [ha] at hwake
    | cons x asleep =>
      simp only [ha, hr, List.nil_append, Option.map_some, Option.some.injEq] at hwake
      subst hwake
      have htasks (t : Task Job)
          (ht : t ∈ [x.task] ++ asleep.map (·.task)) : t ∈ c.duel.schedule.tasks := by
        simp only [Schedule.tasks, hr, ha, List.nil_append, List.map_cons]
        exact ht
      refine ⟨n - 1, by omega, .away hway ⟨⟨alone.awaited, fun t ht => alone.callers t
        (htasks t ht)⟩, fun t ht => alone.others t (htasks t ht)⟩ awaited ?_⟩
      simp only [Schedule.tasks, hr, ha, List.nil_append, List.length_map, List.length_cons]
        at enough
      simp only [update, Schedule.tasks, List.length_append, List.length_map, List.length_cons,
        List.length_nil]
      omega

/-- Whoever waits for a run with enough patience learns what came of it. Unless it broke off, it has
come to what the rules make of it, and the match is as it should be between two turns. -/
theorem awaits_arrives (hl : Mute seen l) (hmanual : r.continuous = false)
    (h : Awaits r n c.duel) (hn : n ≤ fuel) :
    let d := (c.untilCallerAt l.tell fuel).takeCaller.duel
    (∃ fault, d.outcome? r.id = some (.failed fault) ∧ r.Breaks fault) ∨
      d.outcome? r.id = some r.outcome ∧ Settled r.setting r.standing d ∧ Poised d := by
  intro d
  have hthere {n : Nat} {c : Coordinator M} (h : Awaits r n c.duel) :
      c.duel.schedule.tasks ≠ [] := by
    cases h with
    | away way alone awaited enough =>
      obtain ⟨job, -, hmem, -⟩ := way.there
      exact List.ne_nil_of_mem hmem
    | home still home left came enough =>
      obtain ⟨before, caller, behind, hqueue, -⟩ := enough
      simp [Schedule.tasks, hqueue]
  obtain ⟨m, harrived, caller, ready, hr, hj⟩ :=
    untilCallerAt_arrives (P := fun n c => Awaits r n c.duel) (awaits_step hl hmanual)
      awaits_wake? hthere h hn
  cases harrived with
  | away way alone awaited enough =>
    exact absurd hj (alone.callers caller (tasks_of_ready hr))
  | home still home left came enough =>
    have hstill := still.visited (visited_take _) (c.untilCallerAt l.tell fuel).duel.awaited
    rcases came with ⟨fault, rfl, hbreaks⟩ | ⟨rfl, hsettled⟩
    · exact Or.inl ⟨fault, left.outcome, hbreaks⟩
    · exact Or.inr ⟨left.outcome, hsettled.apart (apart_beside rfl) hstill, home.left hr hj⟩

end Coordinator

end MazeDuel.Turn
