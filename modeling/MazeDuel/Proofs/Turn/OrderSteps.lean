import MazeDuel.Proofs.Turn.Order
/-!
The order of a match through the steps of its tasks, and so through every history.
-/

namespace MazeDuel.Turn

namespace Duel

open Deed

theorem Orderly.started_of_running {d : Duel} (ho : Orderly d) {id : Nat}
    (hr : d.running = some id) : d.started = true := by
  by_contra hs
  have := (ho.unstarted (Bool.eq_false_iff.mpr hs)).1
  simp [ids, hr] at this

theorem ids_taken {d : Duel} {t : Task Job} {ready : List (Task Job)} (hn : d.running = none)
    (hr : d.schedule.ready = t :: ready) : (d.taken t ready).ids = d.ids := by
  simp [ids, taken, Schedule.ids, hn, hr]

theorem mem_tasks_taken {d : Duel} {t u : Task Job} {ready : List (Task Job)}
    (hr : d.schedule.ready = t :: ready) (hu : u ∈ (d.taken t ready).schedule.tasks) :
    u ∈ d.schedule.tasks := by
  simp only [taken, Schedule.tasks, hr, List.cons_append] at hu ⊢
  exact List.mem_cons_of_mem _ hu

theorem Orderly.taken {d : Duel} (ho : Orderly d) {t : Task Job} {ready : List (Task Job)}
    (hn : d.running = none) (hr : d.schedule.ready = t :: ready) : Orderly (d.taken t ready) where
  nodup := by
    rw [ids_taken hn hr]
    exact ho.nodup
  known := by
    rw [ids_taken hn hr]
    exact ho.known
  free := ho.free
  executing := ho.executing
  latest := ho.latest
  runs u hu := ho.runs u (mem_tasks_taken hr hu)
  own u hu := ho.own u (mem_tasks_taken hr hu)
  timers u hu := ho.timers u (mem_tasks_taken hr hu)
  watch id hid := ⟨(ho.watch id hid).1, fun u hu => (ho.watch id hid).2 u (mem_tasks_taken hr hu)⟩
  unstarted hs := by
    rw [ids_taken hn hr]
    exact ho.unstarted hs
  lawful := ho.lawful

theorem Orderly.stop {d : Duel} (ho : Orderly d) : Orderly { d with running := none } where
  nodup := ho.asleep
  known id hid := ho.known id (List.mem_append_right _ hid)
  free := ho.free
  executing := ho.executing
  latest := ho.latest
  runs := ho.runs
  own := ho.own
  timers := ho.timers
  watch := ho.watch
  unstarted hs := by
    have h := ho.unstarted hs
    exact ⟨(List.append_eq_nil_iff.mp h.1).2, h.2⟩
  lawful := ho.lawful

/-- Another task comes to a schedule: a new one, or the one that has made its step. -/
theorem Orderly.join {d d' : Duel} (ho : Orderly d) {id : Nat} {job : Job}
    (hd : ∃ schedule running awaited outcomes,
      d' = { d with schedule, running, awaited, outcomes })
    (hn : Numbered d') (ht : ∀ t ∈ d'.schedule.tasks, t = { id, job } ∨ t ∈ d.schedule.tasks)
    (hs : d.started = true) (hp : ∀ p, job.player? = some p → (id, p) ∈ unfinished d.deeds)
    (hown : job.Own) (htimer : job.isTimer ↔ d.timer = some id)
    (hf : d.schedule.fresh ≤ d'.schedule.fresh) : Orderly d' := by
  obtain ⟨schedule, running, awaited, outcomes, rfl⟩ := hd
  refine ⟨hn, ho.free, ho.executing, ho.latest, ?_, ?_, ?_, ?_, ?_, ho.lawful⟩
  · intro t hmem p htp
    rcases ht t hmem with rfl | hmem
    · exact hp p htp
    · exact ho.runs t hmem p htp
  · intro t hmem
    rcases ht t hmem with rfl | hmem
    · exact hown
    · exact ho.own t hmem
  · intro t hmem hj hl
    rcases ht t hmem with rfl | hmem
    · exact htimer.mp hj
    · exact ho.timers t hmem hj hl
  · intro x hx
    refine ⟨Nat.lt_of_lt_of_le (ho.watch x hx).1 hf, ?_⟩
    rintro t hmem rfl
    rcases ht t hmem with rfl | hmem
    · exact htimer.mpr hx
    · exact (ho.watch t.id hx).2 t hmem rfl
  · intro h
    exact absurd (hs.symm.trans h) (by decide)

theorem Orderly.endTask {d : Duel} (ho : Orderly d) (hs : d.started = true) (id : Nat)
    (outcome : Outcome) : Orderly (d.endTask id outcome) := by
  unfold Duel.endTask
  dsimp only
  split
  · refine ho.join ⟨_, _, _, _, rfl⟩ (ho.toNumbered.cons (ids_spawn .caller rfl rfl) rfl)
      (fun t ht => (Schedule.mem_tasks_spawn _ _ t).mp ht) hs ?_ ?_ ?_ (Nat.le_succ _)
    · exact fun p hp => nomatch hp
    · exact trivial
    · refine iff_of_false nofun ?_
      exact fun hid => Nat.lt_irrefl _ (ho.watch _ hid).1
  · exact ⟨⟨ho.nodup, ho.known⟩, ho.free, ho.executing, ho.latest, ho.runs, ho.own, ho.timers,
      ho.watch, ho.unstarted, ho.lawful⟩

theorem numbered_rest {d : Duel} (hn : Numbered d) {id : Nat} (job : Job) (delay : Float)
    (hr : d.running = some id) :
    Numbered { d with schedule := d.schedule.rest id job delay, running := none } := by
  have hperm : (d.schedule.rest id job delay).ids.Perm d.ids := by
    refine (d.schedule.ids_rest id job delay).trans ?_
    simp [ids, hr]
  constructor
  · exact hperm.nodup_iff.mpr hn.nodup
  · intro x hx
    exact Nat.lt_of_lt_of_le (hn.known x (hperm.mem_iff.mp hx))
      (d.schedule.fresh_le_rest id job delay)

theorem Orderly.rest {d : Duel} (ho : Orderly d) {id : Nat} {job : Job} (delay : Quantity)
    (hr : d.running = some id)
    (hp : ∀ p, job.player? = some p → (id, p) ∈ unfinished d.deeds)
    (hown : job.Own) (htimer : job.isTimer ↔ d.timer = some id) :
    Orderly { d.rest id job delay with running := none } := by
  have hs := ho.started_of_running hr
  unfold Duel.rest
  split
  · exact ho.join ⟨_, _, _, _, rfl⟩ (numbered_rest ho.toNumbered job _ hr)
      (fun t ht => (Schedule.mem_tasks_rest _ _ _ _ t).mp ht) hs hp hown htimer
      (d.schedule.fresh_le_rest id job _)
  · exact (ho.endTask hs id _).stop

/-- The task that is making its step does not wait for another. -/
theorem Numbered.not_mem_of_running {d : Duel} (h : Numbered d) {id : Nat} {t : Task Job}
    (hr : d.running = some id) (ht : t.id = id) : t ∉ d.schedule.tasks := by
  intro hmem
  have hn := h.nodup
  rw [ids, hr, Option.toList_some, List.singleton_append, List.nodup_cons, Schedule.ids_eq] at hn
  exact hn.1 (ht ▸ List.mem_map_of_mem hmem)

theorem Orderly.executing_of_mem {d : Duel} (ho : Orderly d) {x : Nat × Player}
    (hx : x ∈ unfinished d.deeds) (hp : d.phase ≠ .over) :
    d.phase = .executing ∧ x.2 = d.current ∧ unfinished d.deeds = [x] := by
  have hbusy : d.phase = .executing := by
    cases h : d.phase with
    | idle => simp [ho.free (Or.inl h)] at hx
    | editing => simp [ho.free (Or.inr h)] at hx
    | executing => rfl
    | _ => exact absurd h hp
  obtain ⟨id, hid⟩ := ho.executing hbusy
  rw [hid, List.mem_singleton] at hx
  subst hx
  exact ⟨hbusy, rfl, hid⟩

/-- The match when a run has closed its turn. -/
def closed (d : Duel) (id : Nat) (message : String) : Duel :=
  { d.note .debug message with phase := .idle }.remember (.closed id true)

theorem closeRun_executing {d : Duel} (h : d.phase = .executing) (id : Nat) :
    ∃ message, d.closeRun id = d.closed id message := by
  unfold closeRun fire
  rw [h]
  exact ⟨_, rfl⟩

/-- A run that has come to its end while the match goes on closes the turn, and no run is left. -/
theorem Orderly.closeRun {d : Duel} (ho : Orderly d) {id : Nat} {p : Player}
    (hr : d.running = some id) (hx : (id, p) ∈ unfinished d.deeds) (hp : d.phase ≠ .over) :
    ∃ message, d.closeRun id = d.closed id message ∧ Orderly (d.closed id message).passTurn := by
  obtain ⟨hbusy, -, hun⟩ := ho.executing_of_mem hx hp
  obtain ⟨message, heq⟩ := closeRun_executing hbusy id
  have hnone : unfinished (Deed.closed id true :: d.deeds) = [] := by
    rw [unfinished_closed, hun]
    simp
  refine ⟨message, heq, ⟨ho.nodup, ho.known⟩, fun _ => hnone, nofun, ?_, ?_, ho.own, ho.timers,
    ho.watch, ?_, ?_⟩
  · intro x hmem
    exact absurd (hnone ▸ hmem : x ∈ []) List.not_mem_nil
  · intro t ht q hq
    have hmem := ho.runs t ht q hq
    rw [hun, List.mem_singleton] at hmem
    exact absurd ht (ho.toNumbered.not_mem_of_running hr (congrArg Prod.fst hmem))
  · intro hs
    exact ⟨(ho.unstarted hs).1, hnone⟩
  · intro x hmem
    rcases List.mem_cons.mp hmem with rfl | hmem
    · rfl
    · exact ho.lawful x hmem

/-- With no run unfinished the turn can be passed on. -/
theorem Orderly.passTurn {d : Duel} (ho : Orderly d) (hun : unfinished d.deeds = [])
    (hp : d.phase ≠ .executing) : Orderly d.passTurn where
  toNumbered := ⟨ho.nodup, ho.known⟩
  free := ho.free
  executing h := absurd h hp
  latest x hx := by
    have hx' : x ∈ unfinished d.deeds := hx
    rw [hun] at hx'
    cases hx'
  runs := ho.runs
  own := ho.own
  timers := ho.timers
  watch := ho.watch
  unstarted := ho.unstarted
  lawful := ho.lawful

theorem Orderly.beginTurn {d : Duel} (ho : Orderly d) (hs : d.started = true) :
    Orderly d.beginTurn := by
  rcases d.beginTurn_cases with ⟨-, heq⟩ | ⟨hb, hm⟩
  · exact heq.symm ▸ ho
  · exact (ho.startTimer hs ((isBusy_eq_false d).mp hb)).moves hm

theorem started_beginTurn {d : Duel} (hs : d.started = true) : d.beginTurn.started = true := by
  rcases d.beginTurn_cases with ⟨-, heq⟩ | ⟨-, hm⟩
  · exact heq.symm ▸ hs
  · exact hm.started hs

/-- What a run still has to do it does for its own player. -/
theorem program?_own {d : Duel} {job : Job} {p : Player} {rest : List Action}
    {executed : List String} (h : d.program? job = some (p, rest, executed)) :
    job.player? = some p ∧ (job.Own → ∀ a ∈ rest, a.player = p) := by
  cases job with
  | begin q =>
    simp only [program?, Option.map_eq_some_iff, Prod.mk.injEq] at h
    obtain ⟨actions, ha, rfl, rfl, -⟩ := h
    refine ⟨rfl, fun _ => Script.boundTo_parseGiven q (d.scripts.get q) actions ?_⟩
    cases hv : (Script.parseGiven q (d.scripts.get q)).value with
    | error fault => simp [hv, Except.toOption] at ha
    | ok actions' =>
      simp only [hv, Except.toOption, Option.some.injEq] at ha
      rw [ha]
  | act q rest' executed' =>
    simp only [program?, Option.some.injEq, Prod.mk.injEq] at h
    obtain ⟨rfl, rfl, -⟩ := h
    exact ⟨rfl, id⟩
  | _ => cases h

/-- The order while a task makes its step. -/
structure Engaged (id : Nat) (job : Job) (d : Duel) : Prop extends Orderly d where
  busy : d.running = some id
  player : ∀ p, job.player? = some p → (id, p) ∈ unfinished d.deeds
  bound : job.Own
  timed : job.isTimer ↔ d.timer = some id

theorem Engaged.started {id : Nat} {job : Job} {d : Duel} (h : Engaged id job d) :
    d.started = true :=
  h.toOrderly.started_of_running h.busy

/-- A run that has something to do is not finished. -/
theorem Engaged.mem_unfinished {id : Nat} {job : Job} {d : Duel} {p : Player} {rest : List Action}
    {executed : List String} (h : Engaged id job d)
    (hp : d.program? job = some (p, rest, executed)) :
    (id, p) ∈ unfinished d.deeds :=
  h.player p (program?_own hp).1

/-- An action begins while a script may run and for the player to move. -/
theorem Engaged.began {id : Nat} {job : Job} {d e : Duel} {p : Player} {a : Action}
    {later : List Action} {executed : List String} (h : Engaged id job d)
    (hp : d.program? job = some (p, a :: later, executed)) (hover : d.phase ≠ .over)
    (hq : Quiet d e) : Orderly (e.remember (.began id a d.phase d.current)) := by
  obtain ⟨hbusy, hcurrent, -⟩ := h.executing_of_mem (h.mem_unfinished hp) hover
  have hplayer : a.player = p := (program?_own hp).2 h.bound a (List.mem_cons_self ..)
  have hlawful : Deed.Lawful (.began id a d.phase d.current) := ⟨hbusy, hplayer.trans hcurrent⟩
  exact (h.toOrderly.moves hq.moves).remember hlawful rfl

/-- A run that comes to its end before the match does closes the turn, and no timer runs. -/
theorem Engaged.closeRun {id : Nat} {job : Job} {d e : Duel} {p : Player} {rest : List Action}
    {executed : List String} (h : Engaged id job d)
    (hp : d.program? job = some (p, rest, executed)) (hover : d.phase ≠ .over) (hq : Quiet d e) :
    ∃ message, e.closeRun id = e.closed id message ∧ Orderly (e.closed id message).passTurn ∧
      e.timer = none := by
  have he : Orderly e := h.toOrderly.moves hq.moves
  have hmem : (id, p) ∈ unfinished e.deeds := hq.moves.unfinished (h.mem_unfinished hp)
  obtain ⟨message, heq, hclosed⟩ :=
    he.closeRun (hq.moves.running.trans h.busy) hmem (hq.phase ▸ hover)
  exact ⟨message, heq, hclosed, (he.latest _ hmem).2.2⟩

/-- A turn whose time has run out is passed on. -/
theorem Orderly.timedOut {d e : Duel} (ho : Orderly d) (hi : d.phase = .idle ∨ d.phase = .editing)
    (hq : Quiet { d with phase := .idle } e) : Orderly e.passTurn := by
  have hidle : Orderly { d with phase := .idle } := ho.setPhase (hi.imp_right Or.inl) (by decide)
  have he : Orderly e := hidle.moves hq.moves
  have hphase : e.phase = .idle := hq.phase
  exact he.passTurn (he.free (Or.inl hphase)) (by rw [hphase]; decide)

/-- A step keeps the order, with the task that makes it. -/
theorem Engaged.worked {id : Nat} {job : Job} {d d' : Duel} (h : Engaged id job d)
    (hw : Work id job d d') : Orderly { d' with running := none } := by
  have ho : Orderly d := h.toOrderly
  have hs := h.started
  cases hw with
  | unread fault hp hq => exact ((ho.moves hq.moves).endTask (hq.moves.started hs) _ _).stop
  | @acted _ _ e d'' p a later executed hp hover hq hm =>
    have hbegan := h.began hp hover hq
    have hleft := hm.unfinished (hq.moves.unfinished (h.mem_unfinished hp))
    refine (hbegan.moves hm).rest _ ?_ ?_ ?_ ?_
    · exact hm.running.trans (hq.moves.running.trans h.busy)
    · intro q hq'
      cases hq'
      exact hleft
    · exact fun x hx => (program?_own hp).2 h.bound x (List.mem_cons_of_mem _ hx)
    · refine iff_of_false nofun ?_
      exact fun hid => nomatch ((hbegan.moves hm).latest _ hleft).2.2.symm.trans hid
  | broke hp hover hf hq hm =>
    have hs' := hm.started (hq.moves.started hs)
    exact (((h.began hp hover hq).moves hm).endTask hs' _ _).stop
  | stopped result hp hover hq =>
    exact ((ho.moves hq.moves).endTask (hq.moves.started hs) _ _).stop
  | @closed _ _ e d'' p executed result hp hover hq hm hc =>
    obtain ⟨m, heq, hclosed, -⟩ := h.closeRun hp hover hq
    rw [heq] at hm
    have hd := hclosed.moves hm
    have hs' : d''.started = true := hm.started (hq.moves.started hs)
    exact ((hd.beginTurn hs').endTask (started_beginTurn hs') _ _).stop
  | @paused _ _ e d'' p executed result hp hover hq hm hc =>
    obtain ⟨m, heq, hclosed, hnone⟩ := h.closeRun hp hover hq
    rw [heq] at hm
    have hd : Orderly (d''.remember (.paused id d''.turnNumber)) :=
      (hclosed.moves hm).remember trivial rfl
    have htimer : d''.timer = none := hm.untimed (hq.moves.started hs) hnone
    have hrun := hm.running.trans (hq.moves.running.trans h.busy)
    refine hd.rest _ hrun nofun trivial (iff_of_false nofun ?_)
    exact fun hid => nomatch htimer.symm.trans hid
  | woke _ result =>
    have hd : Orderly (d.remember (.woke id d.turnNumber d.phase)) := ho.remember trivial rfl
    exact ((hd.beginTurn hs).endTask (started_beginTurn hs) _ _).stop
  | uncounted ht => exact (ho.endTask hs _ _).stop
  | counted ht => exact ho.rest _ h.busy nofun trivial h.timed
  | ticked hp hq =>
    refine (ho.moves hq.moves).rest _ (hq.moves.running.trans h.busy) nofun trivial ?_
    obtain ⟨_, _, _, _, rfl⟩ := hq
    exact h.timed
  | late hp hover hq => exact ((ho.moves hq.moves).endTask (hq.moves.started hs) _ _).stop
  | @expired _ e d'' passed total hp hi hq hm =>
    have hpass := ho.timedOut hi hq
    have hs' : d''.started = true := hm.started (hq.moves.started hs)
    exact (((hpass.moves hm).beginTurn hs').endTask (started_beginTurn hs') _ _).stop

/-- Between two steps: the order is kept and no task is making a step. -/
structure Resting (d : Duel) : Prop extends Orderly d where
  still : d.running = none

theorem resting_fresh (arena : Arena) (timing : Timing) (scripts : Duo Json) :
    Resting (fresh arena timing scripts) :=
  ⟨orderly_fresh arena timing scripts, rfl⟩

theorem tasks_of_ready {d : Duel} {t : Task Job} {ready : List (Task Job)}
    (hr : d.schedule.ready = t :: ready) : t ∈ d.schedule.tasks := by
  simp [Schedule.tasks, hr]

/-- A task that is taken from the queue makes its step in order. -/
theorem Resting.engaged {d : Duel} {t : Task Job} {ready : List (Task Job)} (ho : Resting d)
    (hr : d.schedule.ready = t :: ready) (hc : t.cancelled = false) :
    Engaged t.id t.job (d.taken t ready) where
  toOrderly := ho.toOrderly.taken ho.still hr
  busy := rfl
  player := ho.runs t (tasks_of_ready hr)
  bound := ho.own t (tasks_of_ready hr)
  timed := ⟨fun hj => ho.timers t (tasks_of_ready hr) hj hc,
    fun hid => (ho.watch t.id hid).2 t (tasks_of_ready hr) rfl⟩

theorem Resting.stepped {d d' : Duel} (h : Stepped d d') (ho : Resting d) : Resting d' := by
  cases h with
  | @dropped t ready hr hc =>
    have htaken := ho.toOrderly.taken ho.still hr
    exact ⟨(htaken.endTask (htaken.started_of_running rfl) _ _).stop, rfl⟩
  | @worked t ready d' hr hc hw => exact ⟨(ho.engaged hr hc).worked hw, rfl⟩

theorem Resting.woken {d : Duel} {schedule : Schedule Job} (ho : Resting d)
    (h : d.schedule.wake? = some schedule) : Resting { d with schedule } := by
  have htasks := Schedule.tasks_wake? h
  have hperm : ids { d with schedule } |>.Perm d.ids := (Schedule.ids_wake? h).append_left _
  refine ⟨⟨ho.toNumbered.perm hperm (Schedule.fresh_wake? h), ho.free, ho.executing, ho.latest, ?_,
    ?_, ?_, ?_, ?_, ho.lawful⟩, ho.still⟩
  · exact fun t ht => ho.runs t ((htasks t).mp ht)
  · exact fun t ht => ho.own t ((htasks t).mp ht)
  · exact fun t ht => ho.timers t ((htasks t).mp ht)
  · intro id hid
    rw [show schedule.fresh = d.schedule.fresh from Schedule.fresh_wake? h]
    exact ⟨(ho.watch id hid).1, fun t ht => (ho.watch id hid).2 t ((htasks t).mp ht)⟩
  · intro hs
    refine ⟨?_, (ho.unstarted hs).2⟩
    rw [(ho.unstarted hs).1] at hperm
    exact hperm.eq_nil

theorem Resting.goes {d d' : Duel} (h : Goes d d') (ho : Resting d) : Resting d' := by
  cases h with
  | moved hm => exact ⟨ho.toOrderly.moves hm, hm.running.trans ho.still⟩
  | stepped hs => exact ho.stepped hs
  | woken hw => exact ho.woken hw
  | timed now =>
    exact ⟨⟨⟨ho.nodup, ho.known⟩, ho.free, ho.executing, ho.latest, ho.runs, ho.own, ho.timers,
      ho.watch, ho.unstarted, ho.lawful⟩, ho.still⟩

end Duel

namespace Coordinator

open Duel

/-- A match keeps its order through every history. -/
theorem resting_after {M : Type} (l : Listener M) (arena : Arena) (timing : Timing)
    (scripts : Duo Json) (memory : M) (hs : List Happening) :
    Resting ((fresh arena timing scripts memory).after l hs).duel :=
  after_keeps Resting.goes l _ hs (resting_fresh arena timing scripts)

/-- Mutual exclusion of runs, after every history: while a script may run, one run is unfinished,
which belongs to the player to move, and no other task executes a program; while the player to move
may edit, no task does. Every action began while a script might run and for the player to move, and
no run that came to its end before the match did was kept from closing its turn. -/
theorem run_exclusive {M : Type} (l : Listener M) (arena : Arena) (timing : Timing)
    (scripts : Duo Json) (memory : M) (hs : List Happening) :
    let d := ((fresh arena timing scripts memory).after l hs).duel
    (d.phase = .executing → ∃ id, Deed.unfinished d.deeds = [(id, d.current)] ∧
      ∀ t ∈ d.schedule.tasks, ∀ p, t.job.player? = some p → t.id = id ∧ p = d.current) ∧
    (d.phase = .idle ∨ d.phase = .editing → Deed.unfinished d.deeds = [] ∧
      ∀ t ∈ d.schedule.tasks, t.job.player? = none) ∧
    (∀ run a phase current, .began run a phase current ∈ d.deeds →
      phase = .executing ∧ a.player = current) ∧
    ∀ run taken, .closed run taken ∈ d.deeds → taken = true := by
  intro d
  have ho : Resting d := resting_after l arena timing scripts memory hs
  refine ⟨?_, ?_, ?_, ?_⟩
  · intro hp
    obtain ⟨id, hid⟩ := ho.executing hp
    refine ⟨id, hid, ?_⟩
    intro t ht p htp
    have hmem := ho.runs t ht p htp
    rw [hid, List.mem_singleton, Prod.mk.injEq] at hmem
    exact hmem
  · intro hp
    refine ⟨ho.free hp, ?_⟩
    intro t ht
    cases htp : t.job.player? with
    | none => rfl
    | some p =>
      have hmem := ho.runs t ht p htp
      rw [ho.free hp] at hmem
      cases hmem
  · exact fun run a phase current hmem => ho.lawful _ hmem
  · exact fun run taken hmem => ho.lawful _ hmem

end Coordinator

end MazeDuel.Turn
