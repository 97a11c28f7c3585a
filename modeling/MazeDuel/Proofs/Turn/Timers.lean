import MazeDuel.Proofs.Turn.OrderSteps
/-!
Timers and pauses: the timer of a turn is started once and no run acts in a turn that another one
has brought about, as long as every run comes back from its pause in the turn that it left.
-/

namespace MazeDuel.Turn

namespace Deed

/-- The turn that a timer was started for. -/
def timedTurn? : Deed → Option Nat
  | timed _ turn _ => some turn
  | _ => none

/-- The turns that timers were started for, the latest first. -/
def timedTurns (deeds : List Deed) : List Nat := deeds.filterMap timedTurn?

/-- The task that started a run or a timer in its step, and the turn in which it did. -/
def start? : Deed → Option (Nat × Nat)
  | accepted _ _ turn author => author.map (·, turn)
  | timed _ turn author => author.map (·, turn)
  | _ => none

/-- Whether every run came back from its pause in the turn that it had brought about, or too late to
start anything. -/
def OnTime (deeds : List Deed) : Prop :=
  ∀ run turn now phase, paused run turn ∈ deeds → woke run now phase ∈ deeds →
    now = turn ∨ phase = .executing ∨ phase = .over

/-- Whether runs that had paused started runs and timers only in the turn that they had brought
about. -/
def Loyal (deeds : List Deed) : Prop :=
  ∀ run turn, paused run turn ∈ deeds → ∀ x ∈ deeds, ∀ now, x.start? = some (run, now) → now = turn

theorem OnTime.of_suffix {deeds deeds' : List Deed} (h : OnTime deeds') (hs : deeds <:+ deeds') :
    OnTime deeds :=
  fun run turn now phase hp hw => h run turn now phase (hs.subset hp) (hs.subset hw)

end Deed

namespace Duel

open Deed

/-- Whether a request may do a deed: it starts a run in the turn as it is, or replaces a script. -/
def Asked (d : Duel) (x : Deed) : Prop :=
  (∃ id p, x = .accepted id p d.turnNumber d.running) ∨
    ∃ p script phase current, x = .scripted p script phase current

/-- What the requests of a match in play add to it: the deeds that they may do, and tasks that have
not paused. -/
structure Adds (d d' : Duel) : Prop where
  deeds : ∃ more, d'.deeds = more ++ d.deeds ∧ ∀ x ∈ more, d.Asked x
  turnNumber : d'.turnNumber = d.turnNumber
  running : d'.running = d.running
  started : d'.started = d.started
  fresh : d.schedule.fresh ≤ d'.schedule.fresh
  tasks : ∀ t ∈ d'.schedule.tasks, (∃ u ∈ d.schedule.tasks, u.id = t.id ∧ u.job = t.job) ∨
    d.schedule.fresh ≤ t.id ∧ t.job.isPause = false

theorem Adds.refl (d : Duel) : Adds d d :=
  ⟨⟨[], rfl, nofun⟩, rfl, rfl, rfl, Nat.le_refl _, fun t ht => Or.inl ⟨t, ht, rfl, rfl⟩⟩

theorem Adds.trans {d d' d'' : Duel} (h : Adds d d') (h' : Adds d' d'') : Adds d d'' where
  deeds := by
    obtain ⟨more, heq, hmore⟩ := h.deeds
    obtain ⟨more', heq', hmore'⟩ := h'.deeds
    refine ⟨more' ++ more, by rw [heq', heq, List.append_assoc], ?_⟩
    intro x hx
    rcases List.mem_append.mp hx with hx | hx
    · unfold Asked
      rw [← h.turnNumber, ← h.running]
      exact hmore' x hx
    · exact hmore x hx
  turnNumber := h'.turnNumber.trans h.turnNumber
  running := h'.running.trans h.running
  started := h'.started.trans h.started
  fresh := Nat.le_trans h.fresh h'.fresh
  tasks t ht := by
    rcases h'.tasks t ht with ⟨u, hu, hid, hjob⟩ | ⟨hf, hj⟩
    · rcases h.tasks u hu with ⟨v, hv, hid', hjob'⟩ | ⟨hf, hj⟩
      · exact Or.inl ⟨v, hv, hid'.trans hid, hjob'.trans hjob⟩
      · exact Or.inr ⟨hid ▸ hf, hjob ▸ hj⟩
    · exact Or.inr ⟨Nat.le_trans h.fresh hf, hj⟩

/-- Changes beside the turns and the tasks add nothing. -/
theorem adds_apart {d d' : Duel} (hschedule : d'.schedule = d.schedule)
    (hdeeds : d'.deeds = d.deeds)
    (hturn : d'.turnNumber = d.turnNumber) (hrunning : d'.running = d.running)
    (hstarted : d'.started = d.started) : Adds d d' := by
  refine ⟨⟨[], hdeeds, nofun⟩, hturn, hrunning, hstarted, ?_, ?_⟩
  · exact Nat.le_of_eq (congrArg Schedule.fresh hschedule).symm
  · intro t ht
    rw [hschedule] at ht
    exact Or.inl ⟨t, ht, rfl, rfl⟩

theorem adds_cancelTimer (d : Duel) : Adds d d.cancelTimer :=
  ⟨⟨[], rfl, nofun⟩, rfl, rfl, rfl, Nat.le_of_eq d.fresh_cancelTimer.symm, fun _ ht =>
    Or.inl (of_mem_cancelTimer ht)⟩

/-- What a new task adds that is no pause. -/
theorem adds_spawn {d d' : Duel} (job : Job) (hj : job.isPause = false)
    (hs : d'.schedule = (d.schedule.spawn job).2)
    (hdeeds : ∃ more, d'.deeds = more ++ d.deeds ∧ ∀ x ∈ more, d.Asked x)
    (hturn : d'.turnNumber = d.turnNumber) (hrunning : d'.running = d.running)
    (hstarted : d'.started = d.started) : Adds d d' := by
  refine ⟨hdeeds, hturn, hrunning, hstarted, ?_, ?_⟩
  · rw [hs]
    exact Nat.le_succ _
  · intro t ht
    rw [hs, Schedule.mem_tasks_spawn] at ht
    rcases ht with rfl | ht
    · exact Or.inr ⟨Nat.le_refl _, hj⟩
    · exact Or.inl ⟨t, ht, rfl, rfl⟩

theorem adds_accept (d : Duel) (p : Player) : Adds d (d.accept p) := by
  refine d.adds_cancelTimer.trans
    (adds_spawn (.begin p) rfl rfl ⟨[_], rfl, ?_⟩ rfl rfl rfl)
  intro x hx
  rw [List.mem_singleton] at hx
  exact Or.inl ⟨_, _, hx⟩

theorem adds_setScript (d : Duel) (p : Player) (script : Json) :
    Adds d ({ d with scripts := d.scripts.set p script }.remember
      (.scripted p script d.phase d.current)) := by
  refine ⟨⟨[_], rfl, ?_⟩, rfl, rfl, rfl, Nat.le_refl _, fun t ht => Or.inl ⟨t, ht, rfl, rfl⟩⟩
  intro x hx
  rw [List.mem_singleton] at hx
  exact Or.inr ⟨_, _, _, _, hx⟩

theorem Moves.adds {d d' : Duel} (h : Moves d d') (hs : d.started = true) : Adds d d' := by
  refine h.keeps (P := fun e => Adds d e) ?_ ?_ ?_ (.refl d)
  · intro e e' hm he
    cases hm with
    | script script hp => exact he.trans (adds_setScript _ _ _)
    | accept _ hp =>
      have hbusy : Adds e { e with phase := .executing } := adds_apart rfl rfl rfl rfl rfl
      exact he.trans (hbusy.trans (adds_accept _ _))
    | opening _ _ hn => exact absurd ((he.started.trans hs).symm.trans hn) (by decide)
    | _ => exact he.trans (adds_apart rfl rfl rfl rfl rfl)
  · intro e winner reason journal hp hr he
    have hover : Adds e { e with phase := .over } := adds_apart rfl rfl rfl rfl rfl
    exact he.trans ((hover.trans (adds_cancelTimer _)).trans (adds_apart rfl rfl rfl rfl rfl))
  · intro e he
    exact he.trans (adds_apart rfl rfl rfl rfl rfl)

/-- While a script may run or the match is over, requests start nothing and do not change that. -/
theorem Moves.stays_busy {d d' : Duel} (h : Moves d d') (hs : d.started = true)
    (hb : d.isBusy = true) : d'.started = true ∧ d'.isBusy = true ∧ d'.deeds = d.deeds := by
  refine h.keeps (P := fun e => e.started = true ∧ e.isBusy = true ∧ e.deeds = d.deeds) ?_ ?_ ?_
    ⟨hs, hb, rfl⟩
  · intro e e' hm he
    have hidle : ¬ (e.phase = .idle ∨ e.phase = .editing) := by
      rw [← isBusy_eq_false, he.2.1]
      decide
    cases hm with
    | script _ hp => exact absurd hp hidle
    | edit phase hp => exact absurd hp hidle
    | accept _ hp => exact absurd hp hidle
    | opening _ _ hn => exact absurd (he.1.symm.trans hn) (by decide)
    | _ => exact he
  · intro e winner reason journal hp hr he
    exact ⟨he.1, rfl, he.2.2⟩
  · intro e he
    exact he

theorem Moves.busy {d d' : Duel} (h : Moves d d') (hs : d.started = true) (hb : d.isBusy = true) :
    d'.deeds = d.deeds :=
  (h.stays_busy hs hb).2.2

/-- Whether nothing tells of a task: it has not paused and started nothing. -/
def Untraced (d : Duel) (id : Nat) : Prop :=
  (∀ turn, .paused id turn ∉ d.deeds) ∧ ∀ x ∈ d.deeds, ∀ turn, x.start? ≠ some (id, turn)

/-- What holds of a task that waits for a step: a run in its pause has told of it, others have told
nothing, and if every run came back in time, the turn that a run is still to begin has no timer. -/
structure Fits (d : Duel) (t : Task Job) : Prop where
  pause : t.job.isPause → ∃ turn, .paused t.id turn ∈ d.deeds
  other : t.job.isPause = false → d.Untraced t.id
  untimed : OnTime d.deeds → .paused t.id d.turnNumber ∈ d.deeds →
    d.turnNumber ∉ timedTurns d.deeds

structure Timed (d : Duel) : Prop where
  timed : ∀ turn ∈ timedTurns d.deeds, turn ≤ d.turnNumber
  paused : ∀ run turn, .paused run turn ∈ d.deeds →
    run < d.schedule.fresh ∧ turn ≤ d.turnNumber
  starts : ∀ x ∈ d.deeds, ∀ run turn, x.start? = some (run, turn) → run < d.schedule.fresh
  /-- Each run that paused has brought about a turn of its own. -/
  apart : ∀ run turn run' turn', .paused run turn ∈ d.deeds → .paused run' turn' ∈ d.deeds →
    (run = run' ↔ turn = turn')
  tasks : ∀ t ∈ d.schedule.tasks, d.Fits t
  unstarted : d.started = false → timedTurns d.deeds = []
  once : OnTime d.deeds → (timedTurns d.deeds).Nodup
  loyal : OnTime d.deeds → Loyal d.deeds

theorem timed_fresh (arena : Arena) (timing : Timing) (scripts : Duo Json) :
    Timed (fresh arena timing scripts) where
  timed := nofun
  paused := nofun
  starts := nofun
  apart := nofun
  tasks := nofun
  unstarted _ := rfl
  once _ := List.nodup_nil
  loyal _ := nofun

theorem Timed.untraced {d : Duel} (h : Timed d) {id : Nat} (hf : d.schedule.fresh ≤ id) :
    d.Untraced id :=
  ⟨fun turn hp => Nat.not_lt_of_le hf (h.paused id turn hp).1,
    fun x hx turn hs => Nat.not_lt_of_le hf (h.starts x hx id turn hs)⟩

theorem Untraced.fits {d : Duel} {t : Task Job} (h : d.Untraced t.id) (hj : t.job.isPause = false) :
    d.Fits t where
  pause hj' := by
    rw [hj] at hj'
    cases hj'
  other _ := h
  untimed _ hp := absurd hp (h.1 _)

/-- Tasks go, and others come that fit. -/
theorem Timed.join {d d' : Duel} (h : Timed d) (hdeeds : d'.deeds = d.deeds)
    (hturn : d'.turnNumber = d.turnNumber) (hstarted : d'.started = d.started)
    (hfresh : d.schedule.fresh ≤ d'.schedule.fresh)
    (ht : ∀ t ∈ d'.schedule.tasks, t ∈ d.schedule.tasks ∨ d.Fits t) : Timed d' := by
  have hfits {t : Task Job} (hd : d.Fits t) : d'.Fits t := by
    constructor
    · rw [hdeeds]
      exact hd.pause
    · unfold Untraced
      rw [hdeeds]
      exact hd.other
    · rw [hdeeds, hturn]
      exact hd.untimed
  refine ⟨?_, ?_, ?_, ?_, ?_, ?_, ?_, ?_⟩
  · rw [hdeeds, hturn]
    exact h.timed
  · rw [hdeeds, hturn]
    exact fun run turn hp =>
      ⟨Nat.lt_of_lt_of_le (h.paused run turn hp).1 hfresh, (h.paused run turn hp).2⟩
  · rw [hdeeds]
    exact fun x hx run turn hs => Nat.lt_of_lt_of_le (h.starts x hx run turn hs) hfresh
  · rw [hdeeds]
    exact h.apart
  · intro t hmem
    rcases ht t hmem with hmem | hd
    · exact hfits (h.tasks t hmem)
    · exact hfits hd
  · rw [hdeeds, hstarted]
    exact h.unstarted
  · rw [hdeeds]
    exact h.once
  · rw [hdeeds]
    exact h.loyal

theorem Adds.suffix {d d' : Duel} (ha : Adds d d') : d.deeds <:+ d'.deeds := by
  obtain ⟨more, heq, -⟩ := ha.deeds
  exact ⟨more, heq.symm⟩

theorem Adds.timedTurns {d d' : Duel} (ha : Adds d d') :
    Deed.timedTurns d'.deeds = Deed.timedTurns d.deeds := by
  obtain ⟨more, heq, hmore⟩ := ha.deeds
  unfold Deed.timedTurns
  rw [heq, List.filterMap_append, List.filterMap_eq_nil_iff.mpr, List.nil_append]
  intro x hx
  rcases hmore x hx with ⟨id, p, rfl⟩ | ⟨p, script, phase, q, rfl⟩ <;> rfl

theorem Adds.of_paused {d d' : Duel} (ha : Adds d d') {run turn : Nat}
    (h : .paused run turn ∈ d'.deeds) : .paused run turn ∈ d.deeds := by
  obtain ⟨more, heq, hmore⟩ := ha.deeds
  rw [heq] at h
  refine (List.mem_append.mp h).resolve_left ?_
  intro hmem
  rcases hmore _ hmem with ⟨id, p, hx⟩ | ⟨p, script, phase, q, hx⟩ <;> cases hx

theorem Adds.of_start {d d' : Duel} (ha : Adds d d') {x : Deed} {run turn : Nat}
    (hx : x ∈ d'.deeds) (hs : x.start? = some (run, turn)) :
    x ∈ d.deeds ∨ d.running = some run ∧ turn = d.turnNumber := by
  obtain ⟨more, heq, hmore⟩ := ha.deeds
  rw [heq] at hx
  rcases List.mem_append.mp hx with hx | hx
  · rcases hmore x hx with ⟨id, p, rfl⟩ | ⟨p, script, phase, q, rfl⟩
    · obtain ⟨author, hauthor, heq⟩ := Option.map_eq_some_iff.mp hs
      cases heq
      exact Or.inr ⟨hauthor, rfl⟩
    · cases hs
  · exact Or.inl hx

/-- Whether the task that makes its step, if it has paused, is in the turn that it brought about. -/
def Lead (d : Duel) : Prop :=
  ∀ run turn, d.running = some run → .paused run turn ∈ d.deeds → OnTime d.deeds →
    turn = d.turnNumber

/-- Whether the timer of the turn may be started: if every run came back in time, it was not started
yet and no run is still to start it. -/
def Clear (d : Duel) : Prop :=
  OnTime d.deeds → d.turnNumber ∉ timedTurns d.deeds ∧
    ∀ t ∈ d.schedule.tasks, .paused t.id d.turnNumber ∉ d.deeds

/-- A match grows without a pause: it has new tasks, runs that the task in its step has started if
it leads, and a timer if its turn is clear. -/
structure Grows (d d' : Duel) : Prop where
  suffix : d.deeds <:+ d'.deeds
  turnNumber : d'.turnNumber = d.turnNumber
  started : d.started = true → d'.started = true
  fresh : d.schedule.fresh ≤ d'.schedule.fresh
  tasks : ∀ t ∈ d'.schedule.tasks, (∃ u ∈ d.schedule.tasks, u.id = t.id ∧ u.job = t.job) ∨
    d.schedule.fresh ≤ t.id ∧ t.job.isPause = false
  paused : ∀ run turn, .paused run turn ∈ d'.deeds → .paused run turn ∈ d.deeds
  starts : ∀ x ∈ d'.deeds, ∀ run turn, x.start? = some (run, turn) →
    x ∈ d.deeds ∨ d.running = some run ∧ turn = d.turnNumber ∧ Lead d
  timed : Deed.timedTurns d'.deeds = Deed.timedTurns d.deeds ∨
    d.started = true ∧ Clear d ∧
      Deed.timedTurns d'.deeds = d.turnNumber :: Deed.timedTurns d.deeds

theorem Adds.grows {d d' : Duel} (ha : Adds d d') (hl : Lead d) : Grows d d' where
  suffix := ha.suffix
  turnNumber := ha.turnNumber
  started := ha.started.trans
  fresh := ha.fresh
  tasks := ha.tasks
  paused _ _ := ha.of_paused
  starts _ hx _ _ hs := (ha.of_start hx hs).imp_right fun ⟨hr, hturn⟩ => ⟨hr, hturn, hl⟩
  timed := Or.inl ha.timedTurns

/-- Deeds that are neither pauses nor starts do no harm. -/
theorem grows_remember (d : Duel) {x : Deed} (hp : ∀ run turn, x ≠ .paused run turn)
    (hs : x.start? = none) (ht : x.timedTurn? = none) : Grows d (d.remember x) := by
  refine ⟨List.suffix_cons _ _, rfl, id, Nat.le_refl _, ?_, ?_, ?_, Or.inl ?_⟩
  · exact fun t ht => Or.inl ⟨t, ht, rfl, rfl⟩
  · exact fun run turn hmem => (List.mem_cons.mp hmem).resolve_left fun heq => hp run turn heq.symm
  · intro y hy run turn hy'
    rcases List.mem_cons.mp hy with rfl | hy
    · cases hs.symm.trans hy'
    · exact Or.inl hy
  · exact List.filterMap_cons_none ht

theorem grows_startTimer {d : Duel} (hl : Lead d) (hc : Clear d) (hs : d.started = true) :
    Grows d d.startTimer := by
  refine ⟨List.suffix_cons _ _, rfl, id, ?_, ?_, ?_, ?_, Or.inr ⟨hs, hc, rfl⟩⟩
  · exact Nat.le_succ_of_le (Nat.le_of_eq d.fresh_cancelTimer.symm)
  · intro t ht
    rcases (Schedule.mem_tasks_spawn _ _ t).mp ht with rfl | ht
    · exact Or.inr ⟨Nat.le_of_eq d.fresh_cancelTimer.symm, rfl⟩
    · exact Or.inl (of_mem_cancelTimer ht)
  · exact fun run turn hmem => (List.mem_cons.mp hmem).resolve_left nofun
  · intro y hy run turn hy'
    rcases List.mem_cons.mp hy with rfl | hy
    · obtain ⟨author, hauthor, heq⟩ := Option.map_eq_some_iff.mp hy'
      cases heq
      exact Or.inr ⟨hauthor, rfl, hl⟩
    · exact Or.inl hy

theorem Timed.grows {d d' : Duel} (h : Timed d) (hn : Numbered d) (hg : Grows d d') :
    Timed d' := by
  have hrunning {run : Nat} (hr : d.running = some run) : run < d.schedule.fresh :=
    hn.known run (mem_ids.mpr (Or.inl hr))
  have hearlier (hot : OnTime d'.deeds) : OnTime d.deeds := hot.of_suffix hg.suffix
  refine ⟨?_, ?_, ?_, ?_, ?_, ?_, ?_, ?_⟩
  · intro turn hmem
    rw [hg.turnNumber]
    rcases hg.timed with heq | ⟨-, -, heq⟩
    · exact h.timed turn (heq ▸ hmem)
    · rw [heq, List.mem_cons] at hmem
      exact hmem.elim Nat.le_of_eq (h.timed turn)
  · intro run turn hp
    rw [hg.turnNumber]
    obtain ⟨hf, hturn⟩ := h.paused run turn (hg.paused run turn hp)
    exact ⟨Nat.lt_of_lt_of_le hf hg.fresh, hturn⟩
  · intro x hx run turn hs
    refine Nat.lt_of_lt_of_le ?_ hg.fresh
    rcases hg.starts x hx run turn hs with hx | ⟨hr, -⟩
    · exact h.starts x hx run turn hs
    · exact hrunning hr
  · exact fun run turn run' turn' hp hp' =>
      h.apart run turn run' turn' (hg.paused run turn hp) (hg.paused run' turn' hp')
  · intro t ht
    have huntraced (hu : d.Untraced t.id) (hne : d.running ≠ some t.id) : d'.Untraced t.id := by
      refine ⟨fun turn hp => hu.1 turn (hg.paused _ _ hp), fun x hx turn hs => ?_⟩
      rcases hg.starts x hx _ turn hs with hx | ⟨hr, -⟩
      · exact hu.2 x hx turn hs
      · exact hne hr
    rcases hg.tasks t ht with ⟨u, hu, hid, hjob⟩ | ⟨hf, hj⟩
    · have hfits := h.tasks u hu
      refine ⟨?_, ?_, ?_⟩
      · intro hj
        obtain ⟨turn, hp⟩ := hfits.pause (hjob ▸ hj)
        exact ⟨turn, hg.suffix.subset (hid ▸ hp)⟩
      · intro hj
        exact huntraced (hid ▸ hfits.other (hjob ▸ hj))
          fun hr => hn.not_mem_of_running hr hid hu
      · intro hot hp
        rw [hg.turnNumber] at hp ⊢
        have hp' := hid ▸ hg.paused _ _ hp
        rcases hg.timed with heq | ⟨-, hc, -⟩
        · exact heq ▸ hfits.untimed (hearlier hot) hp'
        · exact absurd hp' ((hc (hearlier hot)).2 u hu)
    · refine (huntraced (h.untraced hf) fun hr => ?_).fits hj
      exact Nat.not_lt_of_le hf (hrunning hr)
  · intro hs'
    have hs : d.started = false := Bool.eq_false_iff.mpr fun hs => by simp [hg.started hs] at hs'
    rcases hg.timed with heq | ⟨hs'', -⟩
    · exact heq.trans (h.unstarted hs)
    · cases hs.symm.trans hs''
  · intro hot
    rcases hg.timed with heq | ⟨-, hc, heq⟩
    · exact heq ▸ h.once (hearlier hot)
    · exact heq ▸ List.nodup_cons.mpr ⟨(hc (hearlier hot)).1, h.once (hearlier hot)⟩
  · intro hot run turn hp x hx now hs
    have hp' := hg.paused run turn hp
    rcases hg.starts x hx run now hs with hx | ⟨hr, hnow, hl⟩
    · exact h.loyal (hearlier hot) run turn hp' x hx now hs
    · exact hnow.trans (hl run turn hr hp' (hearlier hot)).symm

/-- What moves keep of the task that makes its step. -/
theorem Lead.adds {d d' : Duel} (hl : Lead d) (ha : Adds d d') : Lead d' := by
  intro run turn hr hp hot
  rw [ha.turnNumber]
  exact hl run turn (ha.running.symm.trans hr) (ha.of_paused hp) (hot.of_suffix ha.suffix)

end Duel

end MazeDuel.Turn
