import MazeDuel.Proofs.Script.Players
import MazeDuel.Proofs.Turn.History
/-!
The order that a match keeps: which runs are unfinished in which phase, and that the tasks which
wait for a step belong to them.
-/

namespace MazeDuel.Turn

namespace Deed

/-- The runs that were accepted and have not tried to close their turn, with their players; the
latest first. -/
def unfinished : List Deed → List (Nat × Player)
  | [] => []
  | accepted run player _ _ :: deeds => (run, player) :: unfinished deeds
  | closed run _ :: deeds => (unfinished deeds).filter (·.1 != run)
  | _ :: deeds => unfinished deeds

@[simp] theorem unfinished_nil : unfinished [] = [] := rfl

@[simp] theorem unfinished_opened (phase : Phase) (deeds : List Deed) :
    unfinished (opened phase :: deeds) = unfinished deeds := rfl

@[simp] theorem unfinished_scripted (p : Player) (script : Json) (phase : Phase)
    (current : Player) (deeds : List Deed) :
    unfinished (scripted p script phase current :: deeds) = unfinished deeds := rfl

@[simp] theorem unfinished_accepted (run : Nat) (p : Player) (turn : Nat) (author : Option Nat)
    (deeds : List Deed) :
    unfinished (accepted run p turn author :: deeds) = (run, p) :: unfinished deeds := rfl

@[simp] theorem unfinished_began (run : Nat) (a : Action) (phase : Phase) (p : Player)
    (deeds : List Deed) : unfinished (began run a phase p :: deeds) = unfinished deeds := rfl

@[simp] theorem unfinished_closed (run : Nat) (taken : Bool) (deeds : List Deed) :
    unfinished (closed run taken :: deeds) = (unfinished deeds).filter (·.1 != run) := rfl

@[simp] theorem unfinished_timed (timer turn : Nat) (author : Option Nat) (deeds : List Deed) :
    unfinished (timed timer turn author :: deeds) = unfinished deeds := rfl

@[simp] theorem unfinished_paused (run turn : Nat) (deeds : List Deed) :
    unfinished (paused run turn :: deeds) = unfinished deeds := rfl

@[simp] theorem unfinished_woke (run turn : Nat) (phase : Phase) (deeds : List Deed) :
    unfinished (woke run turn phase :: deeds) = unfinished deeds := rfl

/-- Whether a deed is in order: actions begin only while a script may run and for the player to
move, and a run that has come to its end closes the turn. -/
def Lawful : Deed → Prop
  | began _ action phase current => phase = .executing ∧ action.player = current
  | closed _ taken => taken = true
  | _ => True

end Deed

namespace Job

/-- The player whose program a task is executing. -/
def player? : Job → Option Player
  | begin p => some p
  | act p _ _ => some p
  | _ => none

/-- Whether the actions still to come are bound to the player of the run. -/
def Own : Job → Prop
  | act p rest _ => ∀ a ∈ rest, a.player = p
  | _ => True

def isTimer : Job → Bool
  | timer => true
  | tick _ _ => true
  | _ => false

def isPause : Job → Bool
  | pause _ => true
  | _ => false

end Job

namespace Duel

open Deed

/-- The ids of the tasks that have not ended, the one that is making its step first. -/
def ids (d : Duel) : List Nat := d.running.toList ++ d.schedule.ids

/-- Task ids are never used twice. -/
structure Numbered (d : Duel) : Prop where
  nodup : d.ids.Nodup
  known : ∀ id ∈ d.ids, id < d.schedule.fresh

/-- The order of a match, also in the middle of a step. -/
structure Orderly (d : Duel) : Prop extends Numbered d where
  free : d.phase = .idle ∨ d.phase = .editing → unfinished d.deeds = []
  executing : d.phase = .executing → ∃ id, unfinished d.deeds = [(id, d.current)]
  /-- An unfinished run is the one accepted last, and no timer runs beside it. -/
  latest : ∀ x ∈ unfinished d.deeds, x.2 = d.current ∧ d.execution = some x.1 ∧ d.timer = none
  runs : ∀ t ∈ d.schedule.tasks, ∀ p, t.job.player? = some p → (t.id, p) ∈ unfinished d.deeds
  own : ∀ t ∈ d.schedule.tasks, t.job.Own
  /-- A timer that was not called off is the one that the match knows of. -/
  timers : ∀ t ∈ d.schedule.tasks, t.job.isTimer → t.cancelled = false → d.timer = some t.id
  watch : ∀ id, d.timer = some id → id < d.schedule.fresh ∧
    ∀ t ∈ d.schedule.tasks, t.id = id → t.job.isTimer
  unstarted : d.started = false → d.ids = [] ∧ unfinished d.deeds = []
  lawful : ∀ x ∈ d.deeds, x.Lawful

theorem orderly_fresh (arena : Arena) (timing : Timing) (scripts : Duo Json) :
    Orderly (fresh arena timing scripts) where
  nodup := List.nodup_nil
  known := nofun
  free _ := rfl
  executing := nofun
  latest := nofun
  runs := nofun
  own := nofun
  timers := nofun
  watch := nofun
  unstarted _ := ⟨rfl, rfl⟩
  lawful := nofun

theorem mem_ids {d : Duel} {id : Nat} :
    id ∈ d.ids ↔ d.running = some id ∨ ∃ t ∈ d.schedule.tasks, t.id = id := by
  simp [ids, Schedule.ids_eq]

theorem Numbered.asleep {d : Duel} (h : Numbered d) : d.schedule.ids.Nodup :=
  (List.nodup_append.mp h.nodup).2.1

/-- A task stays under its number while other numbers are called off. -/
theorem Numbered.perm {d d' : Duel} (h : Numbered d) (hp : d'.ids.Perm d.ids)
    (hf : d'.schedule.fresh = d.schedule.fresh) : Numbered d' where
  nodup := hp.nodup_iff.mpr h.nodup
  known id hid := hf ▸ h.known id (hp.mem_iff.mp hid)

/-- A new task gets a new number. -/
theorem Numbered.cons {d d' : Duel} (h : Numbered d) (hp : d'.ids.Perm (d.schedule.fresh :: d.ids))
    (hf : d'.schedule.fresh = d.schedule.fresh + 1) : Numbered d' where
  nodup := by
    rw [hp.nodup_iff, List.nodup_cons]
    exact ⟨fun hmem => Nat.lt_irrefl _ (h.known _ hmem), h.nodup⟩
  known id hid := by
    rcases List.mem_cons.mp (hp.mem_iff.mp hid) with rfl | hid
    · omega
    · have := h.known id hid
      omega

theorem ids_cancelTimer (d : Duel) (h : Numbered d) : d.cancelTimer.ids.Perm d.ids := by
  unfold ids cancelTimer
  apply List.Perm.append_left
  cases d.timer with
  | none => exact .refl _
  | some id => exact d.schedule.ids_cancel_perm id h.asleep

theorem fresh_cancelTimer (d : Duel) : d.cancelTimer.schedule.fresh = d.schedule.fresh := by
  unfold cancelTimer
  cases d.timer with
  | none => rfl
  | some id => exact d.schedule.fresh_cancel id

theorem Numbered.cancelTimer {d : Duel} (h : Numbered d) : Numbered d.cancelTimer :=
  h.perm (d.ids_cancelTimer h) d.fresh_cancelTimer

/-- Calling off the timer leaves every task its number and its job, and no timer that goes on. -/
theorem of_mem_cancelTimer {d : Duel} {t : Task Job} (h : t ∈ d.cancelTimer.schedule.tasks) :
    ∃ u ∈ d.schedule.tasks, u.id = t.id ∧ u.job = t.job := by
  unfold Duel.cancelTimer at h
  cases ht : d.timer with
  | none => exact ⟨t, by simpa [ht] using h, rfl, rfl⟩
  | some id =>
    simp only [ht] at h
    rcases Schedule.of_mem_tasks_cancel h with h | ⟨-, -, hu⟩
    · exact ⟨t, h, rfl, rfl⟩
    · exact hu

theorem Orderly.no_timer_cancelTimer {d : Duel} (ho : Orderly d) {t : Task Job}
    (h : t ∈ d.cancelTimer.schedule.tasks) (hj : t.job.isTimer) : t.cancelled = true := by
  by_contra hc
  have hl : t.cancelled = false := Bool.eq_false_iff.mpr hc
  unfold Duel.cancelTimer at h
  cases ht : d.timer with
  | none =>
    simp only [ht] at h
    have := ho.timers t h hj hl
    simp [ht] at this
  | some id =>
    simp only [ht] at h
    obtain ⟨hmem, hne⟩ := Schedule.of_mem_tasks_cancel_live ho.asleep h hl
    have := ho.timers t hmem hj hl
    rw [ht] at this
    exact hne (Option.some.inj this).symm

theorem Orderly.cancelTimer {d : Duel} (ho : Orderly d) : Orderly d.cancelTimer where
  toNumbered := ho.toNumbered.cancelTimer
  free := ho.free
  executing := ho.executing
  latest x hx := ⟨(ho.latest x hx).1, (ho.latest x hx).2.1, rfl⟩
  runs t ht p hp := by
    obtain ⟨u, hu, hid, hjob⟩ := of_mem_cancelTimer ht
    rw [← hid]
    exact ho.runs u hu p (hjob ▸ hp)
  own t ht := by
    obtain ⟨u, hu, -, hjob⟩ := of_mem_cancelTimer ht
    rw [← hjob]
    exact ho.own u hu
  timers t ht hj hl := by
    rw [ho.no_timer_cancelTimer ht hj] at hl
    cases hl
  watch := nofun
  unstarted hs := by
    refine ⟨?_, (ho.unstarted hs).2⟩
    have hp := d.ids_cancelTimer ho.toNumbered
    rw [(ho.unstarted hs).1] at hp
    exact hp.eq_nil
  lawful := ho.lawful

theorem ids_spawn {d d' : Duel} (job : Job) (hs : d'.schedule = (d.schedule.spawn job).2)
    (hr : d'.running = d.running) : d'.ids.Perm (d.schedule.fresh :: d.ids) := by
  unfold ids
  rw [hs, hr]
  exact ((d.schedule.ids_spawn job).append_left _).trans List.perm_middle

theorem Orderly.accept {d : Duel} (ho : Orderly d) (hs : d.started = true)
    (hp : d.phase = .idle ∨ d.phase = .editing) :
    Orderly ({ d with phase := .executing }.accept d.current) := by
  have he : Orderly d.cancelTimer := ho.cancelTimer
  have hun : unfinished ({ d with phase := .executing }.accept d.current).deeds =
      [(d.cancelTimer.schedule.fresh, d.current)] :=
    congrArg ((d.cancelTimer.schedule.fresh, d.current) :: ·) (ho.free hp)
  have hnone : unfinished d.cancelTimer.deeds = [] := ho.free hp
  exact
    { toNumbered := he.toNumbered.cons (ids_spawn (.begin d.current) rfl rfl) rfl
      free := by simp [Duel.accept, Duel.remember, Duel.cancelTimer]
      executing := fun _ => ⟨_, hun⟩
      latest := by
        intro x hx
        rw [hun, List.mem_singleton] at hx
        subst hx
        exact ⟨rfl, rfl, rfl⟩
      runs := by
        intro t ht p hp
        rw [hun]
        rcases (Schedule.mem_tasks_spawn _ _ t).mp ht with rfl | ht
        · cases hp
          exact List.mem_singleton.mpr rfl
        · have hmem := he.runs t ht p hp
          rw [hnone] at hmem
          cases hmem
      own := by
        intro t ht
        rcases (Schedule.mem_tasks_spawn _ _ t).mp ht with rfl | ht
        · exact trivial
        · exact he.own t ht
      timers := by
        intro t ht hj hl
        rcases (Schedule.mem_tasks_spawn _ _ t).mp ht with rfl | ht
        · cases hj
        · exact he.timers t ht hj hl
      watch := nofun
      unstarted := by
        intro h
        exact absurd (hs.symm.trans h) (by decide)
      lawful := by
        intro x hx
        rcases List.mem_cons.mp hx with rfl | hx
        · exact trivial
        · exact ho.lawful x hx }

theorem Orderly.startTimer {d : Duel} (ho : Orderly d) (hs : d.started = true)
    (hp : d.phase = .idle ∨ d.phase = .editing) : Orderly d.startTimer := by
  have he : Orderly d.cancelTimer := ho.cancelTimer
  have hun : unfinished d.startTimer.deeds = [] := ho.free hp
  exact
    { toNumbered := he.toNumbered.cons (ids_spawn .timer rfl rfl) rfl
      free := fun _ => hun
      executing := by
        intro h
        have hphase : d.phase = .executing := h
        rcases hp with hp | hp <;> rw [hp] at hphase <;> cases hphase
      latest := by
        intro x hx
        rw [hun] at hx
        cases hx
      runs := by
        intro t ht p hp
        rcases (Schedule.mem_tasks_spawn _ _ t).mp ht with rfl | ht
        · cases hp
        · exact he.runs t ht p hp
      own := by
        intro t ht
        rcases (Schedule.mem_tasks_spawn _ _ t).mp ht with rfl | ht
        · exact trivial
        · exact he.own t ht
      timers := by
        intro t ht hj hl
        rcases (Schedule.mem_tasks_spawn _ _ t).mp ht with rfl | ht
        · rfl
        · rw [ho.no_timer_cancelTimer ht hj] at hl
          cases hl
      watch := by
        intro id hid
        have hfresh : d.cancelTimer.schedule.fresh = id := Option.some.inj hid
        refine ⟨hfresh ▸ Nat.lt_succ_self _, ?_⟩
        intro t ht htid
        rcases (Schedule.mem_tasks_spawn _ _ t).mp ht with rfl | ht
        · rfl
        · have hknown := he.known t.id (mem_ids.mpr (Or.inr ⟨t, ht, rfl⟩))
          omega
      unstarted := by
        intro h
        exact absurd (hs.symm.trans h) (by decide)
      lawful := by
        intro x hx
        rcases List.mem_cons.mp hx with rfl | hx
        · exact trivial
        · exact ho.lawful x hx }

theorem Orderly.opened {d : Duel} (ho : Orderly d) (hs : d.started = false) (arena : Arena)
    (journal : List Record) : Orderly { d.opened with arena, journal } := by
  have hun : unfinished d.deeds = [] := (ho.unstarted hs).2
  exact
    { toNumbered := ⟨ho.nodup, ho.known⟩
      free := fun _ => hun
      executing := nofun
      latest := by
        intro x hx
        have hx' : x ∈ unfinished d.deeds := hx
        rw [hun] at hx'
        cases hx'
      runs := ho.runs
      own := ho.own
      timers := ho.timers
      watch := ho.watch
      unstarted := nofun
      lawful := by
        intro x hx
        rcases List.mem_cons.mp hx with rfl | hx
        · exact trivial
        · exact ho.lawful x hx }

theorem Orderly.setPhase {d : Duel} (ho : Orderly d) {phase : Phase}
    (h : d.phase = .idle ∨ d.phase = .editing ∨ phase = .over) (h' : phase ≠ .executing) :
    Orderly { d with phase } where
  toNumbered := ⟨ho.nodup, ho.known⟩
  free hp := by
    rcases h with h | h | h
    · exact ho.free (Or.inl h)
    · exact ho.free (Or.inr h)
    · rcases hp with hp | hp <;> cases hp.symm.trans h
  executing hp := absurd hp h'
  latest := ho.latest
  runs := ho.runs
  own := ho.own
  timers := ho.timers
  watch := ho.watch
  unstarted := ho.unstarted
  lawful := ho.lawful

/-- The fields that the order does not look at may be anything. -/
theorem Orderly.irrelevant {d : Duel} (ho : Orderly d) (arena : Arena) (scripts : Duo Json)
    (log : EventLog Notification) (continuous : Bool) (winner : Option Player)
    (result : GameResult) (remaining : Quantity) (last : Option ExecutionResult) (finished : Bool)
    (journal : List Record) :
    Orderly { d with
      arena, scripts, log, continuous, winner, result, remaining, lastExecution := last, finished,
      journal } :=
  ⟨⟨ho.nodup, ho.known⟩, ho.free, ho.executing, ho.latest, ho.runs, ho.own, ho.timers,
    ho.watch, ho.unstarted, ho.lawful⟩

theorem Orderly.remember {d : Duel} (ho : Orderly d) {x : Deed} (hx : x.Lawful)
    (hun : unfinished (x :: d.deeds) = unfinished d.deeds) : Orderly (d.remember x) := by
  refine ⟨⟨ho.nodup, ho.known⟩, ?_, ?_, ?_, ?_, ho.own, ho.timers, ho.watch, ?_, ?_⟩
  · exact fun h => hun.trans (ho.free h)
  · intro h
    obtain ⟨id, hid⟩ := ho.executing h
    exact ⟨id, hun.trans hid⟩
  · exact fun y hy => ho.latest y (hun ▸ hy)
  · exact fun t ht p hp => hun.symm ▸ ho.runs t ht p hp
  · exact fun hs => ⟨(ho.unstarted hs).1, hun.trans (ho.unstarted hs).2⟩
  · intro y hy
    rcases List.mem_cons.mp hy with rfl | hy
    · exact hx
    · exact ho.lawful y hy

theorem Orderly.move {d d' : Duel} (h : Move d d') (ho : Orderly d) : Orderly d' := by
  cases h with
  | quiet arena remaining last journal => exact ho.irrelevant _ _ _ _ _ _ _ _ _ _
  | told n hn => exact ho.irrelevant _ _ _ _ _ _ _ _ _ _
  | script script hp =>
    exact (ho.irrelevant _ (d.scripts.set d.current script) _ _ _ _ _ _ _ _).remember trivial rfl
  | edit phase hp hp' =>
    refine ho.setPhase (hp.imp_right Or.inl) ?_
    rcases hp' with rfl | rfl <;> decide
  | mode continuous hp => exact ho.irrelevant _ _ _ _ _ _ _ _ _ _
  | accept hs hp => exact ho.accept hs hp
  | opening arena journal hs => exact (ho.opened hs arena journal).startTimer rfl (Or.inl rfl)

theorem Orderly.struck {d : Duel} (ho : Orderly d) (winner : Player) (reason : GameResult)
    (journal : List Record) : Orderly (d.struck winner reason journal) :=
  (ho.setPhase (Or.inr (Or.inr rfl)) (by decide)).cancelTimer.irrelevant _ _ _ _ _ _ _ _ _ _

theorem Orderly.moves {d d' : Duel} (h : Moves d d') (ho : Orderly d) : Orderly d' := by
  refine h.keeps Orderly.move ?_ ?_ ho
  · exact fun winner reason journal _ _ ho => ho.struck winner reason journal
  · intro d ho
    exact ho.irrelevant _ _ _ _ _ _ _ _ _ _

theorem Moves.running {d d' : Duel} (h : Moves d d') : d'.running = d.running := by
  refine h.keeps (P := fun e => e.running = d.running) ?_ ?_ ?_ rfl
  · intro e e' hm he
    cases hm <;> exact he
  · intro e winner reason journal hp hr he
    exact he
  · intro e he
    exact he

theorem Moves.started {d d' : Duel} (h : Moves d d') (hs : d.started = true) :
    d'.started = true := by
  refine h.keeps (P := fun e => e.started = true) ?_ ?_ ?_ hs
  · intro e e' hm he
    cases hm with
    | opening => rfl
    | _ => exact he
  · intro e winner reason journal hp hr he
    exact he
  · intro e he
    exact he

/-- Once a match was started, no request starts a timer. -/
theorem Moves.untimed {d d' : Duel} (h : Moves d d') (hs : d.started = true)
    (ht : d.timer = none) : d'.timer = none := by
  have hboth : d'.started = true ∧ d'.timer = none := by
    refine h.keeps (P := fun e => e.started = true ∧ e.timer = none) ?_ ?_ ?_ ⟨hs, ht⟩
    · intro e e' hm he
      cases hm with
      | accept => exact ⟨he.1, rfl⟩
      | opening _ _ hn => exact absurd (he.1.symm.trans hn) (by decide)
      | _ => exact he
    · intro e winner reason journal hp hr he
      exact ⟨he.1, rfl⟩
    · intro e he
      exact he
  exact hboth.2

/-- No request makes a run finish. -/
theorem Moves.unfinished {d d' : Duel} (h : Moves d d') {x : Nat × Player}
    (hx : x ∈ Deed.unfinished d.deeds) : x ∈ Deed.unfinished d'.deeds := by
  refine h.keeps (P := fun e => x ∈ Deed.unfinished e.deeds) ?_ ?_ ?_ hx
  · intro e e' hm he
    cases hm with
    | accept => exact List.mem_cons_of_mem _ he
    | _ => exact he
  · intro e winner reason journal hp hr he
    exact he
  · intro e he
    exact he

end Duel

end MazeDuel.Turn
