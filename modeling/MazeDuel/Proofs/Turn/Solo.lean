import MazeDuel.Proofs.Turn.LastWord
import MazeDuel.Proofs.Turn.OrderSteps
/-!
What is left of the order of a match that may be closed: its tasks have numbers of their own, and
those that execute a program belong to the one run that is unfinished. Timers are not spoken of
here, since closing can leave one that the match does not know of.
-/

namespace MazeDuel.Turn

namespace Duel

open Deed

/-- Nobody executes a program but the one unfinished run, also in the middle of a step. -/
structure Solo (d : Duel) : Prop extends Numbered d where
  free : d.phase = .idle ∨ d.phase = .editing → unfinished d.deeds = []
  executing : d.phase = .executing → ∃ id, unfinished d.deeds = [(id, d.current)]
  runs : ∀ t ∈ d.schedule.tasks, ∀ p, t.job.player? = some p → (t.id, p) ∈ unfinished d.deeds
  own : ∀ t ∈ d.schedule.tasks, t.job.Own
  unstarted : d.started = false → unfinished d.deeds = []

variable {d d' : Duel}

theorem solo_fresh (arena : Arena) (timing : Timing) (scripts : Duo Json) :
    Solo (fresh arena timing scripts) where
  nodup := List.nodup_nil
  known := nofun
  free _ := rfl
  executing := nofun
  runs := nofun
  own := nofun
  unstarted _ := rfl

/-- Nothing differs that runs depend on; tasks that execute no program may come. -/
theorem Solo.beside (h : Solo d) (hphase : d'.phase = d.phase) (hcurrent : d'.current = d.current)
    (hstarted : d'.started = false → d.started = false)
    (hun : unfinished d'.deeds = unfinished d.deeds) (hn : Numbered d')
    (ht : ∀ t ∈ d'.schedule.tasks, (t.job.player? = none ∧ t.job.Own) ∨
      ∃ u ∈ d.schedule.tasks, u.id = t.id ∧ u.job = t.job) : Solo d' where
  toNumbered := hn
  free hp := hun.trans (h.free (hphase ▸ hp))
  executing hp := by
    rw [hun, hcurrent]
    exact h.executing (hphase ▸ hp)
  runs t hmem p hp := by
    rw [hun]
    rcases ht t hmem with ⟨hnone, -⟩ | ⟨u, hu, hid, hj⟩
    · cases hnone.symm.trans hp
    · rw [← hid]
      exact h.runs u hu p (hj ▸ hp)
  own t hmem := by
    rcases ht t hmem with ⟨-, hown⟩ | ⟨u, hu, -, hj⟩
    · exact hown
    · exact hj ▸ h.own u hu
  unstarted hs := hun.trans (h.unstarted (hstarted hs))

/-- The same with the same tasks. -/
theorem Solo.irrelevant (h : Solo d) (hphase : d'.phase = d.phase)
    (hcurrent : d'.current = d.current) (hstarted : d'.started = d.started)
    (hun : unfinished d'.deeds = unfinished d.deeds) (hschedule : d'.schedule = d.schedule)
    (hrunning : d'.running = d.running) : Solo d' := by
  refine h.beside hphase hcurrent (fun hs => hstarted ▸ hs) hun ⟨?_, ?_⟩ ?_
  · unfold ids
    rw [hschedule, hrunning]
    exact h.nodup
  · unfold ids
    rw [hschedule, hrunning]
    exact h.known
  · exact fun t ht => Or.inr ⟨t, hschedule ▸ ht, rfl, rfl⟩

theorem Solo.cancelTimer (h : Solo d) : Solo d.cancelTimer :=
  h.beside rfl rfl id rfl h.toNumbered.cancelTimer fun _ ht => Or.inr (of_mem_cancelTimer ht)

/-- A task that executes no program comes to the schedule. -/
theorem Solo.spawn (h : Solo d) (job : Job) (hj : job.player? = none ∧ job.Own)
    (hphase : d'.phase = d.phase) (hcurrent : d'.current = d.current)
    (hstarted : d'.started = d.started) (hun : unfinished d'.deeds = unfinished d.deeds)
    (hschedule : d'.schedule = (d.schedule.spawn job).2) (hrunning : d'.running = d.running) :
    Solo d' := by
  refine h.beside hphase hcurrent (fun hs => hstarted ▸ hs) hun ?_ ?_
  · refine h.toNumbered.cons (ids_spawn job hschedule hrunning) ?_
    rw [hschedule]
    rfl
  · intro t ht
    rw [hschedule] at ht
    rcases (Schedule.mem_tasks_spawn _ _ t).mp ht with rfl | ht
    · exact Or.inl hj
    · exact Or.inr ⟨t, ht, rfl, rfl⟩

theorem Solo.startTimer (h : Solo d) : Solo d.startTimer :=
  h.cancelTimer.spawn .timer ⟨rfl, trivial⟩ rfl rfl rfl rfl rfl rfl

theorem Solo.accept (h : Solo d) (hs : d.started = true)
    (hp : d.phase = .idle ∨ d.phase = .editing) :
    Solo ({ d with phase := .executing }.accept d.current) := by
  have hc : Solo d.cancelTimer := h.cancelTimer
  have hnone : unfinished d.cancelTimer.deeds = [] := h.free hp
  have hun : unfinished ({ d with phase := .executing }.accept d.current).deeds =
      [(d.cancelTimer.schedule.fresh, d.current)] :=
    congrArg ((d.cancelTimer.schedule.fresh, d.current) :: ·) (h.free hp)
  refine ⟨hc.toNumbered.cons (ids_spawn (.begin d.current) rfl rfl) rfl, nofun,
    fun _ => ⟨_, hun⟩, ?_, ?_, ?_⟩
  · intro t ht p hp
    rw [hun]
    rcases (Schedule.mem_tasks_spawn _ _ t).mp ht with rfl | ht
    · cases hp
      exact List.mem_singleton.mpr rfl
    · have hmem := hc.runs t ht p hp
      rw [hnone] at hmem
      cases hmem
  · intro t ht
    rcases (Schedule.mem_tasks_spawn _ _ t).mp ht with rfl | ht
    · exact trivial
    · exact hc.own t ht
  · intro hs'
    cases hs.symm.trans hs'

theorem Solo.setPhase (h : Solo d) {phase : Phase}
    (hp : d.phase = .idle ∨ d.phase = .editing ∨ phase = .over) (hp' : phase ≠ .executing) :
    Solo { d with phase } where
  toNumbered := ⟨h.nodup, h.known⟩
  free hi := by
    rcases hp with hp | hp | rfl
    · exact h.free (Or.inl hp)
    · exact h.free (Or.inr hp)
    · rcases hi with hi | hi <;> cases hi
  executing hb := absurd hb hp'
  runs := h.runs
  own := h.own
  unstarted := h.unstarted

theorem Solo.opened (h : Solo d) (hs : d.started = false) (arena : Arena) (journal : List Record) :
    Solo { d.opened with arena, journal } where
  toNumbered := ⟨h.nodup, h.known⟩
  free _ := h.unstarted hs
  executing := nofun
  runs := h.runs
  own := h.own
  unstarted := nofun

theorem Solo.move (hm : Move d d') (h : Solo d) : Solo d' := by
  cases hm with
  | edit phase hp hp' =>
    refine h.setPhase (hp.imp_right Or.inl) ?_
    rcases hp' with rfl | rfl <;> decide
  | accept hs hp => exact h.accept hs hp
  | opening arena journal hs => exact (h.opened hs arena journal).startTimer
  | _ => exact h.irrelevant rfl rfl rfl rfl rfl rfl

theorem Solo.moves (hm : Moves d d') (h : Solo d) : Solo d' := by
  refine hm.keeps Solo.move ?_ ?_ h
  · intro e winner reason journal _ _ he
    have hover : Solo { e with phase := .over }.cancelTimer :=
      (he.setPhase (Or.inr (Or.inr rfl)) (by decide)).cancelTimer
    exact hover.irrelevant rfl rfl rfl rfl rfl rfl
  · exact fun he => he.irrelevant rfl rfl rfl rfl rfl rfl

theorem Solo.taken (h : Solo d) {t : Task Job} {ready : List (Task Job)} (hn : d.running = none)
    (hr : d.schedule.ready = t :: ready) : Solo (d.taken t ready) := by
  refine h.beside rfl rfl id rfl ⟨?_, ?_⟩ fun u hu => Or.inr ⟨u, mem_tasks_taken hr hu, rfl, rfl⟩
  · rw [ids_taken hn hr]
    exact h.nodup
  · rw [ids_taken hn hr]
    exact h.known

theorem Solo.stop (h : Solo d) : Solo { d with running := none } := by
  refine h.beside rfl rfl id rfl ⟨h.asleep, ?_⟩ fun t ht => Or.inr ⟨t, ht, rfl, rfl⟩
  exact fun id hid => h.known id (List.mem_append_right _ hid)

theorem Solo.endTask (h : Solo d) (id : Nat) (outcome : Outcome) : Solo (d.endTask id outcome) := by
  unfold Duel.endTask
  dsimp only
  split
  · exact h.spawn .caller ⟨rfl, trivial⟩ rfl rfl rfl rfl rfl rfl
  · exact h.irrelevant rfl rfl rfl rfl rfl rfl

theorem Solo.rest (h : Solo d) {id : Nat} {job : Job} (delay : Quantity) (hr : d.running = some id)
    (hp : ∀ p, job.player? = some p → (id, p) ∈ unfinished d.deeds) (hown : job.Own) :
    Solo { d.rest id job delay with running := none } := by
  unfold Duel.rest
  split
  · refine ⟨numbered_rest h.toNumbered job _ hr, h.free, h.executing, ?_, ?_, h.unstarted⟩
    · intro t ht p htp
      rcases (Schedule.mem_tasks_rest _ _ _ _ t).mp ht with rfl | ht
      · exact hp p htp
      · exact h.runs t ht p htp
    · intro t ht
      rcases (Schedule.mem_tasks_rest _ _ _ _ t).mp ht with rfl | ht
      · exact hown
      · exact h.own t ht
  · exact (h.endTask id _).stop

theorem Solo.remember (h : Solo d) {x : Deed}
    (hx : unfinished (x :: d.deeds) = unfinished d.deeds) :
    Solo (d.remember x) :=
  h.irrelevant rfl rfl rfl hx rfl rfl

theorem Solo.executing_of_mem (h : Solo d) {x : Nat × Player} (hx : x ∈ unfinished d.deeds)
    (hp : d.phase ≠ .over) :
    d.phase = .executing ∧ x.2 = d.current ∧ unfinished d.deeds = [x] := by
  have hbusy : d.phase = .executing := by
    cases hphase : d.phase with
    | idle => simp [h.free (Or.inl hphase)] at hx
    | editing => simp [h.free (Or.inr hphase)] at hx
    | executing => rfl
    | _ => exact absurd hphase hp
  obtain ⟨id, hid⟩ := h.executing hbusy
  rw [hid, List.mem_singleton] at hx
  subst hx
  exact ⟨hbusy, rfl, hid⟩

/-- The same while a task makes its step. -/
structure Sole (id : Nat) (job : Job) (d : Duel) : Prop extends Solo d where
  busy : d.running = some id
  player : ∀ p, job.player? = some p → (id, p) ∈ unfinished d.deeds
  bound : job.Own
  started : d.started = true

theorem Solo.sole (h : Solo d) (hn : d.running = none) (hs : d.started = true) {t : Task Job}
    {ready : List (Task Job)} (hr : d.schedule.ready = t :: ready) :
    Sole t.id t.job (d.taken t ready) where
  toSolo := h.taken hn hr
  busy := rfl
  player := h.runs t (tasks_of_ready hr)
  bound := h.own t (tasks_of_ready hr)
  started := hs

/-- A run that comes to its end before the match does closes the turn, and no run is left. -/
theorem Sole.closeRun {id : Nat} {job : Job} {e : Duel} {p : Player} {rest : List Action}
    {executed : List String} (h : Sole id job d)
    (hp : d.program? job = some (p, rest, executed)) (hover : d.phase ≠ .over) (hq : Quiet d e) :
    ∃ message, e.closeRun id = e.closed id message ∧ Solo (e.closed id message).passTurn := by
  have he : Solo e := h.toSolo.moves hq.moves
  have hmem : (id, p) ∈ unfinished e.deeds := hq.moves.unfinished (h.player p (program?_own hp).1)
  obtain ⟨hbusy, -, hun⟩ := he.executing_of_mem hmem (hq.phase ▸ hover)
  obtain ⟨message, heq⟩ := closeRun_executing hbusy id
  have hnone : unfinished (Deed.closed id true :: e.deeds) = [] := by
    rw [unfinished_closed, hun]
    simp
  refine ⟨message, heq, ⟨he.nodup, he.known⟩, fun _ => hnone, nofun, ?_, he.own, fun _ => hnone⟩
  intro t ht q hq'
  have hmem' := he.runs t ht q hq'
  rw [hun, List.mem_singleton] at hmem'
  exact absurd ht (he.toNumbered.not_mem_of_running (hq.moves.running.trans h.busy)
    (congrArg Prod.fst hmem'))

theorem Solo.passTurn (h : Solo d) (hp : d.phase ≠ .executing) : Solo d.passTurn where
  toNumbered := ⟨h.nodup, h.known⟩
  free := h.free
  executing hb := absurd hb hp
  runs := h.runs
  own := h.own
  unstarted := h.unstarted

theorem Solo.beginTurn (h : Solo d) : Solo d.beginTurn := by
  rcases d.beginTurn_cases with ⟨-, heq⟩ | ⟨-, hm⟩
  · exact heq.symm ▸ h
  · exact h.startTimer.moves hm

/-- A turn whose time has run out is passed on. -/
theorem Solo.timedOut {e : Duel} (h : Solo d) (hi : d.phase = .idle ∨ d.phase = .editing)
    (hq : Quiet { d with phase := .idle } e) : Solo e.passTurn := by
  have hidle : Solo { d with phase := .idle } := h.setPhase (hi.imp_right Or.inl) (by decide)
  have hphase : e.phase = .idle := hq.phase
  exact (hidle.moves hq.moves).passTurn (by rw [hphase]; decide)

/-- A step leaves nobody but the unfinished run executing a program. -/
theorem Sole.worked {id : Nat} {job : Job} (h : Sole id job d) (hw : Work id job d d') :
    Solo { d' with running := none } := by
  have hsolo : Solo d := h.toSolo
  cases hw with
  | unread fault hp hq => exact ((hsolo.moves hq.moves).endTask _ _).stop
  | @acted _ _ e d'' p a later executed hp hover hq hm =>
    have hmem : (id, p) ∈ unfinished e.deeds :=
      hq.moves.unfinished (h.player p (program?_own hp).1)
    have hbegan : Solo (e.remember (.began id a d.phase d.current)) :=
      (hsolo.moves hq.moves).remember rfl
    refine (hbegan.moves hm).rest _ ?_ ?_ ?_
    · exact hm.running.trans (hq.moves.running.trans h.busy)
    · intro q hq'
      cases hq'
      exact hm.unfinished hmem
    · exact fun x hx => (program?_own hp).2 h.bound x (List.mem_cons_of_mem _ hx)
  | broke _ _ _ hq hm => exact ((((hsolo.moves hq.moves).remember rfl).moves hm).endTask _ _).stop
  | stopped result hp hover hq => exact ((hsolo.moves hq.moves).endTask _ _).stop
  | closed result hp hover hq hm hc =>
    obtain ⟨m, heq, hclosed⟩ := h.closeRun hp hover hq
    rw [heq] at hm
    exact ((hclosed.moves hm).beginTurn.endTask _ _).stop
  | @paused _ _ e d'' p executed result hp hover hq hm hc =>
    obtain ⟨m, heq, hclosed⟩ := h.closeRun hp hover hq
    rw [heq] at hm
    have hpaused : Solo (d''.remember (.paused id d''.turnNumber)) :=
      (hclosed.moves hm).remember rfl
    exact hpaused.rest _ (hm.running.trans (hq.moves.running.trans h.busy)) nofun trivial
  | woke _ result =>
    have hwoke : Solo (d.remember (.woke id d.turnNumber d.phase)) := hsolo.remember rfl
    exact (hwoke.beginTurn.endTask _ _).stop
  | uncounted ht => exact (hsolo.endTask _ _).stop
  | counted ht => exact hsolo.rest _ h.busy nofun trivial
  | ticked hp hq =>
    exact (hsolo.moves hq.moves).rest _ (hq.moves.running.trans h.busy) nofun trivial
  | late hp hover hq => exact ((hsolo.moves hq.moves).endTask _ _).stop
  | @expired _ e d'' passed total hp hi hq hm =>
    exact (((hsolo.timedOut hi hq).moves hm).beginTurn.endTask _ _).stop

/-- Between two steps of a match that may be closed: before it is started nobody but callers is
there. -/
structure Still (d : Duel) : Prop extends Solo d where
  still : d.running = none
  vacant : Vacant d

theorem still_fresh (arena : Arena) (timing : Timing) (scripts : Duo Json) :
    Still (fresh arena timing scripts) :=
  ⟨solo_fresh arena timing scripts, rfl, Or.inr nofun⟩

theorem Still.moves (hm : Moves d d') (h : Still d) : Still d' :=
  ⟨h.toSolo.moves hm, hm.running.trans h.still, h.vacant.moves hm⟩

theorem Still.stepped (hs : d.started = true) (hg : Stepped d d') (h : Still d) : Still d' := by
  have hs' : d'.started = true := Goes.started (.stepped hg) hs
  cases hg with
  | dropped hr hc =>
    exact ⟨((h.toSolo.taken h.still hr).endTask _ _).stop, rfl, Or.inl hs'⟩
  | worked hr hc hw => exact ⟨(h.toSolo.sole h.still hs hr).worked hw, rfl, Or.inl hs'⟩

theorem Still.woken {schedule : Schedule Job} (h : Still d)
    (hw : d.schedule.wake? = some schedule) : Still { d with schedule } := by
  have htasks := Schedule.tasks_wake? hw
  have hids : (ids { d with schedule }).Perm d.ids := (Schedule.ids_wake? hw).append_left _
  refine ⟨h.toSolo.beside rfl rfl id rfl ?_ ?_, h.still, ?_⟩
  · exact h.toNumbered.perm hids (Schedule.fresh_wake? hw)
  · exact fun t ht => Or.inr ⟨t, (htasks t).mp ht, rfl, rfl⟩
  · exact h.vacant.imp_right fun hv t ht => hv t ((htasks t).mp ht)

theorem Still.visited {schedule : Schedule Job} {timer : Option Nat} (h : Still d)
    (hv : Coordinator.Visited d schedule timer) (awaited : Option Nat) :
    Still { d with schedule, awaited, timer } := by
  have hn := hv.numbered h.toNumbered
  refine ⟨h.toSolo.beside rfl rfl id rfl ⟨hn.nodup, hn.known⟩ fun t ht => ?_, h.still,
    h.vacant.visited hv awaited⟩
  refine (hv.kept t ht).imp_left fun hj => ?_
  rw [hj]
  exact ⟨rfl, trivial⟩

end Duel

namespace Coordinator

open Duel

variable {M : Type} {tell : Notification → Coordinator M → Coordinator M} {c c' : Coordinator M}

theorem still_step? (ht : Tells tell) (h : Still c.duel) (hc : c.step? tell = some c') :
    Still c'.duel :=
  h.stepped (started_of_step? h.vacant hc) (stepped_step? ht hc)

theorem still_wake? (h : Still c.duel) (hc : c.wake? = some c') : Still c'.duel := by
  unfold wake? at hc
  obtain ⟨schedule, hw, rfl⟩ := Option.map_eq_some_iff.mp hc
  exact h.woken hw

/-- One run at most executes a program, through every history in which the match may be closed. -/
theorem still_live {l : Listener M} (h : Still c.duel) (es : List Episode) :
    Still (c.live l es).duel := by
  refine live_keeps (P := fun x => Still x.duel) ?_ h
  intro x e _ hx
  refine keeps_undergo (P := fun x => Still x.duel) ?_ ?_ ?_ ?_ hx
  · exact fun hstep hx => still_step? (tells_tell l) hx hstep
  · exact fun hwake hx => still_wake? hx hwake
  · exact fun _ awaited _ hv hx => hx.visited hv awaited
  · exact fun r _ => hx.moves (moves_request l r x)

theorem still_happen {l : Listener M} (h : Still c.duel) (x : Happening) :
    Still (c.happen l x).duel :=
  still_live h [.happening x]

end Coordinator

end MazeDuel.Turn
