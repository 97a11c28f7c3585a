import MazeDuel.Service
import MazeDuel.Proofs.Turn.Closing
import MazeDuel.Proofs.Turn.Pace
/-!
What a service can come to by requests and by the clock. Between two requests no match is in the
middle of a step and no caller sleeps, and whatever there was to report has been handed out.
-/

namespace MazeDuel

namespace Turn

namespace Duel

/-- Whether no step is being made and no caller sleeps. -/
structure Steady (d : Duel) : Prop where
  still : d.running = none
  nobody : ∀ x ∈ d.schedule.asleep, x.task.job ≠ .caller

theorem steady_fresh (arena : Arena) (timing : Timing) (scripts : Duo Json) :
    Steady (fresh arena timing scripts) :=
  ⟨rfl, nofun⟩

theorem Steady.goes {d d' : Duel} (hg : Goes d d') (h : Steady d) : Steady d' := by
  have hawake (id : Nat) (job : Job) (hj : job.rests = true) : job ≠ .caller := by
    rintro rfl
    cases hj
  refine ⟨?_, hg.sleepers (P := fun t => t.job ≠ .caller) (fun id job => hawake id job) h.nobody⟩
  cases hg with
  | moved hm => exact hm.running.trans h.still
  | stepped hs => cases hs <;> rfl
  | woken hw => exact h.still
  | timed now => exact h.still

end Duel

namespace Coordinator

open Duel

variable {M : Type} (l : Listener M) {c c' : Coordinator M}

theorem steady_passes (h : Steady c.duel) (hp : Passes l c c') : Steady c'.duel := by
  obtain ⟨hs, -, rfl⟩ := hp
  exact after_keeps Steady.goes l c hs h

theorem steady_untilCallerAt (h : Steady c.duel) (fuel : Nat) :
    Steady (c.untilCallerAt l.tell fuel).duel := by
  induction fuel generalizing c with
  | zero => exact h
  | succ fuel ih =>
    unfold untilCallerAt
    split
    · exact ih (steady_passes l h (passes_step? ‹_›))
    · split
      · split
        · exact ih (steady_passes l h (passes_wake? ‹_›))
        · exact h
      · exact h

theorem steady_takeCaller (h : Steady c.duel) : Steady c.takeCaller.duel := ⟨h.still, h.nobody⟩

theorem steady_enter (h : Steady c.duel) : Steady (c.enter l.tell).duel := by
  refine steady_takeCaller (steady_untilCallerAt l ?_ patience)
  exact ⟨h.still, h.nobody⟩

theorem steady_awaitTaskAt (h : Steady c.duel) (fuel id : Nat) :
    Steady (c.awaitTaskAt l.tell fuel id).duel := by
  unfold awaitTaskAt
  split
  · refine steady_takeCaller (steady_untilCallerAt l ?_ fuel)
    exact ⟨h.still, h.nobody⟩
  · exact h

theorem steady_callOffAt (h : Steady c.duel) (fuel : Nat) (id : Option Nat) :
    Steady (c.callOffAt l.tell fuel id).duel := by
  unfold callOffAt
  split
  · exact h
  · split
    · refine steady_awaitTaskAt l ?_ fuel _
      refine ⟨h.still, fun x hx => ?_⟩
      simp only [update, Schedule.asleep_cancel] at hx
      exact h.nobody x (List.mem_filter.mp hx).1
    · exact h

theorem steady_callOffAll (h : Steady c.duel) : Steady (c.callOffAll l.tell).duel := by
  have hoff := steady_callOffAt l (steady_callOffAt l h (patience + c.duel.schedule.ready.length)
    c.duel.timer) (patience + c.duel.schedule.ready.length) c.duel.execution
  exact ⟨hoff.still, hoff.nobody⟩

end Coordinator

end Turn

open Turn

namespace Runner

def Steady (r : Runner) : Prop := r.duel.Steady

variable {r : Runner}

theorem Steady.drain (h : r.Steady) : r.drain.Steady :=
  Coordinator.steady_passes .silent h (Coordinator.passes_drainAt _ _ _)

theorem Steady.wake (h : r.Steady) : r.wake.Steady := by
  unfold Runner.wake
  split
  · rename_i c hwake
    exact Steady.drain (r := { r with coordinator := c })
      (Coordinator.steady_passes .silent h (Coordinator.passes_wake? hwake))
  · exact h

theorem Steady.start (h : r.Steady) : r.start.2.Steady := by
  unfold Runner.start
  dsimp only
  split
  · exact h
  · exact Duel.Steady.goes (.moved (Coordinator.moves_request .silent .start r.coordinator)) h

variable {seeds : Json → Random.Twister}

theorem make_built {config : MatchConfig} {d : Duel}
    (h : (config.buildDuel seeds).value = .ok d) (verbose : Bool) :
    (Runner.make seeds config verbose).value = .ok { config, verbose, coordinator := ⟨d, ()⟩ } := by
  show ((config.buildDuel seeds).value >>= fun duel => _) = _
  rw [h]
  rfl

/-- A runner that has been made has a match that nobody has touched yet. -/
theorem make_eq {config : MatchConfig} {verbose : Bool}
    (h : (Runner.make seeds config verbose).value = .ok r) :
    ∃ arena : Arena, arena.Proper ∧
      r = { config, verbose, coordinator := ⟨.fresh arena config.timing config.scripts, ()⟩ } := by
  obtain ⟨d, hduel, hr⟩ := exists_ok_of_bind (x := (config.buildDuel seeds).value) h
  obtain ⟨grid, a, b, damage, arena, harena, hmake⟩ := config.buildDuel_make hduel
  obtain rfl := Duel.make_eq hmake
  cases hr
  exact ⟨arena, Arena.proper_make harena, rfl⟩

theorem steady_make {config : MatchConfig} {verbose : Bool}
    (h : (Runner.make seeds config verbose).value = .ok r) : r.Steady := by
  obtain ⟨arena, -, rfl⟩ := make_eq h
  exact Duel.steady_fresh arena config.timing config.scripts

end Runner

namespace Hall

/-- The same for all matches of a hall. -/
structure Steady (h : Hall) : Prop where
  active : h.active.Steady
  retired : ∀ r ∈ h.retired, r.Steady

variable {h : Hall}

theorem Steady.update (hs : h.Steady) {f : Runner → Runner} (hf : (f h.active).Steady) :
    (h.update f).Steady :=
  ⟨⟨hf.still, hf.nobody⟩, hs.retired⟩

theorem Steady.work (hs : h.Steady) {f : Runner → Runner}
    (hf : ∀ r : Runner, r.Steady → (f r).Steady) (i : Nat) : (h.work f i).Steady := by
  cases i with
  | zero => exact hs.update (hf _ hs.active)
  | succ i =>
    unfold Hall.work
    dsimp only
    split
    · exact hs
    · rename_i r hr
      have hr' : r.Steady := hs.retired r (List.mem_of_getElem? hr)
      have hwork : (f (r.atMoment h.active)).Steady := hf _ ⟨hr'.still, hr'.nobody⟩
      refine ⟨⟨hs.active.still, hs.active.nobody⟩, fun x hx => ?_⟩
      rcases List.mem_or_eq_of_mem_set hx with hx | rfl
      · exact hs.retired x hx
      · exact ⟨hwork.still, hwork.nobody⟩

theorem Steady.drain (hs : h.Steady) : h.drain.Steady := hs.update (Runner.Steady.drain hs.active)

theorem Steady.passAt (hs : h.Steady) (target : Float) (fuel : Nat) :
    (h.passAt target fuel).Steady := by
  induction fuel generalizing h with
  | zero => exact hs
  | succ fuel ih =>
    unfold Hall.passAt
    split
    · split
      · exact ih (hs.work (fun _ => Runner.Steady.wake) _)
      · exact hs
    · exact hs

theorem Steady.untilCallerAt (hs : h.Steady) (fuel : Nat) : (h.untilCallerAt fuel).Steady := by
  induction fuel generalizing h with
  | zero => exact hs
  | succ fuel ih =>
    unfold Hall.untilCallerAt
    split
    · split
      · exact ih (hs.work (fun _ => Runner.Steady.wake) _)
      · exact hs
    · exact hs

theorem Steady.awaitTask (hs : h.Steady) (id : Nat) : (h.awaitTask id).Steady := by
  unfold Hall.awaitTask
  split
  · have hawait : (h.update (·.update (·.update ({ · with awaited := some id })))).Steady :=
      hs.update ⟨hs.active.still, hs.active.nobody⟩
    have huntil := hawait.drain.untilCallerAt Coordinator.patience
    exact huntil.update ⟨huntil.active.still, huntil.active.nobody⟩
  · exact hs

theorem Steady.enter (hs : h.Steady) : (h.update (·.update (·.enter Runner.tell))).Steady :=
  hs.update (Coordinator.steady_enter .silent hs.active)

/-- A new match is steady, and those before it stay so. -/
theorem Steady.replace (hs : h.Steady) {r : Runner} (hr : r.Steady) : (h.replace r).Steady := by
  refine ⟨⟨hr.still, hr.nobody⟩, fun x hx => ?_⟩
  rcases List.mem_cons.mp (List.mem_filter.mp hx).1 with rfl | hx
  · exact hs.active
  · exact hs.retired x hx

end Hall

namespace Service

variable {h : Hall}

theorem steady_asPlayer (hs : h.Steady) (player : String)
    {f : Player → Except Fault (Response Json) × Hall} (hf : ∀ p, (f p).2.Steady) :
    (asPlayer h player f).2.Steady := by
  unfold asPlayer
  split
  · exact hf _
  · exact hs

theorem steady_request (hs : h.Steady) {f : Duel → Except Fault Bool × Duel}
    (hf : ∀ d, Duel.Moves d (f d).2) : (request h f).2.Steady := by
  have hmoved : (f h.active.duel).2.Steady := Duel.Steady.goes (.moved (hf _)) hs.active
  exact hs.update (f := fun r => { r with coordinator := (r.coordinator.onDuel f).2 }) hmoved

theorem steady_execute (hs : h.Steady) (p : Player) (wait : Bool) :
    (execute h p wait).2.Steady := by
  have hasked := hs.update (f := fun r => { r with coordinator :=
    (r.coordinator.onDuel (·.execute p)).2 })
    (Duel.Steady.goes (.moved (Duel.moves_execute h.active.duel p)) hs.active)
  unfold execute
  dsimp only
  split
  · exact hasked.awaitTask _
  · exact hasked

theorem steady_onActive (hs : h.Steady) (call : Call) : (onActive h call).2.Steady := by
  cases call with
  | start settings => exact hs
  | script player text =>
    exact steady_asPlayer hs player fun p =>
      steady_request hs fun d => d.moves_setScript p (.text text)
  | edit player editing =>
    refine steady_asPlayer hs player fun p => steady_request hs fun d => ?_
    cases editing with
    | true => exact d.moves_beginEditing p
    | false => exact d.moves_endEditing p
  | execute player wait => exact steady_asPlayer hs player fun p => steady_execute hs p wait
  | continuous on => exact steady_request hs fun d => d.moves_setContinuous on
  | status => exact hs
  | events since => exact hs

variable {Output : Type} {framework : Framework Output}

/-- What comes of a service that nobody has asked for a match yet, by requests and by the clock. Two
matches without a seed need not be played in the same maze. -/
inductive Reached (framework : Framework Output) : Service → Prop where
  | fresh : Reached framework {}
  | served {s : Service} (seeds : Json → Random.Twister) (route : String) (body : Json) :
      Reached framework s → Reached framework (s.serve framework seeds route body).value.2
  | advanced {s : Service} (seconds : Float) :
      Reached framework s → Reached framework (s.advance seconds).value

/-- Whether an answer can be rendered makes no difference to the service. -/
theorem serve_state (seeds : Json → Random.Twister) (s : Service) (route : String) (body : Json) :
    (s.serve framework seeds route body).value.2 =
      (s.handle framework seeds route body).value.2 := rfl

theorem Reached.handled {s : Service} (seeds : Json → Random.Twister) (route : String) (body : Json)
    (hs : Reached framework s) : Reached framework (s.handle framework seeds route body).value.2 :=
  serve_state seeds s route body ▸ hs.served seeds route body

/-- Whether all matches are steady, everything has been handed out and the clock stands where that
of the match does. -/
structure Settled (s : Service) (h : Hall) : Prop extends h.Steady where
  journal : h.active.duel.journal = []
  records : h.records = []
  clock : s.clock = h.active.now

/-- Whether the matches of a service, if it has any, are settled. -/
def Sound (s : Service) : Prop := ∀ h, s.hall = some h → Settled s h

theorem sound_withHall (hs : h.Steady) (hj : h.active.duel.journal = []) :
    Sound (withHall h).value := by
  rintro _ ⟨⟩
  exact ⟨⟨hs.active, hs.retired⟩, hj, rfl, rfl⟩

theorem sound_none {s : Service} (hs : s.hall = none) : Sound s := by
  intro h hh
  cases hs.symm.trans hh

/-- A hall that was updated has taken the records of its match. -/
theorem journal_update (h : Hall) (f : Runner → Runner) : (h.update f).active.duel.journal = [] :=
  rfl

theorem sound_drain (hs : h.Steady) : Sound (withHall h.drain).value :=
  sound_withHall hs.drain (journal_update h _)

theorem sound_asCaller (hs : h.Steady) (work : Hall → α × Hall)
    (hwork : ∀ h : Hall, h.Steady → (work h).2.Steady) :
    Sound (withHall (h.asCaller work).2).value := by
  have hworked := hwork _ hs.enter
  unfold Hall.asCaller
  dsimp only
  exact sound_drain hworked

theorem sound_advance (hs : h.Steady) (seconds : Float) :
    Sound (withHall (h.advance seconds)).value := by
  have hpast := hs.drain.passAt (h.active.now + seconds) Coordinator.patience
  unfold Hall.advance
  dsimp only
  exact sound_withHall (hpast.update ⟨hpast.active.still, hpast.active.nobody⟩)
    (journal_update _ _)

variable {s : Service}

theorem steady_closed (hs : h.Steady) :
    (h.update (·.update (·.callOffAll Runner.tell))).Steady :=
  hs.update (Coordinator.steady_callOffAll .silent hs.active)

theorem Sound.closeActive (hs : Sound s) : Sound s.closeActive.value := by
  unfold Service.closeActive
  cases hhall : s.hall with
  | none => exact sound_none hhall
  | some h =>
    dsimp only
    exact sound_asCaller (hs h hhall).toSteady _ fun _ hsteady => steady_closed hsteady

theorem Sound.welcome (hs : Sound s) {r : Runner} (hr : r.Steady) : (s.welcome r).Steady := by
  unfold Service.welcome
  cases hhall : s.hall with
  | none => exact ⟨⟨hr.still, hr.nobody⟩, fun _ hx => absurd hx List.not_mem_nil⟩
  | some h => exact (hs h hhall).toSteady.replace hr

theorem Sound.start (hs : Sound s) (seeds : Json → Random.Twister) (settings : Json) :
    Sound (s.start seeds settings).value.2 := by
  unfold Service.start
  cases requested settings with
  | error fault => exact hs
  | ok config =>
    simp only [Logged.value_bind]
    cases hmake : (Runner.make seeds config false).value with
    | error fault => exact hs.closeActive
    | ok r =>
      have hwelcome := hs.closeActive.welcome (Runner.steady_make hmake)
      have hstart := hwelcome.active.start
      exact sound_drain (hwelcome.update ⟨hstart.still, hstart.nobody⟩)

theorem Sound.call (hs : Sound s) (seeds : Json → Random.Twister) (call : Call) :
    Sound (s.call seeds call).value.2 := by
  have hactive (call : Call) {h : Hall} (hh : s.hall = some h) :
      Sound (withHall (h.asCaller (onActive · call)).2).value :=
    sound_asCaller (hs h hh).toSteady _ fun h hsteady => steady_onActive hsteady call
  cases call with
  | start settings => exact hs.start seeds settings
  | _ =>
    unfold Service.call
    cases hhall : s.hall with
    | none => exact hs
    | some h =>
      simp only [Logged.value_bind, Logged.value_pure]
      exact hactive _ hhall

/-- Every request comes to rest with all that it left to report. -/
theorem Reached.sound (hs : Reached framework s) : Sound s := by
  induction hs with
  | fresh => exact sound_none rfl
  | @served s seeds route body hs ih =>
    rw [serve_state]
    unfold handle
    cases Call.read framework route body with
    | none => exact ih
    | some call => exact ih.call seeds call
  | @advanced s seconds hs ih =>
    unfold Service.advance
    cases hhall : s.hall with
    | none => exact sound_none rfl
    | some h =>
      dsimp only
      exact sound_advance (ih h hhall).toSteady seconds

end Service

end MazeDuel
