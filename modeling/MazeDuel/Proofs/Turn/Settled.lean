import MazeDuel.Proofs.Turn.BigStep
import MazeDuel.Proofs.Turn.Onward
/-!
Matches in which nobody interferes: while a run is on its way everybody else has been called off,
and when it has come to its end it is settled how the match stands.
-/

namespace MazeDuel.Turn

namespace Standing

/-- How a match stands when it is started in an arena. -/
def first (arena : Arena) : Standing :=
  opening ⟨arena, {}, .idle, false, .a, 0, none, .inProgress, false⟩

/-- A turn in which the player to move runs one of two programs. -/
def turn (programs : Duo (List Action)) (s : Standing) : Standing :=
  (s.play s.current (programs.get s.current)).2

/-- Some turns with the same programs. -/
def turns (programs : Duo (List Action)) (s : Standing) : Nat → Standing
  | 0 => s
  | n + 1 => (s.turns programs n).turn programs

/-- Before some number of turns the match has not ended, nor has an action failed. -/
def Lasts (programs : Duo (List Action)) (s : Standing) (n : Nat) : Prop :=
  ∀ m < n, (s.turns programs m).phase = .idle

theorem Lasts.succ {programs : Duo (List Action)} {s : Standing} {n : Nat}
    (h : s.Lasts programs n) (hn : (s.turns programs n).phase = .idle) :
    s.Lasts programs (n + 1) := by
  intro m hm
  rcases Nat.lt_succ_iff_lt_or_eq.mp hm with hm | rfl
  · exact h m hm
  · exact hn

/-- Actions that are all carried out lead to no phase but the end of the match, and an action fails
in the phase in which they began. -/
theorem run_phase {s : Standing} (hs : s.phase ≠ .over) (p : Player) (executed : List String)
    (program : List Action) :
    match s.run p executed program with
    | (.ok _, s') => s'.phase = s.phase ∨ s'.phase = .over
    | (.error _, s') => s'.phase = s.phase := by
  induction program generalizing s executed with
  | nil => exact Or.inl rfl
  | cons a later ih =>
    have hphase := act_phase s p a.command
    rcases hact : s.act p a.command with ⟨fault | _, s'⟩
    · obtain ⟨arena, rfl⟩ := act_error hact
      rw [run_failing hs hact]
    · rw [hact] at hphase
      rw [run_cons hs hact]
      by_cases hover : s'.phase = .over
      · rw [run_over hover]
        exact Or.inr hover
      · rw [← hphase.resolve_right hover]
        exact ih hover _

/-- After a turn the next one has begun or the match is over, but a turn in which an action has
failed goes on for ever. -/
theorem play_phase (s : Standing) (p : Player) (program : List Action) :
    match s.play p program with
    | (.ok _, s') => s'.phase = .idle ∨ s'.phase = .over
    | (.error _, s') => s'.phase = .executing := by
  have hrun := run_phase (s := { s with phase := .executing }) (by simp) p [] program
  unfold play
  rcases hran : Standing.run { s with phase := .executing } p [] program with ⟨fault | result, s'⟩
  · rw [hran] at hrun
    exact hrun
  · by_cases hover : s'.phase = .over
    · rw [conclude_over hover]
      exact Or.inr hover
    · rw [conclude_going hover]
      exact Or.inl rfl

end Standing

namespace Duel

open Deed

/-- What players can set besides their moves. -/
structure Setting where
  continuous : Bool
  timing : Timing
  scripts : Duo Json

def setting (d : Duel) : Setting := ⟨d.continuous, d.timing, d.scripts⟩

def Accepted.setting (r : Accepted) : Setting := ⟨r.continuous, r.timing, r.scripts⟩

variable {d d' : Duel} {r : Accepted} {program : List Action} {id : Nat} {g : Setting}
  {s : Standing}

theorem Underway.setting (h : Underway r program d) (hp : d.phase ≠ .over) :
    d.setting = r.setting := by
  unfold Duel.setting Accepted.setting
  rw [h.mode hp, h.timing, h.scripts]

/-- How a match stands is settled, in a turn that has just begun unless the match is over. -/
structure Settled (g : Setting) (s : Standing) (d : Duel) : Prop extends Still d where
  standing : d.standing = s
  proper : d.arena.Proper
  going : d.phase ≠ .over → d.phase = .idle ∧ d.started = true ∧ d.setting = g

theorem settled_apart (hstanding : d.standing = s) (ha : Apart d d') (hs : Still d')
    (hp : d'.arena.Proper)
    (hgoing : d.phase ≠ .over → d.phase = .idle ∧ d.started = true ∧ d.setting = g) :
    Settled g s d' where
  toStill := hs
  standing := ha.standing.trans hstanding
  proper := hp
  going hgoes := by
    obtain ⟨hidle, hstarted, hsetting⟩ := hgoing (ha.phase ▸ hgoes)
    refine ⟨ha.phase.trans hidle, (congrArg Standing.started ha.standing).trans hstarted, ?_⟩
    rw [← hsetting]
    unfold Duel.setting
    rw [ha.continuous, ha.timing, ha.scripts]

theorem Settled.apart (h : Settled g s d) (ha : Apart d d') (hs : Still d') : Settled g s d' := by
  have harena : d'.arena = d.arena := congrArg Standing.arena ha.standing
  exact settled_apart h.standing ha hs (harena ▸ h.proper) h.going

theorem Settled.resting (h : Settled g s d) : d.phase ≠ .executing := by
  intro hp
  obtain ⟨hidle, -⟩ := h.going (by rw [hp]; decide)
  cases hp.symm.trans hidle

/-- A run that comes to its end leaves the match as the rules say, in the setting that it had. -/
theorem Ends.settled (h : Ends r d d') (hs : Still d') (ha : d'.arena.Proper)
    (hstarted : d.started = true) (hset : d.phase ≠ .over → d.setting = r.setting) :
    Settled r.setting r.standing d' := by
  have hstop {e : Duel} : Apart e { e with running := none } := apart_beside rfl
  cases h with
  | @decided result journal hok hover hstanding =>
    let e : Duel := { d with journal, lastExecution := some result }
    have hapart := (beside_endTask e r.id (.done (some result))).toApart.trans hstop
    exact settled_apart (d := e) hstanding hapart hs ha fun hp => absurd hover hp
  | @passed _ result handed hok hbusy hmanual hstanding =>
    obtain ⟨deeds, arena, log, journal, rfl⟩ := handed
    rw [beginTurn_manual rfl (by exact hmanual)] at hs ha ⊢
    let e := (d.handed (some result) deeds arena log journal).startTimer
    have hapart := (beside_endTask e r.id (.done (some result))).toApart.trans hstop
    exact settled_apart (d := e) hstanding hapart hs ha fun _ =>
      ⟨rfl, hstarted, hset (by rw [hbusy]; decide)⟩
  | @paused _ result handed hok hbusy hon hstanding =>
    obtain ⟨deeds, arena, log, journal, rfl⟩ := handed
    let e := d.handed (some result) deeds arena log journal
    let paused := e.remember (.paused r.id e.turnNumber)
    have hpause : Job.pause result ≠ .caller := nofun
    have hrest := beside_rest paused r.id hpause e.timing.turnDelay
    have hapart : Apart e paused := apart_beside rfl
    exact settled_apart (d := e) hstanding ((hapart.trans hrest.toApart).trans hstop) hs ha fun _ =>
      ⟨rfl, hstarted, hset (by rw [hbusy]; decide)⟩

/-- A run that fails is still said to be executed, unless its last action has ended the match. -/
theorem Fails.settled (h : Fails r d d') (hs : Still d') (ha : d'.arena.Proper) :
    d'.phase = .executing ∨ d'.phase = .over ∧ Settled r.setting r.standing d' := by
  cases h with
  | @broke e fault hwhy hschedule hawaited hrunning hscripts hphase hstands =>
    have hstop : Apart (e.endTask r.id (.failed fault)) { e.endTask r.id
      (.failed fault) with running := none } := apart_beside rfl
    have hapart := (beside_endTask e r.id (.failed fault)).toApart.trans hstop
    rcases hphase with hbusy | ⟨hover, hstanding⟩
    · exact Or.inl (hapart.phase.trans hbusy)
    · exact Or.inr ⟨hapart.phase.trans hover,
        settled_apart hstanding hapart hs ha fun hp => absurd hover hp⟩

/-- All tasks but one have been called off, and nobody waits for another. -/
structure Alone (id : Nat) (d : Duel) : Prop extends Unhindered id d where
  others : ∀ t ∈ d.schedule.tasks, t.id = id ∨ t.cancelled = true

/-- What scripts are read as. -/
def Reads (scripts : Duo Json) (programs : Duo (List Action)) : Prop :=
  ∀ p, (Script.parseGiven p (scripts.get p)).value = .ok (programs.get p)

theorem Reads.program? {programs : Duo (List Action)} (h : Reads d.scripts programs) (p : Player) :
    d.program? (.begin p) = some (p, programs.get p, []) := by
  simp [Duel.program?, h p, Except.toOption]

/-- All tasks have been called off. -/
def Deserted (d : Duel) : Prop := ∀ t ∈ d.schedule.tasks, t.job ≠ .caller ∧ t.cancelled = true

theorem Alone.rests {t : Task Job} {ready : List (Task Job)} (h : Alone id d)
    (hr : d.schedule.ready = t :: ready) (hs : Rests id (d.taken t ready) d') : Alone id d' where
  toUnhindered := h.toUnhindered.rests hr hs
  others u hu := by
    rcases hs.tasks u hu with hu | ⟨hid, -⟩
    · exact h.others u (mem_tasks_taken hr hu)
    · exact Or.inl hid

/-- When the last task makes its step, nobody is left who has not been called off. -/
theorem Alone.taken {t : Task Job} {ready : List (Task Job)} (h : Alone id d) (hs : Still d)
    (hr : d.schedule.ready = t :: ready) (hid : t.id = id) : Deserted (d.taken t ready) := by
  intro u hu
  have hmem : u ∈ d.schedule.tasks := mem_tasks_taken hr hu
  refine ⟨h.callers u hmem, (h.others u hmem).resolve_left fun huid => ?_⟩
  exact (hs.toSolo.taken hs.still hr).toNumbered.not_mem_of_running rfl (huid.trans hid.symm) hu

end Duel

namespace Coordinator

open Duel Deed

variable {M : Type} {l : Listener M} {tell : Notification → Coordinator M → Coordinator M}
  {c c' : Coordinator M} {r : Accepted} {program : List Action} {t : Task Job}
  {ready : List (Task Job)} {id : Nat}

/-- A task that has been called off, and that nobody waits for, is only dropped. -/
theorem step?_dropped (hr : c.duel.schedule.ready = t :: ready) (hc : t.cancelled = true)
    (ha : c.duel.awaited ≠ some t.id) (hstep : c.step? tell = some c') :
    c'.duel = { c.duel with
      schedule := { c.duel.schedule with ready }, running := none
      outcomes := (t.id, .cancelled) :: c.duel.outcomes } := by
  obtain ⟨t', ready', hr', -, rfl⟩ := step?_taken tell hstep
  cases hr.symm.trans hr'
  rw [if_pos hc]
  show { (c.duel.taken t ready).endTask t.id .cancelled with running := none } = _
  rw [endTask_of_ne (d := c.duel.taken t ready) ha]
  rfl

/-- While a run is on its way and everybody else has been called off, a step leaves it so or is the
one that ends the run. -/
theorem alone_step (ht : Passive l.tell) (h : Underway r program c.duel) (ha : Alone r.id c.duel)
    (hr : c.duel.schedule.ready = t :: ready) (hstep : c.step? l.tell = some c') :
    (∃ later, Underway r later c'.duel ∧ Alone r.id c'.duel ∧
      c'.duel.awaited = c.duel.awaited) ∨
    t.id = r.id ∧ (Fails r (c.duel.taken t ready) c'.duel ∨
      Ends r (c.duel.taken t ready) c'.duel) := by
  by_cases hid : t.id = r.id
  · rcases underway_step_own ht h hr hid hstep with ⟨a, later, -, ⟨hlater, hrests⟩ | hfails⟩ | hends
    · exact Or.inl ⟨later, hlater, ha.rests hr hrests, hrests.awaited⟩
    · exact Or.inr ⟨hid, Or.inl hfails⟩
    · exact Or.inr ⟨hid, Or.inr hends⟩
  · left
    obtain ⟨hnext, -⟩ := underway_step_other ht.tells h hr hid hstep
    have hcancelled := (ha.others t (tasks_of_ready hr)).resolve_left hid
    have heq := step?_dropped hr hcancelled (fun hk => hid (ha.awaited _ hk)) hstep
    rw [heq] at hnext ⊢
    refine ⟨program, hnext, ⟨⟨ha.awaited, fun u hu => ha.callers u ?_⟩, fun u hu => ha.others u ?_⟩,
      rfl⟩
    · exact mem_tasks_taken hr hu
    · exact mem_tasks_taken hr hu

/-- No step changes how a match stands that is over. -/
theorem standing_step?_over (ho : c.duel.phase = .over) (hstep : c.step? tell = some c') :
    c'.duel.standing = c.duel.standing := by
  obtain ⟨t, ready, -, -, rfl⟩ := step?_taken tell hstep
  let taken : Coordinator M := ⟨c.duel.taken t ready, c.memory⟩
  have hend (d : Duel) (outcome : Outcome) : (d.endTask t.id outcome).standing = d.standing :=
    (d.beside_endTask t.id outcome).standing
  split
  · exact hend taken.duel _
  · show (taken.runJob tell t.id t.job).duel.standing = taken.duel.standing
    cases hprogram : taken.duel.program? t.job with
    | some found =>
      obtain ⟨p, rest, executed⟩ := found
      obtain ⟨journal, heq⟩ := runJob_program tell t.id hprogram
      obtain ⟨journal', hover⟩ := act_over tell
        (c := taken.update ({ · with journal })) ho t.id p executed rest
      rw [heq, hover]
      exact hend _ _
    | none =>
      cases hj : t.job with
      | begin p =>
        unfold runJob beginRun
        cases hv : (Script.parseGiven p (taken.duel.scripts.get p)).value with
        | error fault =>
          simp only [hv]
          exact hend _ _
        | ok actions => simp [hj, Duel.program?, hv, Except.toOption] at hprogram
      | act p rest executed => simp [hj, Duel.program?] at hprogram
      | _ => exact (beside_runJob (c := taken) (Or.inr ho) t.id rfl).standing

theorem proper_happen {seen : M → List Duel} (hl : Mute seen l) (hs : Still c.duel)
    (h : c.duel.arena.Proper) (x : Happening) : (c.happen l x).duel.arena.Proper :=
  steadfast_live hl.fair Arena.steadfast_proper hs h [.happening x]

/-- The same for everything that happens while nobody asks for anything. -/
theorem alone_happen (ht : Passive l.tell) (h : Underway r program c.duel)
    (ha : Alone r.id c.duel) {x : Happening} (hx : x.isRequest = false) :
    (∃ later, Underway r later (c.happen l x).duel ∧ Alone r.id (c.happen l x).duel ∧
      (c.happen l x).duel.awaited = c.duel.awaited) ∨
    ∃ t ready, c.duel.schedule.ready = t :: ready ∧ t.id = r.id ∧
      (Fails r (c.duel.taken t ready) (c.happen l x).duel ∨
        Ends r (c.duel.taken t ready) (c.happen l x).duel) := by
  cases x with
  | request q => cases hx
  | clock now =>
    have hstill := h.toStill.visited (visited_clock c.duel now) c.duel.awaited
    exact Or.inl ⟨program, h.apart (apart_beside rfl) hstill fun _ ht => ht,
      ⟨⟨ha.awaited, ha.callers⟩, ha.others⟩, rfl⟩
  | wake =>
    left
    unfold happen
    cases hw : c.wake? with
    | none => exact ⟨program, h, ha, rfl⟩
    | some c' =>
      have hnext := underway_wake? h hw
      unfold Coordinator.wake? at hw
      obtain ⟨schedule, hwake, rfl⟩ := Option.map_eq_some_iff.mp hw
      have htasks := Schedule.tasks_wake? hwake
      exact ⟨program, hnext, ⟨⟨ha.awaited, fun t ht => ha.callers t ((htasks t).mp ht)⟩,
        fun t ht => ha.others t ((htasks t).mp ht)⟩, rfl⟩
  | step =>
    unfold happen
    cases hstep : c.step? l.tell with
    | none => exact Or.inl ⟨program, h, ha, rfl⟩
    | some c' =>
      obtain ⟨t, ready, hr, -⟩ := step?_taken l.tell hstep
      rcases alone_step ht h ha hr hstep with hnext | ⟨hid, hlast⟩
      · exact Or.inl hnext
      · exact Or.inr ⟨t, ready, hr, hid, hlast⟩

end Coordinator

end MazeDuel.Turn
