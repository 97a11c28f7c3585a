import MazeDuel.Match.Config
import MazeDuel.Proofs.Turn.Continuous
import MazeDuel.Proofs.Turn.Pending
/-!
The pace of a match makes no difference: a match that goes on by itself in continuous mode and one
that is stepped from outside stand in the same way after every run, whatever the timing of each.
-/

namespace MazeDuel

theorem Turn.Timing.check_eq {timing timing' : Timing} (h : timing.check = .ok timing') :
    timing' = timing := by
  unfold Timing.check at h
  split_ifs at h
  exact (Except.ok.inj h).symm

theorem Turn.Duel.make_eq {arena : Arena} {timing : Turn.Timing} {scripts : Duo Json}
    {d : Turn.Duel} (h : Turn.Duel.make arena timing scripts = .ok d) :
    d = .fresh arena timing scripts := by
  obtain ⟨checked, hcheck, heq⟩ := exists_ok_of_bind h
  rw [← Except.ok.inj heq, Timing.check_eq hcheck]

open Turn Duel Coordinator

/-- Every match that is built from settings begins in an arena that could be made, with the timing
and the scripts of the settings. -/
theorem MatchConfig.buildDuel_make {config : MatchConfig} {seeds : Json → Random.Twister} {d : Duel}
    (h : (config.buildDuel seeds).value = .ok d) :
    ∃ grid a b damage arena, Arena.make grid a b damage = .ok arena ∧
      Duel.make arena config.timing config.scripts = .ok d := by
  have hduel : ((config.buildArena seeds).value >>= fun arena =>
      Duel.make arena config.timing config.scripts) = .ok d := h
  obtain ⟨arena, harena, hmake⟩ := exists_ok_of_bind hduel
  obtain ⟨layout, -, hlayout⟩ := exists_ok_of_bind (x := (config.buildLayout seeds).value) harena
  obtain ⟨a, -, ha⟩ := exists_ok_of_bind hlayout
  obtain ⟨b, -, hb⟩ := exists_ok_of_bind ha
  obtain ⟨damage, -, hdamage⟩ := exists_ok_of_bind hb
  exact ⟨layout.grid, a, b, damage, arena, hdamage, hmake⟩

namespace Turn.Coordinator

variable {M M' : Type} {l : Listener M} {seen : M → List Duel} {arena : Arena} {timing : Timing}
  {scripts : Duo Json} {programs : Duo (List Action)} {memory : M}

/-- A match that is started and put in continuous mode begins with a run. -/
theorem ahead_begun (hl : Mute seen l) (ha : arena.Proper) (hread : Reads scripts programs)
    (timing : Timing) (memory : M) :
    Ahead ⟨true, timing, scripts⟩ ((Standing.first arena).turns programs 1)
      ((fresh arena timing scripts memory).after l
        [.request .start, .request (.setContinuous true)]).duel := by
  let x := ((fresh arena timing scripts memory).request l .start).2
  obtain ⟨hsettled, hpoised⟩ := settled_start hl ha timing scripts memory
  have hp : x.duel.phase ≠ .over := by
    rw [show x.duel.phase = .idle from congrArg Standing.phase hsettled.standing]
    decide
  obtain ⟨hidle, hstarted, hsetting⟩ := hsettled.going hp
  let e : Duel := { x.duel with continuous := true }.note .info "Continuous mode on"
  have hset : x.duel.setContinuous true = e.autoExecute :=
    if_neg (by simp [isOver, x, hp])
  have hsolo : Solo e := hsettled.toSolo.irrelevant rfl rfl rfl rfl rfl rfl
  have he : Poised e := ⟨hpoised.awaited, hpoised.meek⟩
  have hreads : Reads e.scripts programs := by
    rw [show e.scripts = scripts from congrArg Setting.scripts hsetting]
    exact hread
  have hstill : Still e.autoExecute := by
    rw [← hset]
    exact hsettled.toStill.moves (moves_request l (.setContinuous true) x)
  have hself : ∃ running outcomes,
      e.autoExecute = { e.autoExecute with running, outcomes } := ⟨_, _, rfl⟩
  have hahead := (he.begins hsolo hidle hstarted rfl hsettled.proper hreads).2 hself hstill
  have hsetting' : e.setting = ⟨true, timing, scripts⟩ := by
    rw [show timing = x.duel.timing from (congrArg Setting.timing hsetting).symm,
      show scripts = x.duel.scripts from (congrArg Setting.scripts hsetting).symm]
    rfl
  have hstanding : e.standing = .first arena := hsettled.standing
  rw [hsetting', hstanding, ← hset] at hahead
  exact hahead

/-- A match that is started, put in continuous mode and then left alone, right after some run: the
turn has just been passed on, or the match is over. -/
def Played (l : Listener M) (c : Coordinator M) (n : Nat) (x : Coordinator M) : Prop :=
  let begun := c.after l [.request .start, .request (.setContinuous true)]
  ∃ hs, (∀ y ∈ hs, y.isRequest = false) ∧ begun.OnClock l hs ∧ begun.runsEnded l hs = n ∧
    begun.after l hs = x ∧ x.duel.phase ≠ .executing

/-- What is left alone in continuous mode plays on all the time. -/
theorem playing_begun (hl : Mute seen l) (ha : arena.Proper) (hread : Reads scripts programs)
    (timing : Timing) (memory : M) {hs : List Happening} (hhs : ∀ x ∈ hs, x.isRequest = false) :
    let begun := (fresh arena timing scripts memory).after l
      [.request .start, .request (.setContinuous true)]
    Playing ⟨true, timing, scripts⟩ (Standing.first arena) programs (begun.runsEnded l hs)
      (begun.after l hs).duel := by
  intro begun
  have hlasts : (Standing.first arena).Lasts programs 1 := fun m hm => by
    obtain rfl : m = 0 := by omega
    rfl
  have hplaying := playing_after hl rfl hread
    (.running (ahead_begun hl ha hread timing memory) hlasts fun hn => absurd hn (by omega)) hhs
  rwa [Nat.zero_add] at hplaying

/-- After every run the match stands as after so many turns by the rules, and there is no second run
after a pause that cannot be kept. -/
theorem played_standing (hl : Mute seen l) (ha : arena.Proper) (hread : Reads scripts programs)
    {n : Nat} {x : Coordinator M} (h : Played l (fresh arena timing scripts memory) n x) :
    x.duel.standing = (Standing.first arena).turns programs n ∧
      (Standing.first arena).Lasts programs n ∧ (1 < n → timing.turnDelay.fitsReal) := by
  obtain ⟨hs, hunasked, -, rfl, rfl, hrest⟩ := h
  cases playing_begun hl ha hread timing memory hunasked with
  | running ahead => exact absurd ahead.busy hrest
  | stuck stuck => exact absurd stuck.busy hrest
  | between settled lasts kept => exact ⟨settled.standing, lasts, kept⟩

/-- No timer sleeps in a match that is left alone in continuous mode. -/
theorem untimed_begun (hl : Mute seen l) (ha : arena.Proper) (hread : Reads scripts programs)
    (timing : Timing) (memory : M) {hs : List Happening} (hhs : ∀ x ∈ hs, x.isRequest = false) :
    let begun := (fresh arena timing scripts memory).after l
      [.request .start, .request (.setContinuous true)]
    ∀ y ∈ (begun.after l hs).duel.schedule.asleep, y.task.job.isTimer = false := by
  intro begun y hy
  let c : Coordinator M := fresh arena timing scripts memory
  have hwhole : begun.after l hs =
      c.after l ([.request .start, .request (.setContinuous true)] ++ hs) :=
    (after_append l c _ hs).symm
  obtain ⟨ho, htimely⟩ : Resting (begun.after l hs).duel ∧ Timely (begun.after l hs).duel := by
    rw [hwhole]
    exact after_keeps (P := fun d => Resting d ∧ Timely d)
      (fun hg h => ⟨h.1.goes hg, h.2.goes h.1 hg⟩) l c _
      ⟨resting_fresh arena timing scripts, timely_fresh arena timing scripts⟩
  have hlive : y.task.cancelled = false := by
    rw [hwhole] at hy
    exact awake_after (c := c) nofun y hy
  by_contra htimer
  have hpending : y.task ∈ (begun.after l hs).duel.pendingTimers :=
    mem_pendingTimers.mpr ⟨(Schedule.mem_tasks _ _).mpr (Or.inr ⟨y, hy, rfl⟩),
      Bool.eq_true_of_not_eq_false htimer, hlive⟩
  have hphase := htimely.idle ho.toOrderly hpending
  have hbusy : (begun.after l hs).duel.phase ≠ .executing ∧
      (begun.after l hs).duel.phase ≠ .over := by
    rcases hphase with hp | hp <;> simp [hp]
  cases playing_begun hl ha hread timing memory hhs with
  | running ahead => exact hbusy.1 ahead.busy
  | stuck stuck => exact hbusy.1 stuck.busy
  | between settled lasts kept pausing =>
    cases (pausing hbusy.2).untimed.symm.trans (ho.toOrderly.timer_of_pending hpending)

theorem clocked_begun {c : Coordinator M} {kind : Job → Bool} (h : Clocked kind c.duel) :
    Clocked kind (c.after l [.request .start, .request (.setContinuous true)]).duel :=
  (h.moves (moves_request l .start c)).moves
    (moves_request l (.setContinuous true) (c.request l .start).2)

/-- If its pauses are short, a match goes on by itself in continuous mode as far as the rules lead.
-/
theorem played_reaches (hl : Mute seen l) (ha : arena.Proper) (hread : Reads scripts programs)
    (hstep : timing.stepDelay.isShort) (hturn : timing.turnDelay.isShort) {n : Nat}
    (hlasts : (Standing.first arena).Lasts programs (n + 1))
    (hlast : ((Standing.first arena).turns programs (n + 1)).phase ≠ .executing) :
    ∃ x, Played l (fresh arena timing scripts memory) (n + 1) x := by
  let c : Coordinator M := fresh arena timing scripts memory
  let begun := c.after l [.request .start, .request (.setContinuous true)]
  obtain ⟨hs, hsteps, hcount, hrest⟩ := playing_reaches (g := ⟨true, timing, scripts⟩) hl rfl hread
    (Quantity.fitsReal_of_isShort hstep) (Quantity.fitsReal_of_isShort hturn)
    (ahead_begun hl ha hread timing memory) n hlasts hlast
  have hclocked : Clocked (fun job => !job.isTimer) begun.duel :=
    clocked_begun (c := c) (clocked_fresh _ arena timing scripts)
  have htiming : begun.duel.timing = timing :=
    after_keeps (P := fun d => d.timing = timing) timing_goes l c
      [.request .start, .request (.setContinuous true)] rfl
  refine ⟨_, hs, unasked_of_steps hsteps, ?_, hcount, rfl, hrest⟩
  refine (clocked_steps (fun job hrests hkind => ?_) hclocked hsteps
    fun before hbefore y hy => ?_).1
  · rw [htiming]
    cases job with
    | act p rest executed => exact hstep
    | pause result => exact hturn
    | _ => simp [Job.isTimer, Job.rests] at hkind hrests
  · have hunasked := unasked_of_steps fun x hx =>
      hsteps x (hbefore.subset (List.mem_append_left _ hx))
    rw [untimed_begun hl ha hread timing memory hunasked y hy]
    rfl

/-- A match in continuous mode stands after every run as one that is stepped from outside, with the
same arena and the same scripts but any other timing: it has the same world and the same log, the
same player is to move in the same turn, and it is over with the same result or not at all. And if
their pauses are short, then the one has an end of a run wherever the other has one; one more run
ends for as long as the match is not over and the actions of its players can be carried out. -/
theorem continuous_as_stepped {grid : Grid} {a b : Combatant} {damage : Quantity}
    (harena : Arena.make grid a b damage = .ok arena) {timing' : Timing} {d d' : Duel}
    (hd : Duel.make arena timing scripts = .ok d) (hd' : Duel.make arena timing' scripts = .ok d')
    (hread : Reads scripts programs) (memory : M) (memory' : M') (hl : Mute seen l)
    {seen' : M' → List Duel} {l' : Listener M'} (hl' : Mute seen' l') :
    let c : Coordinator M := ⟨d, memory⟩
    let c' : Coordinator M' := ⟨d', memory'⟩
    (∀ n x x', Stepping l c n x → Played l' c' n x' → x'.duel.standing = x.duel.standing) ∧
      (timing.stepDelay.isShort → timing'.stepDelay.isShort → timing'.turnDelay.isShort → ∀ n,
        ((∃ x, Stepping l c (n + 1) x) ↔ ∃ x', Played l' c' (n + 1) x') ∧
        ∀ x, Stepping l c n x → x.duel.phase ≠ .over →
          (x.duel.standing.turn programs).phase ≠ .executing → ∃ x, Stepping l c (n + 1) x) := by
  obtain rfl := Duel.make_eq hd
  obtain rfl := Duel.make_eq hd'
  have hproper := Arena.proper_make harena
  intro c c'
  refine ⟨fun n x x' h h' => ?_, fun hstep hstep' hturn' n =>
    ⟨⟨fun ⟨x, h⟩ => ?_, fun ⟨x', h'⟩ => ?_⟩,
    fun x h hp hnext => ?_⟩⟩
  · obtain ⟨hsettled, -⟩ := stepping_settled hl hproper hread h
    rw [hsettled.standing, (played_standing hl' hproper hread h').1]
  · obtain ⟨hsettled, -, hlasts⟩ := stepping_settled hl hproper hread h
    refine played_reaches hl' hproper hread hstep' hturn' hlasts ?_
    rw [← hsettled.standing]
    exact hsettled.resting
  · obtain ⟨hstanding, hlasts, -⟩ := played_standing hl' hproper hread h'
    obtain ⟨hs, -, -, -, -, hrest⟩ := h'
    refine stepping_reaches hl hproper hread hstep hlasts ?_
    rw [← hstanding]
    exact hrest
  · exact stepping_goes_on hl hproper hread hstep h hp hnext

theorem first_turn_at_any_pace :
    let scripts : Duo Json := ⟨.text "MoveRight()", .text ""⟩
    let c : Coordinator Unit := fresh luringField { turnDelay := .whole 1 } scripts ()
    let c' : Coordinator Unit :=
      fresh luringField { stepDelay := .whole 2, turnDelay := .whole 3 } scripts ()
    let x' := c'.after .silent
      [.request .start, .request (.setContinuous true), .step, .step, .wake, .step]
    ∃ x, Stepping .silent c 1 x ∧ x'.duel.standing = x.duel.standing ∧
      x'.duel.current = .b ∧ x'.duel.log.size = 4 := by
  intro scripts c c' x'
  have hmake : Arena.make luringField.grid (standing .a ⟨0, 0⟩) (standing .b ⟨4, 4⟩) (.whole 20) =
      .ok luringField := rfl
  have hmute : Mute (fun _ : Unit => []) .silent := fun _ _ _ => trivial
  have hread : Reads scripts ⟨[⟨.a, .move .right⟩], []⟩ := by
    have ha : c.duel.program? (.begin .a) = some (.a, [⟨.a, .move .right⟩], []) := by
      decide +kernel
    have hb : c.duel.program? (.begin .b) = some (.b, [], []) := by decide +kernel
    intro p
    cases p with
    | a => exact (parseGiven_of_program? ha).2.2
    | b => exact (parseGiven_of_program? hb).2.2
  have hmade : Duel.make luringField { turnDelay := .whole 1 } scripts = .ok c.duel := rfl
  have hmade' : Duel.make luringField { stepDelay := .whole 2, turnDelay := .whole 3 } scripts =
      .ok c'.duel := rfl
  obtain ⟨hsame, hreach⟩ := continuous_as_stepped hmake hmade hmade' hread () () hmute hmute
  have hdone : x'.duel.phase = .idle ∧ x'.duel.current = .b ∧ x'.duel.log.size = 4 := by
    decide +kernel
  have hplayed : Played .silent c' 1 x' := by
    have hclock : ∀ hs ∈ [Happening.step, .step, .wake, .step].inits, ((c'.after .silent
        [.request .start, .request (.setContinuous true)]).after .silent
          hs).duel.schedule.now.isFinite := by
      decide +kernel
    refine ⟨[.step, .step, .wake, .step], by decide, fun hs hfirst => ?_, by decide +kernel, ?_, ?_⟩
    · exact hclock hs ((List.mem_inits _ _).mpr hfirst)
    · exact (after_append .silent c' [.request .start, .request (.setContinuous true)] _).symm
    · rw [hdone.1]
      nofun
  obtain ⟨hboth, -⟩ := hreach (by decide +kernel) (by decide +kernel) (by decide +kernel) 0
  obtain ⟨x, hx⟩ := hboth.mpr ⟨x', hplayed⟩
  exact ⟨x, hx, hsame 1 x x' hx hplayed, hdone.2⟩

/-- A shot that ends the match comes in the second run. Stepped from outside, the match gets there;
in continuous mode it does not if no clock can keep the pause between the runs. -/
theorem second_run_never_comes :
    let arena : Arena := { luringField with damage := .whole 100 }
    let scripts : Duo Json := ⟨.text "", .text "Shoot(Radar)"⟩
    let timing : Timing := { turnDelay := .whole (10 ^ 400) }
    let c : Coordinator Unit := fresh arena timing scripts ()
    Duel.make arena timing scripts = .ok c.duel ∧
      (∃ x, Stepping .silent c 2 x ∧ x.duel.phase = .over ∧ x.duel.winner = some .b) ∧
      ¬ ∃ x', Played .silent c 2 x' := by
  intro arena scripts timing c
  have hmake : Arena.make arena.grid (standing .a ⟨0, 0⟩) (standing .b ⟨4, 4⟩) (.whole 100) =
      .ok arena := rfl
  have hproper : arena.Proper := Arena.proper_make hmake
  have hmute : Mute (fun _ : Unit => []) .silent := fun _ _ _ => trivial
  let programs : Duo (List Action) := ⟨[], [⟨.b, .shoot []⟩]⟩
  have hread : Reads scripts programs := by
    have ha : c.duel.program? (.begin .a) = some (.a, [], []) := by decide +kernel
    have hb : c.duel.program? (.begin .b) = some (.b, [⟨.b, .shoot []⟩], []) := by
      decide +kernel
    intro p
    cases p with
    | a => exact (parseGiven_of_program? ha).2.2
    | b => exact (parseGiven_of_program? hb).2.2
  have hcheck : timing.check = .ok timing := eq_ok_of_toOption (by decide +kernel)
  have hmade : Duel.make arena timing scripts = .ok c.duel := by
    unfold Duel.make
    rw [hcheck]
    rfl
  refine ⟨hmade, ?_, fun ⟨x', hplayed⟩ => ?_⟩
  · have hlasts : (Standing.first arena).Lasts programs 2 := by
      unfold Standing.Lasts
      decide +kernel
    have hended : ((Standing.first arena).turns programs 2).phase = .over ∧
        ((Standing.first arena).turns programs 2).winner = some .b := by
      decide +kernel
    obtain ⟨x, hx⟩ : ∃ x, Stepping .silent c 2 x :=
      stepping_reaches hmute hproper hread (by decide +kernel) hlasts (by simp [hended.1])
    obtain ⟨hsettled, -⟩ := stepping_settled hmute hproper hread hx
    refine ⟨x, hx, ?_, ?_⟩
    · exact (congrArg Standing.phase hsettled.standing).trans hended.1
    · exact (congrArg Standing.winner hsettled.standing).trans hended.2
  · have hlong : ¬ timing.turnDelay.fitsReal := by decide +kernel
    exact hlong ((played_standing hmute hproper hread hplayed).2.2 (by decide))

end Turn.Coordinator

end MazeDuel
