import MazeDuel.Proofs.Turn.Completed
import MazeDuel.Proofs.Turn.Staleness
import MazeDuel.Proofs.Turn.Upheld
/-!
How turns are told: the players are told in turn whose move it is, once at the start and once
whenever the turn passes on. What passes it on is the end of a run or the end of a timer, and
nothing else.
-/

namespace MazeDuel

/-- The player to move in a turn: they take turns, beginning with the first player. -/
def Player.ofTurn (n : Nat) : Player := if n % 2 = 0 then .a else .b

theorem Player.ofTurn_succ (n : Nat) : ofTurn (n + 1) = (ofTurn n).other := by
  unfold ofTurn
  rcases Nat.mod_two_eq_zero_or_one n with h | h
  · have h' : ¬ (n + 1) % 2 = 0 := by omega
    rw [if_neg h', if_pos h]
    rfl
  · have h' : (n + 1) % 2 = 0 := by omega
    have h : ¬ n % 2 = 0 := by omega
    rw [if_pos h', if_neg h]
    rfl

theorem Player.ofTurn_eq_a {n : Nat} : ofTurn n = .a ↔ n % 2 = 0 := by
  unfold ofTurn
  split <;> simp [*]

/-- The player whose turn is told to have begun. -/
def Notification.turn? : Notification → Option Player
  | turnChanged p => some p
  | _ => none

namespace Turn

/-- The players whose turns were told to have begun, in order. -/
def Duel.told (d : Duel) : List Player := d.log.events.filterMap Notification.turn?

namespace Duel

open Deed

/-- A turn that has ended with the run of its player: it has come to its end, no other run has, and
all that the radar has learnt is where the player is now. -/
structure RunEnded (c d : Duel) : Prop where
  own : completions c.current d.deeds = completions c.current c.deeds + 1
  other : completions c.current.other d.deeds = completions c.current.other c.deeds
  fixes : d.arena.fixes = c.arena.fixes.set c.current
    ((c.arena.fixes.get c.current).push (d.arena.combatant c.current).fix)

/-- A turn that has ended with its time, at a moment when its timer was about to make its last step:
no run has come to its end, and nobody has moved, turned or been hurt. -/
structure TimedOut (c e d : Duel) : Prop where
  timer : ∃ t ready, e.schedule.ready = t :: ready ∧ t ∈ e.pendingTimers ∧
    t.job.isLastTick = true ∧ e.TimedNow t.id
  runs : ∀ p, completions p d.deeds = completions p c.deeds
  grid : d.arena.grid = c.arena.grid
  fixes : d.arena.fixes = c.arena.fixes
  fix : ∀ p, (d.arena.combatant p).fix = (c.arena.combatant p).fix
  health : ∀ p, (d.arena.combatant p).health = (c.arena.combatant p).health

end Duel

namespace Standing

variable {s s' : Standing}

def told (s : Standing) : List Player := s.log.events.filterMap Notification.turn?

theorem told_hear (h : s.log.limit = .null) (n : Notification) :
    (s.hear n).told = s.told ++ n.turn?.toList := by
  show ((s.log.record n).events).filterMap Notification.turn? = _
  rw [EventLog.events_record _ _ h, List.filterMap_append]
  cases n <;> rfl

/-- Every turn so far was told once, in order, and nothing before the start. -/
structure Counted (s : Standing) : Prop where
  unlimited : s.log.limit = .null
  told : s.told = (List.range (if s.started then s.turnNumber + 1 else 0)).map Player.ofTurn
  unstarted : s.started = false → s.turnNumber = 0
  current : s.current = Player.ofTurn s.turnNumber

theorem Counted.hear (h : s.Counted) {n : Notification} (hn : n.turn? = none) :
    (s.hear n).Counted := by
  refine ⟨h.unlimited, ?_, h.unstarted, h.current⟩
  rw [told_hear h.unlimited, hn, Option.toList_none, List.append_nil]
  exact h.told

theorem Counted.opening (h : s.Counted) (hs : s.started = false) : s.opening.Counted := by
  have hturn : s.turnNumber = 0 := h.unstarted hs
  refine ⟨h.unlimited, ?_, nofun, ?_⟩
  · have htold : s.opening.told = s.told ++ [.a] := told_hear h.unlimited (.turnChanged .a)
    rw [htold, h.told, hs]
    show _ = (List.range (s.turnNumber + 1)).map Player.ofTurn
    rw [hturn]
    rfl
  · show Player.a = Player.ofTurn s.turnNumber
    rw [hturn]
    rfl

theorem Counted.pass (h : s.Counted) (hs : s.started = true) : (s.pass s.current).Counted := by
  have hnext : s.current.other = Player.ofTurn (s.turnNumber + 1) := by
    rw [Player.ofTurn_succ, h.current]
  refine ⟨h.unlimited, ?_, ?_, hnext⟩
  · have htold : (s.pass s.current).told = s.told ++ [s.current.other] :=
      told_hear h.unlimited (.turnChanged s.current.other)
    rw [htold, h.told, hs]
    show _ = (List.range (if s.started then s.turnNumber + 1 + 1 else 0)).map Player.ofTurn
    rw [hs, if_pos rfl, if_pos rfl, List.range_succ (n := s.turnNumber + 1), List.map_append, hnext]
    rfl
  · intro hs'
    cases hs.symm.trans hs'

/-- The turn is still the same, and no fix has been added to what the radar knows. -/
structure SameTurn (s s' : Standing) : Prop where
  started : s'.started = true
  unlimited : s'.log.limit = .null
  told : s'.told = s.told
  current : s'.current = s.current
  fixes : s'.arena.fixes = s.arena.fixes

theorem SameTurn.refl (hs : s.started = true) (hl : s.log.limit = .null) : SameTurn s s :=
  ⟨hs, hl, rfl, rfl, rfl⟩

theorem SameTurn.hear (h : SameTurn s s') {n : Notification} (hn : n.turn? = none) :
    SameTurn s (s'.hear n) := by
  refine ⟨h.started, h.unlimited, ?_, h.current, h.fixes⟩
  rw [told_hear h.unlimited, hn, Option.toList_none, List.append_nil]
  exact h.told

theorem SameTurn.setArena (h : SameTurn s s') {arena : Arena} (ha : arena.fixes = s'.arena.fixes) :
    SameTurn s { s' with arena } :=
  ⟨h.started, h.unlimited, h.told, h.current, ha.trans h.fixes⟩

/-- The same turn goes on. As long as the player to move may ask for something, nothing has been
done to the arena in it. -/
structure Within (s s' : Standing) : Prop extends SameTurn s s' where
  spared : s'.Askable → s.Askable ∧ s'.arena = s.arena

theorem Within.refl (hs : s.started = true) (hl : s.log.limit = .null) : Within s s :=
  ⟨.refl hs hl, fun h => ⟨h, rfl⟩⟩

theorem Within.trans {s'' : Standing} (h : Within s s') (h' : Within s' s'') : Within s s'' where
  started := h'.started
  unlimited := h'.unlimited
  told := h'.told.trans h.told
  current := h'.current.trans h.current
  fixes := h'.fixes.trans h.fixes
  spared ho :=
    have ⟨ho', harena⟩ := h'.spared ho
    ⟨(h.spared ho').1, harena.trans (h.spared ho').2⟩

/-- The same turn goes on, and nothing has been done to the arena in it. -/
structure Untouched (s s' : Standing) : Prop extends SameTurn s s' where
  arena : s'.arena = s.arena

end Standing

namespace Coordinator

open Duel Deed Standing

/-- The count of turns survives whatever players ask. -/
theorem upheld_counted : Upheld Counted where
  asked _ h := ⟨h.unlimited, h.told, h.unstarted, h.current⟩
  struck winner reason _ h :=
    have hheard : (Standing.hear _ (.matchEnded winner winner.other reason)).Counted := h.hear rfl
    ⟨hheard.unlimited, hheard.told, hheard.unstarted, hheard.current⟩
  finished h := ⟨h.unlimited, h.told, h.unstarted, h.current⟩
  opening hs h := h.opening hs

theorem worldly_counted : Worldly Counted where
  arena _ h := ⟨h.unlimited, h.told, h.unstarted, h.current⟩
  shot result h := h.hear (n := .shot result) rfl

theorem enacted_counted (p : Player) : Enacted p Counted where
  fire cell h := worldly_counted.fire _ cell h
  moved _ h := h.hear rfl
  gather _ _ h := (worldly_counted.arena _ h).hear rfl

variable {M : Type} {l : Listener M} {c : Coordinator M}

/-- What a task's step makes by itself keeps the count. -/
theorem counted_next (h : Still c.duel) (hc : c.duel.standing.Counted) :
    c.duel.next.Counted := by
  cases h.due with
  | @act _ _ a _ _ hs hr hl hbusy hp hplayer hnext =>
    rw [hnext]
    exact worldly_counted.arena _ hc
  | finish hs hr hl hbusy hp hidle hnext =>
    rw [hnext]
    exact (worldly_counted.arena _ hc).pass hs
  | expire hs hr hl hlast hask hidle hnext =>
    rw [hnext]
    exact hc.pass hs
  | stay hnext hover =>
    rw [hnext]
    exact hc

theorem counted_happen (h : Still c.duel) (hc : c.duel.standing.Counted) (x : Happening) :
    (c.happen l x).duel.standing.Counted := by
  refine (upholds_any l upheld_counted worldly_counted).happen (fun _ => upheld_counted) h
    (fun _ p _ _ => enacted_counted p) ?_
  cases x with
  | request r => exact worldly_counted.asked hc r
  | step => exact counted_next h hc
  | _ => exact hc

theorem counted_after (h : Still c.duel) (hc : c.duel.standing.Counted) (hs : List Happening) :
    Still (c.after l hs).duel ∧ (c.after l hs).duel.standing.Counted := by
  induction hs generalizing c with
  | nil => exact ⟨h, hc⟩
  | cons x hs ih => exact ih (still_happen h x) (counted_happen h hc x)

/-! ## What passes a turn on -/

theorem upheld_sameTurn (s : Standing) : Upheld (SameTurn s) where
  asked _ h := ⟨h.started, h.unlimited, h.told, h.current, h.fixes⟩
  struck winner reason _ h :=
    have hheard := h.hear (n := .matchEnded winner winner.other reason) rfl
    ⟨hheard.started, hheard.unlimited, hheard.told, hheard.current, hheard.fixes⟩
  finished h := ⟨h.started, h.unlimited, h.told, h.current, h.fixes⟩
  opening hs h := by cases hs.symm.trans h.started

theorem upheld_within (s : Standing) : Upheld (Within s) where
  asked hf h := ⟨(upheld_sameTurn s).asked hf h.toSameTurn, fun ho => h.spared (hf h.started ho)⟩
  struck winner reason ho h :=
    ⟨(upheld_sameTurn s).struck winner reason ho h.toSameTurn,
      fun ha => absurd ha (not_askable_over rfl)⟩
  finished h := ⟨(upheld_sameTurn s).finished h.toSameTurn, h.spared⟩
  opening hs h := by cases hs.symm.trans h.started

theorem upheld_untouched (s : Standing) : Upheld (Untouched s) where
  asked hf h := ⟨(upheld_sameTurn s).asked hf h.toSameTurn, h.arena⟩
  struck winner reason ho h :=
    ⟨(upheld_sameTurn s).struck winner reason ho h.toSameTurn, h.arena⟩
  finished h := ⟨(upheld_sameTurn s).finished h.toSameTurn, h.arena⟩
  opening hs h := by cases hs.symm.trans h.started

theorem enacted_busy (s : Standing) (p : Player) :
    Enacted p fun s' => SameTurn s s' ∧ s'.Busy where
  fire cell h := by
    have harena := h.1.setArena ((Arena.shootAt_frame _ p cell).2.1)
    rcases Standing.fire_cases _ p cell with ⟨fault, -, heq⟩ | ⟨result, -, heq⟩
    · exact heq ▸ ⟨harena, h.2⟩
    · exact heq ▸ ⟨harena.hear rfl, h.2⟩
  moved _ h := ⟨h.1.hear rfl, h.2⟩
  gather _ _ h := ⟨(h.1.setArena ((Arena.keptBy_fixes p _).pickUp rfl)).hear rfl, h.2⟩

/-- What one thing that happens makes of a turn: it goes on, or a run of the player to move ends it,
or their time does. -/
inductive Passage (l : Listener M) (c : Coordinator M) (x : Happening) : Prop where
  | within (hw : Within c.duel.standing (c.happen l x).duel.standing)
      (hruns : ∀ q, completions q (c.happen l x).duel.deeds = completions q c.duel.deeds)
  | completed (hx : x = .step)
      (hp : Untouched (c.duel.standing.endTurn c.duel.current) (c.happen l x).duel.standing)
      (hruns : Completes c.duel.current c.duel (c.happen l x).duel)
  | expired (hx : x = .step) (hask : c.duel.standing.Askable)
      (htimer : ∃ t ready, c.duel.schedule.ready = t :: ready ∧ t ∈ c.duel.pendingTimers ∧
        t.job.isLastTick = true)
      (hp : Untouched (c.duel.standing.pass c.duel.current) (c.happen l x).duel.standing)
      (hruns : ∀ q, completions q (c.happen l x).duel.deeds = completions q c.duel.deeds)

theorem passage_request {seen : M → List Duel} (hl : Fair seen l) (hs : c.duel.started = true)
    (hlog : c.duel.log.limit = .null) {r : Request} (hr : r.actsOnWorld = false) :
    Passage l c (.request r) := by
  have hP := upheld_within c.duel.standing
  refine .within ?_ fun q => (moves_request l r c).unclosed.count q
  refine (upholds_fair hl hP).handle (tells_tell l) (fun _ => hP) ?_
  rw [asked_peaceful _ hr]
  exact .refl hs hlog

theorem passage_step {seen : M → List Duel} (hl : Fair seen l) (h : Still c.duel)
    (hs : c.duel.started = true) (hlog : c.duel.log.limit = .null) : Passage l c .step := by
  have hruns (hno : ∀ t ready p executed, c.duel.schedule.ready = t :: ready →
      t.cancelled = false → c.duel.program? t.job = some (p, [], executed) → c.duel.phase = .over)
      (q : Player) : completions q (c.happen l .step).duel.deeds = completions q c.duel.deeds := by
    unfold happen
    cases hstep : c.step? l.tell with
    | none => rfl
    | some c' => exact ((stepped_step? (tells_tell l) hstep).unclosed hno).count q
  cases h.due with
  | @act t ready a later executed hs hr hc hbusy hp hplayer hnext =>
    have hP := (upheld_sameTurn c.duel.standing).busy
    have hacted : SameTurn c.duel.standing c.duel.next ∧ c.duel.next.Busy := by
      rw [hnext]
      exact ⟨(SameTurn.refl hs hlog).setArena (Arena.fixes_attempt _ _ _), hs,
        not_askable_executing hbusy⟩
    have hdone := (upholds_fair hl hP).step (fun _ => hP) h (fun p _ _ => enacted_busy _ p) hacted
    refine .within ⟨hdone.1, fun ha => absurd ha hdone.2.2⟩ (hruns ?_)
    intro t' ready' p executed' hr' _ hp'
    cases hr.symm.trans hr'
    cases hp.symm.trans hp'
  | @finish t ready executed hs hr hc hbusy hp hidle hnext =>
    have hP := upheld_untouched (c.duel.standing.endTurn c.duel.current)
    refine .completed rfl ((upholds_fair hl hP).step (fun _ => hP) h
      (fun p ha => absurd ha (hidle p)) ?_) ?_
    · rw [hnext]
      exact ⟨.refl hs hlog, rfl⟩
    · have hj : t.job ≠ .caller := fun hj => by simp [hj, program?] at hp
      exact h.completes hs (stepped_happen l c hr hj) hr hc hp (by simp [hbusy])
  | @expire t ready hs hr hc hlast hask hidle hnext =>
    have htimer : t.job.isTimer = true := by
      cases hj : t.job <;> first | rfl | simp [hj, Job.isLastTick] at hlast
    have hnone : c.duel.program? t.job = none := program?_timer htimer
    have hP := upheld_untouched (c.duel.standing.pass c.duel.current)
    refine .expired rfl hask ⟨t, ready, hr, ?_, hlast⟩ ((upholds_fair hl hP).step (fun _ => hP) h
      (fun p ha => absurd ha (hidle p)) ?_) (hruns ?_)
    · exact mem_pendingTimers.mpr ⟨tasks_of_ready hr, htimer, hc⟩
    · rw [hnext]
      exact ⟨.refl hs hlog, rfl⟩
    · intro t' ready' p executed' hr' _ hp'
      cases hr.symm.trans hr'
      cases hnone.symm.trans hp'
  | stay hnext hover =>
    have hP := upheld_within c.duel.standing
    have hidle : ∀ p, ¬ c.duel.Acting p :=
      not_acting fun t ready p a later => hover t ready p (a :: later)
    refine .within ((upholds_fair hl hP).step (fun _ => hP) h
      (fun p ha => absurd ha (hidle p)) ?_) (hruns ?_)
    · rw [hnext]
      exact .refl hs hlog
    · exact fun t ready p executed => hover t ready p [] executed

theorem passage_happen {seen : M → List Duel} (hl : Fair seen l) (h : Still c.duel)
    (hs : c.duel.started = true) (hlog : c.duel.log.limit = .null) (x : Happening)
    (hx : ∀ r, x = .request r → r.actsOnWorld = false) : Passage l c x := by
  cases x with
  | request r => exact passage_request hl hs hlog (hx r rfl)
  | step => exact passage_step hl h hs hlog
  | wake =>
    refine .within ?_ ?_
    all_goals
      unfold happen wake?
      cases c.duel.schedule.wake?
    · exact .refl hs hlog
    · exact .refl hs hlog
    · exact fun _ => rfl
    · exact fun _ => rfl
  | clock now => exact .within (.refl hs hlog) fun _ => rfl

/-- As long as no other turn is told, the turn goes on. -/
theorem within_after {seen : M → List Duel} (hl : Fair seen l) (h : Still c.duel)
    (hc : c.duel.standing.Counted) (hs : c.duel.started = true) (between : List Happening)
    (hx : ∀ r, .request r ∈ between → r.actsOnWorld = false) :
    Within c.duel.standing (c.after l between).duel.standing ∧
        (∀ q, completions q (c.after l between).duel.deeds = completions q c.duel.deeds) ∨
      c.duel.told.length < (c.after l between).duel.told.length := by
  -- from the back, so that the last thing that happens is looked at after a turn that went on
  induction between using List.reverseRecOn with
  | nil => exact Or.inl ⟨.refl hs hc.unlimited, fun _ => rfl⟩
  | append_singleton between x ih =>
    have ih := ih fun r hr => hx r (List.mem_append_left _ hr)
    let e := c.after l between
    obtain ⟨hstill, hcounted⟩ : Still e.duel ∧ e.duel.standing.Counted :=
      counted_after h hc between
    have hstarted : e.duel.started = true :=
      after_keeps (P := fun d => d.started = true) Goes.started l c between hs
    have hlast : c.after l (between ++ [x]) = e.happen l x := after_append l c between [x]
    have hpassage : Passage l e x :=
      passage_happen hl hstill hstarted hcounted.unlimited x fun r hr =>
        hx r (List.mem_append_right _ (List.mem_singleton.mpr hr.symm))
    have hgrows {n : Standing} {p : Player} (hp : Untouched n (e.happen l x).duel.standing)
        (hn : n.told = e.duel.told ++ [p]) :
        e.duel.told.length < (e.happen l x).duel.told.length := by
      have htold : (e.happen l x).duel.told = e.duel.told ++ [p] := hp.told.trans hn
      rw [htold]
      simp
    have hfrom : c.duel.told.length ≤ e.duel.told.length := by
      rcases ih with ⟨hw, -⟩ | hlonger
      · exact Nat.le_of_eq (congrArg List.length hw.told).symm
      · exact Nat.le_of_lt hlonger
    rw [hlast]
    cases hpassage with
    | within hw hruns =>
      rcases ih with ⟨hw', hruns'⟩ | hlonger
      · exact Or.inl ⟨hw'.trans hw, fun q => (hruns q).trans (hruns' q)⟩
      · have htold : (e.happen l x).duel.told = e.duel.told := hw.told
        rw [htold]
        exact Or.inr hlonger
    | completed _ hp _ =>
      exact Or.inr (Nat.lt_of_le_of_lt hfrom (hgrows hp (told_hear hcounted.unlimited _)))
    | expired _ _ _ hp _ =>
      exact Or.inr (Nat.lt_of_le_of_lt hfrom (hgrows hp (told_hear hcounted.unlimited _)))

theorem runEnded_of_untouched {d e e' : Duel} (hw : Within d.standing e.standing)
    (hruns : ∀ q, completions q e.deeds = completions q d.deeds)
    (hp : Untouched (e.standing.endTurn e.current) e'.standing) (hc : Completes e.current e e') :
    RunEnded d e' := by
  have hcurrent : e.current = d.current := hw.current
  have hfixes : e.arena.fixes = d.arena.fixes := hw.fixes
  have harena : e'.arena = ((e.arena.endTurn e.current).promote e.current.other).value := hp.arena
  rw [hcurrent] at hc harena
  refine ⟨hc.own.trans (congrArg (· + 1) (hruns _)), ?_, ?_⟩
  · exact (hc.other _ (Player.other_ne _)).trans (hruns _)
  · have hfix : (e'.arena.combatant d.current).fix = (e.arena.combatant d.current).fix := by
      rw [harena, (Arena.sameFixes_promote _ _).fix, Arena.endTurn_fix]
    rw [hfix, ← hfixes, harena]
    rfl

theorem timedOut_of_untouched {d e e' : Duel} (hw : Within d.standing e.standing)
    (hruns : ∀ q, completions q e.deeds = completions q d.deeds) (ht : Timely e)
    (hask : e.standing.Askable)
    (htimer : ∃ t ready, e.schedule.ready = t :: ready ∧ t ∈ e.pendingTimers ∧
        t.job.isLastTick = true)
    (hp : Untouched (e.standing.pass e.current) e'.standing)
    (hruns' : ∀ q, completions q e'.deeds = completions q e.deeds) : TimedOut d e e' := by
  obtain ⟨t, ready, hr, hpending, hlast⟩ := htimer
  have harena : e.arena = d.arena := (hw.spared hask).2
  have hpass : e'.arena = (d.arena.promote e.current.other).value := harena ▸ hp.arena
  have hbodies := Arena.sameBodies_promote d.arena e.current.other
  refine ⟨⟨t, ready, hr, hpending, hlast, ht.current t hpending⟩,
    fun q => (hruns' q).trans (hruns q), ?_, ?_, ?_, ?_⟩
  all_goals rw [hpass]
  · rfl
  · rfl
  · exact hbodies.fix
  · exact hbodies.health

/-- Turns are accounted for. After every history, with any listener, the players were told in turn
whose move it is, nobody before the start and one more than there were turns passed on since. From
any moment of a turn up to the next one that is told, if nobody acts on the world but the actions of
scripts, either one run came to its end, of the player who was to move, and added one fix to what
the radar knows, of that player; or the timer of that turn ran out, and positions, facings, health,
fixes and the grid stayed as they were. -/
theorem turns_accounted (l : Listener M) (arena : Arena) (timing : Timing) (scripts : Duo Json)
    (memory : M) :
    let c₀ := fresh arena timing scripts memory
    (∀ hs, let d := (c₀.after l hs).duel
      d.told = (List.range (if d.started then d.turnNumber + 1 else 0)).map Player.ofTurn ∧
        (d.current = .a ↔ d.turnNumber % 2 = 0)) ∧
    ∀ (seen : M → List Duel), Fair seen l → ∀ before between x,
      (∀ r, .request r ∈ between ++ [x] → r.actsOnWorld = false) →
        let c := c₀.after l before
        let e := c.after l between
        let d := e.happen l x
        c.duel.told ≠ [] → e.duel.told = c.duel.told → d.duel.told ≠ e.duel.told →
          d.duel.told = c.duel.told ++ [c.duel.current.other] ∧ x = .step ∧
            (RunEnded c.duel d.duel ∨ TimedOut c.duel e.duel d.duel) := by
  intro c₀
  have hfresh : Still c₀.duel := still_fresh arena timing scripts
  have hcounted : c₀.duel.standing.Counted := ⟨rfl, rfl, fun _ => rfl, rfl⟩
  refine ⟨fun hs => ?_, ?_⟩
  · have hc := (counted_after (l := l) hfresh hcounted hs).2
    have hcurrent : (c₀.after l hs).duel.current = Player.ofTurn _ := hc.current
    exact ⟨hc.told, by rw [hcurrent]; exact Player.ofTurn_eq_a⟩
  · intro seen hl before between x hx c e d htold hsame hnext
    obtain ⟨hstill, hc⟩ := counted_after (l := l) hfresh hcounted before
    obtain ⟨hstill', hc'⟩ := counted_after (l := l) hstill hc between
    obtain ⟨-, htimely⟩ : Resting e.duel ∧ Timely e.duel := by
      have hboth := after_keeps (P := fun d => Resting d ∧ Timely d)
        (fun hg h => ⟨h.1.goes hg, h.2.goes h.1 hg⟩) l c₀ (before ++ between)
        ⟨resting_fresh arena timing scripts, timely_fresh arena timing scripts⟩
      rwa [after_append] at hboth
    have hs : c.duel.started = true := by
      by_contra hs
      have hnone : c.duel.standing.started = false := Bool.eq_false_iff.mpr hs
      have hempty := hc.told
      rw [show (c₀.after l before).duel.standing.started = false from hnone] at hempty
      exact htold hempty
    obtain ⟨hw, hruns⟩ := (within_after hl hstill hc hs between fun r hr =>
      hx r (List.mem_append_left _ hr)).resolve_right fun hlonger =>
        Nat.lt_irrefl _ (hsame ▸ hlonger)
    have hpassage : Passage l e x := passage_happen hl hstill' hw.started hc'.unlimited x
      fun r hr => hx r (List.mem_append_right _ (List.mem_singleton.mpr hr.symm))
    have hcurrent : e.duel.current = c.duel.current := hw.current
    have hturn {n : Standing} (hp : Untouched n d.duel.standing)
        (hn : n.told = e.duel.told ++ [e.duel.current.other]) :
        d.duel.told = c.duel.told ++ [c.duel.current.other] := by
      rw [← hsame, ← hcurrent]
      exact hp.told.trans hn
    cases hpassage with
    | within hw' _ => exact absurd hw'.told hnext
    | completed hstep hp hruns' =>
      refine ⟨hturn hp (told_hear hc'.unlimited _), hstep, Or.inl ?_⟩
      exact runEnded_of_untouched hw hruns hp hruns'
    | expired hstep hask htimer hp hruns' =>
      refine ⟨hturn hp (told_hear hc'.unlimited _), hstep, Or.inr ?_⟩
      exact timedOut_of_untouched hw hruns htimely hask htimer hp hruns'

/-- The first turn of a match on the open field, which its player either plays or lets pass. -/
theorem first_turn_accounted :
    let timing : Timing := { editLimit := .real 1, tick := .real 1 }
    let c := (fresh openField timing ⟨.text "MoveRight()", .null⟩ ()).after .silent
      [.request .start]
    let e := c.after .silent [.request (.execute .a), .step, .step, .wake]
    let e' := c.after .silent [.step, .wake]
    let d := e.happen .silent .step
    let d' := e'.happen .silent .step
    d.duel.told = [.a, .b] ∧ RunEnded c.duel d.duel ∧
      d'.duel.told = [.a, .b] ∧ TimedOut c.duel e'.duel d'.duel := by
  intro timing c e e' d d'
  have hfair : Fair (fun _ : Unit => []) .silent := fun _ _ _ => trivial
  obtain ⟨-, hbetween⟩ :=
    turns_accounted .silent openField timing ⟨.text "MoveRight()", .null⟩ ()
  have hasked (r : Request) (hr : .request r ∈ [.request (.execute .a), .step, .step, .wake] ++
      [Happening.step]) : r.actsOnWorld = false := by
    obtain rfl : r = .execute .a := by simpa using hr
    rfl
  obtain ⟨htold, -, hends⟩ := hbetween _ hfair [.request .start]
    [.request (.execute .a), .step, .step, .wake] .step hasked (by decide +kernel)
    (by decide +kernel) (by decide +kernel)
  obtain ⟨htold', -, hends'⟩ := hbetween _ hfair [.request .start] [.step, .wake] .step
    (by simp) (by decide +kernel) (by decide +kernel) (by decide +kernel)
  refine ⟨htold, hends.resolve_right fun h => ?_, htold', hends'.resolve_left fun h => ?_⟩
  · exact absurd (h.runs .a) (by decide +kernel)
  · exact absurd h.own (by decide +kernel)

end Coordinator

end Turn

end MazeDuel
