import MazeDuel.Proofs.Turn.Heard
import MazeDuel.Proofs.Turn.OrderSteps
import MazeDuel.Proofs.Turn.Rules
/-!
What the steps of a run mean when its listener asks nothing: an action, and the end of a turn, make
of how the match stands what the rules say, and leave the tasks of the match alone.
-/

namespace MazeDuel.Turn

namespace Duel

/-- What an action changes when nobody interferes: the world, the log and the journal, and the
verdict when it ends the match. -/
inductive Acts (d : Duel) : Duel → Prop where
  | going (arena : Arena) (log : EventLog Notification) (journal : List Record) :
      Acts d { d with arena, log, journal }
  | ended (arena : Arena) (log : EventLog Notification) (journal : List Record) (winner : Player)
      (result : GameResult) :
      Acts d { d with
        arena, log, journal, result
        phase := .over, remaining := .real 0, continuous := false, winner := some winner
        finished := true }

theorem Acts.refl (d : Duel) : Acts d d := .going d.arena d.log d.journal

variable {d d' : Duel}

theorem Acts.tasks (h : Acts d d') : d'.schedule = d.schedule ∧ d'.timer = d.timer ∧
    d'.running = d.running ∧ d'.awaited = d.awaited ∧ d'.outcomes = d.outcomes ∧
    d'.deeds = d.deeds ∧ d'.scripts = d.scripts ∧ d'.timing = d.timing ∧
      d'.started = d.started := by
  cases h <;> exact ⟨rfl, rfl, rfl, rfl, rfl, rfl, rfl, rfl, rfl⟩

/-- An action that does not end the match changes nothing beside the world and the log. -/
theorem Acts.cases (h : Acts d d') : d'.phase = d.phase ∧ d'.continuous = d.continuous ∨
    d'.phase = .over ∧ d'.continuous = false := by
  cases h with
  | going => exact Or.inl ⟨rfl, rfl⟩
  | ended => exact Or.inr ⟨rfl, rfl⟩

/-- After changes of the world, the log and the journal an action goes on. -/
theorem Acts.after {arena : Arena} {log : EventLog Notification} {journal : List Record}
    (h : Acts { d with arena, log, journal } d') : Acts d d' := by
  cases h with
  | going arena log journal => exact .going arena log journal
  | ended arena log journal winner result => exact .ended arena log journal winner result

/-- The match when its turn has passed on, with what the end of the turn has left. -/
def handed (d : Duel) (last : Option ExecutionResult) (deeds : List Deed) (arena : Arena)
    (log : EventLog Notification) (journal : List Record) : Duel :=
  { d with
    arena, log, journal, deeds, lastExecution := last
    phase := .idle, current := d.current.other, turnNumber := d.turnNumber + 1 }

theorem Acts.record (h : Acts d d') (r : Record) : Acts d (d'.record r) := by
  cases h with
  | going arena log journal => exact .going arena log (r :: journal)
  | ended arena log journal winner result =>
    exact .ended arena log (r :: journal) winner result

/-! ## What is no part of how a match stands -/

/-- Of how a match stands only the phase may differ, and not by whether it is over. -/
structure Aside (d d' : Duel) : Prop where
  standing : d'.standing = { d.standing with phase := d'.phase }
  ended : d'.phase = .over ↔ d.phase = .over

theorem Aside.refl (d : Duel) : Aside d d := ⟨rfl, Iff.rfl⟩

theorem Aside.trans {d'' : Duel} (h : Aside d d') (h' : Aside d' d'') : Aside d d'' := by
  refine ⟨?_, h'.ended.trans h.ended⟩
  rw [h'.standing, h.standing]

theorem Aside.keeps (h : Aside d d') {P : Arena → Prop} (ha : P d.arena) : P d'.arena := by
  have harena : d'.arena = d.arena := congrArg Standing.arena h.standing
  exact harena ▸ ha

/-- The fields that say nothing of how a match stands may be anything. -/
theorem aside_beside {scripts : Duo Json} {continuous : Bool} {remaining : Quantity}
    {timer execution : Option Nat} {last : Option ExecutionResult} {schedule : Schedule Job}
    {running awaited : Option Nat} {outcomes : List (Nat × Outcome)} {journal : List Record}
    {deeds : List Deed} :
    Aside d { d with
      scripts, continuous, remaining, timer, execution, lastExecution := last, schedule, running,
      awaited, outcomes, journal, deeds } :=
  ⟨rfl, Iff.rfl⟩

theorem aside_fire (d : Duel) {e : TurnEvent} (he : e ≠ .endMatch) : Aside d (d.fire e).2 := by
  rcases d.fire_cases e with ⟨-, m, hf⟩ | ⟨phase, m, hn, hf⟩
  · rw [hf]
    exact aside_beside
  · rw [hf]
    obtain ⟨hp, hp'⟩ := Phase.next?_ne_over hn he
    exact ⟨rfl, iff_of_false hp' hp⟩

theorem aside_setScript (d : Duel) (p : Player) (script : Json) :
    Aside d (d.setScript p script).2 := by
  unfold setScript
  rcases d.accepts_cases p "set_script" with ⟨h, -, -⟩ | ⟨message, h⟩
  · rw [h]
    dsimp only
    split
    · exact aside_beside
    · split <;> exact aside_beside
  · rw [h]
    exact aside_beside

theorem aside_beginEditing (d : Duel) (p : Player) : Aside d (d.beginEditing p).2 := by
  unfold beginEditing
  rcases d.accepts_cases p "begin_editing" with ⟨h, -, -⟩ | ⟨message, h⟩
  · rw [h]
    exact d.aside_fire nofun
  · rw [h]
    exact aside_beside

theorem aside_execute (d : Duel) (p : Player) : Aside d (d.execute p).2 := by
  unfold execute
  split
  · exact aside_beside
  · rcases d.accepts_cases p "request_execute" with ⟨h, -, -⟩ | ⟨message, h⟩
    · rw [h]
      have hfire := d.aside_fire (e := .execute) nofun
      dsimp only
      split
      · rename_i hf
        rwa [hf] at hfire
      · rename_i hf
        rw [hf] at hfire
        exact hfire.trans aside_beside
    · rw [h]
      exact aside_beside

theorem aside_autoExecute (d : Duel) : Aside d d.autoExecute := by
  unfold autoExecute
  split
  · exact d.aside_execute _
  · exact .refl d

theorem aside_endEditing (d : Duel) (p : Player) : Aside d (d.endEditing p).2 := by
  unfold endEditing
  rcases d.accepts_cases p "end_editing" with ⟨h, -, -⟩ | ⟨message, h⟩
  · rw [h]
    have hfire := d.aside_fire (e := .endEdit) nofun
    dsimp only
    split
    · rename_i hf
      rwa [hf] at hfire
    · rename_i hf
      rw [hf] at hfire
      exact hfire.trans (aside_autoExecute _)
  · rw [h]
    exact aside_beside

theorem aside_setContinuous (d : Duel) (on : Bool) : Aside d (d.setContinuous on) := by
  unfold setContinuous
  split
  · exact aside_beside
  · exact aside_beside.trans (aside_autoExecute _)

theorem aside_startTimer (d : Duel) : Aside d d.startTimer := ⟨rfl, Iff.rfl⟩

theorem aside_beginTurn (d : Duel) : Aside d d.beginTurn := by
  unfold beginTurn
  split
  · exact .refl d
  · exact d.aside_startTimer.trans (aside_autoExecute _)

theorem aside_endTask (d : Duel) (id : Nat) (outcome : Outcome) :
    Aside d (d.endTask id outcome) := by
  obtain ⟨schedule, awaited, heq⟩ := endTask_eq d id outcome
  rw [heq]
  exact aside_beside

theorem aside_rest (d : Duel) (id : Nat) (job : Job) (delay : Quantity) :
    Aside d (d.rest id job delay) := by
  obtain ⟨schedule, awaited, outcomes, heq⟩ := d.rest_beside id job delay
  rw [heq]
  exact aside_beside

end Duel

namespace Coordinator

open Duel

variable {M : Type} {tell : Notification → Coordinator M → Coordinator M} {c : Coordinator M}

/-- Telling that changes nothing but the log. -/
def Passive (tell : Notification → Coordinator M → Coordinator M) : Prop :=
  ∀ n c, (tell n c).duel = (c.logEvent n).duel

/-- A listener that asks nothing changes nothing. -/
theorem passive_tell {l : Listener M} {seen : M → List Duel} (hl : Mute seen l) :
    Passive l.tell := by
  have hdepth (depth : Nat) : Passive (l.tellAt depth) := by
    intro n c
    cases depth with
    | zero => rfl
    | succ depth =>
      refine (hl n _ _).keeps (c := c.logEvent n) (P := fun x => x.duel = (c.logEvent n).duel)
        (fun x m _ h => h) (fun x r hr _ => hr.elim) rfl
  exact hdepth l.depth

/-! ## Actions -/

theorem struck_eq {d : Duel} (hn : d.timer = none) (winner : Player) (reason : GameResult)
    (journal : List Record) : d.struck winner reason journal = { d with
      journal, log := d.log.record (.matchEnded winner winner.other reason), phase := .over
      remaining := .real 0, continuous := false, winner := some winner, result := reason } := by
  simp [struck, Duel.ended, cancelTimer, hn]

theorem acts_endMatch (ht : Passive tell) (hp : c.duel.phase ≠ .over) (hn : c.duel.timer = none)
    (winner : Player) (reason : GameResult) :
    Acts c.duel (c.endMatch tell winner reason).duel ∧
      (c.endMatch tell winner reason).duel.standing = c.duel.standing.finish winner reason := by
  have hend : ∃ journal, (c.endMatch tell winner reason).duel =
      { c.duel.struck winner reason journal with finished := true } := by
    unfold endMatch
    rcases c.duel.fire_cases .endMatch with ⟨hnone, -⟩ | ⟨phase, m, hphase, hf⟩
    · cases hd : c.duel.phase <;> simp_all [Phase.next?]
    · obtain ⟨-, rfl⟩ := Phase.next?_endMatch hphase
      simp only [onDuel, hf]
      apply Exists.intro
      show { (tell _ _).duel with finished := true } = _
      rw [ht]
      rfl
  obtain ⟨journal, heq⟩ := hend
  rw [heq, struck_eq hn]
  exact ⟨.ended c.duel.arena _ journal winner reason, rfl⟩

/-- What lies on a new place is picked up and told, and the exit ends the match. -/
theorem acts_arrive (ht : Passive tell) (hp : c.duel.phase ≠ .over) (hn : c.duel.timer = none)
    (p : Player) (c' : Coordinator M)
    (hc : c' = match (c.duel.arena.pickUp p).value.1 with
      | some powerup => tell (.powerupCollected p powerup) (c.onDuel (·.onArena (·.pickUp p))).2
      | none => (c.onDuel (·.onArena (·.pickUp p))).2) :
    Acts c.duel (if c'.duel.arena.atExit p then c'.reportExited tell p else c').duel ∧
      (if c'.duel.arena.atExit p then c'.reportExited tell p else c').duel.standing =
        c.duel.standing.arrive p := by
  have hgoes : ∃ log journal, c'.duel =
        { c.duel with arena := (c.duel.arena.pickUp p).value.2, log, journal } ∧
      c'.duel.standing = match (c.duel.arena.pickUp p).value.1 with
        | some powerup => { c.duel.standing with
            arena := (c.duel.arena.pickUp p).value.2 }.hear (.powerupCollected p powerup)
        | none => { c.duel.standing with arena := (c.duel.arena.pickUp p).value.2 } := by
    subst hc
    split
    · rw [ht]
      exact ⟨_, _, rfl, rfl⟩
    · exact ⟨_, _, rfl, rfl⟩
  obtain ⟨log, journal, heq, hstanding⟩ := hgoes
  have harrive : c.duel.standing.arrive p =
      if c'.duel.arena.atExit p then c'.duel.standing.finish p .exitReached
      else c'.duel.standing := by
    rw [hstanding]
    unfold Standing.arrive
    rw [heq]
    dsimp only [Duel.standing]
    cases (c.duel.arena.pickUp p).value.1 <;> rfl
  rw [harrive]
  split
  · have hend := acts_endMatch (c := c') ht (by rw [heq]; exact hp) (by rw [heq]; exact hn) p
      .exitReached
    have hacts := hend.1
    rw [heq] at hacts
    exact ⟨hacts.after, hend.2⟩
  · rw [heq]
    exact ⟨.going _ log journal, rfl⟩

theorem acts_onMoved (ht : Passive tell) (hp : c.duel.phase ≠ .over) (hn : c.duel.timer = none)
    (p : Player) (before : Fix) :
    Acts c.duel (c.onMoved tell p before).duel ∧
      (c.onMoved tell p before).duel.standing = c.duel.standing.moved p before := by
  have hheard : (tell (.positionMoved p before) c).duel =
      (c.logEvent (.positionMoved p before)).duel := ht _ c
  unfold onMoved Standing.moved
  dsimp only
  generalize tell (.positionMoved p before) c = x at hheard ⊢
  obtain ⟨d, m⟩ := x
  obtain rfl : d = (c.logEvent (.positionMoved p before)).duel := hheard
  split
  · rename_i h
    exact ⟨.going _ _ _, (if_pos h).symm⟩
  · rename_i h
    have hstep := acts_arrive (c := ⟨(c.logEvent (.positionMoved p before)).duel, m⟩) ht hp hn p
      _ rfl
    exact ⟨hstep.1.after, hstep.2.trans (if_neg h).symm⟩

theorem shot_result {a : Arena} (ha : a.Proper) {p : Player} {cell : Place} {result : ShotResult}
    (h : (a.shootAt p cell).value.1 = .ok result) :
    result.target = p.other ∧
      result.targetHealth = ((a.shootAt p cell).value.2.opponent p).health ∧
      result.targetDefeated = ((a.shootAt p cell).value.2.opponent p).defeated := by
  obtain ⟨x, target, heq, hresolved⟩ := a.shootAt_eq p cell
  rw [heq] at h ⊢
  obtain rfl : x = .ok result := h
  cases hresolved with
  | told =>
    let after := Shot.targetAfter a.damage (a.opponent p) cell
    have hget : after = (a.setCombatant p.other after).opponent p :=
      (a.combatants.get_set_self p.other after).symm
    exact ⟨ha.owner p.other, congrArg Combatant.health hget, congrArg Combatant.defeated hget⟩

theorem acts_shootAt (ht : Passive tell) (hp : c.duel.phase ≠ .over) (hn : c.duel.timer = none)
    (ha : c.duel.arena.Proper) (p : Player) (cell : Place) :
    Acts c.duel (c.shootAt tell p cell).2.duel ∧
      ((c.shootAt tell p cell).1.map fun _ => (), (c.shootAt tell p cell).2.duel.standing) =
        c.duel.standing.shootAt p cell := by
  let fired := (c.onDuel (·.onArena (·.shootAt p cell))).2
  rcases c.shootAt_cases tell p cell with ⟨fault, hfault, heq⟩ | ⟨result, hresult, heq⟩
  · rw [heq, Standing.shootAt_error (s := c.duel.standing) hfault]
    exact ⟨.going _ _ _, rfl⟩
  · obtain ⟨htarget, -, hdefeated⟩ := shot_result ha hresult
    have hheard := ht (.shot result) fired
    rw [heq, Standing.shootAt_ok (s := c.duel.standing) hresult, htarget, hdefeated]
    dsimp only [Except.map]
    generalize tell (.shot result) _ = x at hheard ⊢
    obtain ⟨d, m⟩ := x
    obtain rfl : d = (fired.logEvent (.shot result)).duel := hheard
    split
    · next h =>
      have hend := acts_endMatch (c := ⟨(fired.logEvent (.shot result)).duel, m⟩) ht hp hn p
        .defeated
      unfold reportLost
      rw [Player.other_other]
      exact ⟨Acts.after (d := c.duel) hend.1,
        congrArg (Prod.mk _) (hend.2.trans (if_pos h).symm)⟩
    · next h => exact ⟨.going _ _ _, congrArg (Prod.mk _) (if_neg h).symm⟩

/-- An action that does not fail is followed by what comes of a move, if its player has moved or
turned. -/
theorem carryOut_cases (tell : Notification → Coordinator M → Coordinator M)
    (c : Coordinator M) (p : Player) (a : Action) :
    ∃ r r', let before := (c.duel.arena.combatant p).fix
      let invoked := Execution.invoke (surroundings tell) (c.update (·.record r)) a
      let after := (invoked.2.duel.arena.combatant p).fix
      (∃ fault, invoked.1 = .error fault ∧ c.carryOut tell p a = (.error fault, invoked.2)) ∨
        invoked.1 = .ok () ∧ after.same before = true ∧
          c.carryOut tell p a = (.ok (), invoked.2.update (·.record r')) ∨
        invoked.1 = .ok () ∧ ¬ after.same before = true ∧
          c.carryOut tell p a =
            (.ok (), (invoked.2.update (·.record r')).onMoved tell p before) := by
  let before := (c.duel.arena.combatant p).fix
  let r := Execution.beforeRecord p a before
  let invoked := Execution.invoke (surroundings tell) (c.update (·.record r)) a
  let after := (invoked.2.duel.arena.combatant p).fix
  refine ⟨r, Execution.afterRecord p after, ?_⟩
  rcases Execution.perform_cases (surroundings tell) p c a with
    ⟨fault, hfault, hperform⟩ | ⟨hok, hperform⟩
  · refine .inl ⟨fault, hfault, ?_⟩
    rw [carryOut, hperform]
    rfl
  · have hdone : Execution.perform (surroundings tell) p c a =
        (.ok (if after.same before then none else some before),
          invoked.2.update (·.record (Execution.afterRecord p after))) := hperform
    by_cases hsame : after.same before = true
    · exact .inr (.inl ⟨hok, hsame, by rw [carryOut, hdone, if_pos hsame]⟩)
    · exact .inr (.inr ⟨hok, hsame, by rw [carryOut, hdone, if_neg hsame]⟩)

/-- A player who waits where it can stand has not moved. -/
theorem carryOut_wait (tell : Notification → Coordinator M → Coordinator M) (c : Coordinator M)
    {a : Action} (hcommand : a.command = .wait)
    (hsame : (c.duel.arena.combatant a.player).fix.same (c.duel.arena.combatant a.player).fix =
      true) :
    ∃ r r', c.carryOut tell a.player a =
      (.ok (), (c.update (·.record r)).update (·.record r')) := by
  obtain ⟨r, r', hcases⟩ := carryOut_cases tell c a.player a
  have hinvoke : Execution.invoke (surroundings tell) (c.update (·.record r)) a =
      (.ok (), c.update (·.record r)) := by
    rw [Execution.invoke, hcommand]
  rw [hinvoke] at hcases
  refine ⟨r, r', ?_⟩
  rcases hcases with ⟨fault, hfault, -⟩ | ⟨-, -, heq⟩ | ⟨-, hmoved, -⟩
  · cases hfault
  · exact heq
  · exact absurd hsame hmoved

/-- A move is followed by what comes of it, if it shows. -/
theorem carryOut_move (tell : Notification → Coordinator M → Coordinator M) (c : Coordinator M)
    {a : Action} {dir : MoveDir} (hcommand : a.command = .move dir) :
    ∃ r r', let before := (c.duel.arena.combatant a.player).fix
      let arena := (c.duel.arena.tryMove a.player dir).value.2
      let moved := ((c.update (·.record r)).onDuel (·.onArena (·.tryMove a.player dir))).2.update
        (·.record r')
      (arena.combatant a.player).fix.same before = true ∧
          c.carryOut tell a.player a = (.ok (), moved) ∨
        ¬ (arena.combatant a.player).fix.same before = true ∧
          c.carryOut tell a.player a = (.ok (), moved.onMoved tell a.player before) := by
  obtain ⟨r, r', hcases⟩ := carryOut_cases tell c a.player a
  have hinvoke : Execution.invoke (surroundings tell) (c.update (·.record r)) a =
      (.ok (), ((c.update (·.record r)).onDuel (·.onArena (·.tryMove a.player dir))).2) := by
    rw [Execution.invoke, hcommand]
    rfl
  rw [hinvoke] at hcases
  refine ⟨r, r', ?_⟩
  rcases hcases with ⟨fault, hfault, -⟩ | ⟨-, hsame, heq⟩ | ⟨-, hmoved, heq⟩
  · cases hfault
  · exact .inl ⟨hsame, heq⟩
  · exact .inr ⟨hmoved, heq⟩

theorem acts_carryOut_shoot (ht : Passive tell) (hp : c.duel.phase ≠ .over)
    (hn : c.duel.timer = none) (ha : c.duel.arena.Proper) {a : Action} {modifiers : List Modifier}
    (hcommand : a.command = .shoot modifiers) :
    Acts c.duel (c.carryOut tell a.player a).2.duel ∧
      ((c.carryOut tell a.player a).1, (c.carryOut tell a.player a).2.duel.standing) =
        c.duel.standing.act a.player (.shoot modifiers) := by
  obtain ⟨r, r', hcases⟩ := carryOut_cases tell c a.player a
  let before := (c.duel.arena.combatant a.player).fix
  let found := (c.duel.arena.radarFor a.player).value
  let aiming := ((c.update (·.record r)).onDuel (·.onArena (·.radarFor a.player))).2
  let cell := Execution.target found.1 modifiers
  have haim : found.2.Proper := ha.sameBodies (Arena.sameBodies_radarFor _ _)
  have hshot := acts_shootAt (c := aiming) ht hp hn haim a.player cell
  have hinvoke : Execution.invoke (surroundings tell) (c.update (·.record r)) a =
      ((aiming.shootAt tell a.player cell).1.map fun _ => (),
        (aiming.shootAt tell a.player cell).2) := by
    rw [Execution.invoke, hcommand]
    rfl
  have hstays : ((aiming.shootAt tell a.player cell).2.duel.arena.combatant a.player).fix =
      before := by
    have harena : (aiming.shootAt tell a.player cell).2.duel.arena =
        (found.2.shootAt a.player cell).value.2 :=
      (congrArg (·.2.arena) hshot.2).trans (aiming.duel.standing.arena_shootAt a.player cell)
    rw [harena, (Arena.sameFixes_shootAt found.2 a.player cell).fix]
    exact (Arena.sameFixes_radarFor c.duel.arena a.player).fix a.player
  have hact : c.duel.standing.act a.player (.shoot modifiers) =
      aiming.duel.standing.shootAt a.player cell := rfl
  have hacts : Acts c.duel (aiming.shootAt tell a.player cell).2.duel := Acts.after hshot.1
  rw [hinvoke] at hcases
  rw [hact, ← hshot.2]
  dsimp only at hcases
  rcases hcases with ⟨fault, hfault, heq⟩ | ⟨hok, -, heq⟩ | ⟨-, hmoved, -⟩
  · rw [heq, hfault]
    exact ⟨hacts, rfl⟩
  · rw [heq, hok]
    exact ⟨hacts.record r', rfl⟩
  · have hsame : before.same before = true := ha.grounded.same_fix a.player
    exact absurd (hstays ▸ hsame) hmoved

/-- An action does to the standing of a match what the rules say. -/
theorem acts_carryOut (ht : Passive tell) (hp : c.duel.phase ≠ .over) (hn : c.duel.timer = none)
    (ha : c.duel.arena.Proper) {p : Player} {a : Action} (hplayer : a.player = p) :
    Acts c.duel (c.carryOut tell p a).2.duel ∧
      ((c.carryOut tell p a).1, (c.carryOut tell p a).2.duel.standing) =
        c.duel.standing.act p a.command := by
  subst hplayer
  cases hcommand : a.command with
  | wait =>
    obtain ⟨r, r', heq⟩ := carryOut_wait tell c hcommand (ha.grounded.same_fix a.player)
    rw [heq]
    exact ⟨.going _ _ _, rfl⟩
  | move dir =>
    have hact : c.duel.standing.act a.player (.move dir) =
        (.ok (), c.duel.standing.move a.player dir) := rfl
    obtain ⟨r, r', hcases⟩ := carryOut_move tell c hcommand
    let before := (c.duel.arena.combatant a.player).fix
    let moved := ((c.update (·.record r)).onDuel (·.onArena (·.tryMove a.player dir))).2.update
      (·.record r')
    rw [hact]
    unfold Standing.move
    dsimp only
    rcases hcases with ⟨hsame, heq⟩ | ⟨hmoved, heq⟩
    · rw [heq]
      exact ⟨.going _ _ _, congrArg _ (if_pos hsame).symm⟩
    · have harrived := acts_onMoved (c := moved) ht hp hn a.player before
      rw [heq]
      exact ⟨Acts.after (d := c.duel) harrived.1,
        congrArg _ (harrived.2.trans (if_neg hmoved).symm)⟩
  | shoot modifiers => exact acts_carryOut_shoot ht hp hn ha hcommand

theorem flipTurn_eq (ht : Passive tell) : ∃ journal, (c.flipTurn tell).duel =
    { c.duel with
      arena := (c.duel.arena.promote c.duel.current.other).value
      log := c.duel.log.record (.turnChanged c.duel.current.other)
      current := c.duel.current.other, turnNumber := c.duel.turnNumber + 1, journal } := by
  unfold flipTurn tellTurn
  dsimp only
  rw [ht]
  exact ⟨_, rfl⟩

/-- A run that has come to its end while the match goes on ends its turn as the rules say. -/
theorem finishRun_going (ht : Passive tell) (hp : c.duel.phase = .executing) (id : Nat)
    (result : ExecutionResult) (hplayer : result.player = c.duel.current) :
    ∃ arena log journal,
      let d := c.duel.handed (some result) (.closed id true :: c.duel.deeds) arena log journal
      d.standing = c.duel.standing.endTurn result.player ∧
        (c.finishRun tell id result).duel =
          if d.continuous then
            (d.remember (.paused id d.turnNumber)).rest id (.pause result) d.timing.turnDelay
          else d.beginTurn.endTask id (.done (some result)) := by
  obtain ⟨p, executed, abandoned⟩ := result
  obtain rfl : p = c.duel.current := hplayer
  let result : ExecutionResult := ⟨c.duel.current, executed, abandoned⟩
  let x := c.duel.arena.recordTurnEnd result.player
  let y := x.value.clearActive result.player
  let arena := (y.value.promote c.duel.current.other).value
  let log := c.duel.log.record (.turnChanged c.duel.current.other)
  let cleared : Coordinator M :=
    c.update fun d => ({ d with lastExecution := some result }.setArena x).setArena y
  let flipped : Coordinator M := (cleared.update (·.closeRun id)).flipTurn tell
  obtain ⟨message, hclose⟩ := closeRun_executing (d := cleared.duel) hp id
  obtain ⟨journal, hflip⟩ := flipTurn_eq (c := cleared.update (·.closeRun id)) ht
  have hflipped : flipped.duel =
      c.duel.handed (some result) (.closed id true :: c.duel.deeds) arena log journal := by
    refine hflip.trans ?_
    simp only [update, hclose]
    rfl
  have hfinish : c.finishRun tell id result =
      if flipped.duel.continuous then
        (flipped.update fun d => d.remember (.paused id d.turnNumber)).rest id (.pause result)
          flipped.duel.timing.turnDelay
      else (flipped.update Duel.beginTurn).endTask id (.done (some result)) := by
    unfold finishRun
    exact if_neg (by simp [update, isOver, hp])
  refine ⟨arena, log, journal, rfl, ?_⟩
  rw [hfinish, ← hflipped]
  split <;> rfl

/-- A timer has nothing to end while a script may run or when the match is over. -/
theorem onTimeout_busy (tell : Notification → Coordinator M → Coordinator M)
    (hp : c.duel.phase = .executing ∨ c.duel.phase = .over) :
    ∃ message, c.onTimeout tell = c.update (·.note .debug message) := by
  unfold onTimeout
  rcases c.duel.fire_cases .timeout with ⟨-, m, hf⟩ | ⟨phase, m, hn, -⟩
  · simp only [onDuel, hf]
    exact ⟨m, rfl⟩
  · obtain ⟨hi, -⟩ := Phase.next?_timeout hn
    rcases hp with hp | hp <;> simp [hp] at hi

/-- When the edit time has run out the turn passes on as the rules say. -/
theorem onTimeout_going (ht : Passive tell) (hp : c.duel.phase = .idle ∨ c.duel.phase = .editing) :
    ∃ arena log journal,
      let d := c.duel.handed c.duel.lastExecution c.duel.deeds arena log journal
      d.standing = c.duel.standing.pass c.duel.current ∧
        (c.onTimeout tell).duel = d.beginTurn := by
  unfold onTimeout
  rcases c.duel.fire_cases .timeout with ⟨hn, -⟩ | ⟨phase, m, hn, hf⟩
  · have := Phase.next?_timeout_none hn
    rcases hp with hp | hp <;> simp [hp] at this
  · obtain ⟨-, rfl⟩ := Phase.next?_timeout hn
    let fired : Coordinator M := ⟨{ c.duel.note .debug m with phase := .idle }, c.memory⟩
    obtain ⟨journal, hflip⟩ := flipTurn_eq (c := fired.update fun d =>
      d.note .info (d.label d.current ++ " ran out of time")) ht
    let arena := (c.duel.arena.promote c.duel.current.other).value
    let log := c.duel.log.record (.turnChanged c.duel.current.other)
    refine ⟨arena, log, journal, rfl, ?_⟩
    simp only [onDuel, hf]
    exact congrArg Duel.beginTurn hflip

/-- A run that has a program when it begins has read it from its script. -/
theorem parseGiven_of_program? {d : Duel} {p q : Player} {program : List Action}
    {executed : List String} (h : d.program? (.begin p) = some (q, program, executed)) :
    q = p ∧ executed = [] ∧ (Script.parseGiven p (d.scripts.get p)).value = .ok program := by
  obtain ⟨actions, hactions, heq⟩ := Option.map_eq_some_iff.mp h
  cases heq
  refine ⟨rfl, rfl, ?_⟩
  cases hv : (Script.parseGiven p (d.scripts.get p)).value with
  | error fault => simp [hv, Except.toOption] at hactions
  | ok actions => simpa [hv, Except.toOption] using hactions

/-- A task that executes a program goes on with it; at its first step it has the script to read. -/
theorem runJob_program (tell : Notification → Coordinator M → Coordinator M) (id : Nat)
    {job : Job} {p : Player} {rest : List Action} {executed : List String}
    (h : c.duel.program? job = some (p, rest, executed)) :
    ∃ journal, c.runJob tell id job =
      (c.update ({ · with journal })).act tell id p executed rest := by
  cases job with
  | act q rest' executed' =>
    cases h
    exact ⟨c.duel.journal, rfl⟩
  | begin q =>
    obtain ⟨rfl, rfl, hvalue⟩ := parseGiven_of_program? h
    unfold runJob beginRun
    simp only [hvalue]
    exact ⟨_, rfl⟩
  | _ => cases h

/-- A run that finds the match over leaves the rest of its actions alone. -/
theorem act_over (tell : Notification → Coordinator M → Coordinator M)
    (ho : c.duel.phase = .over) (id : Nat) (p : Player) (executed : List String)
    (rest : List Action) :
    ∃ journal, c.act tell id p executed rest =
      (c.update ({ · with journal, lastExecution := some ⟨p, executed, rest.length⟩ })).endTask id
        (.done (some ⟨p, executed, rest.length⟩)) := by
  have hfinish {c : Coordinator M} (ho : c.duel.phase = .over) (result : ExecutionResult) :
      c.finishRun tell id result =
        (c.update ({ · with lastExecution := some result })).endTask id (.done (some result)) := by
    unfold finishRun
    exact if_pos (by simp [update, isOver, ho])
  cases rest with
  | nil => exact ⟨c.duel.journal, hfinish ho _⟩
  | cons a later =>
    rw [act, if_pos (by simp [isOver, ho])]
    exact ⟨_, hfinish (c := c.update (·.record _)) ho _⟩

/-- Starting a match makes the first player move. -/
theorem start_eq (ht : Passive tell) (hs : c.duel.started = false) :
    ∃ journal journal',
      let d := { { c.duel.opened with
        arena := (c.duel.arena.promote .a).value, journal }.startTimer with
          log := c.duel.log.record (.turnChanged .a), journal := journal' }
      d.standing = c.duel.standing.opening ∧ (c.start tell).duel = d.autoExecute := by
  let x := c.duel.arena.promote .a
  let opened := (c.duel.opened.setArena x).startTimer
  let ready : Coordinator M :=
    ⟨opened.note .info ("Match started: " ++ opened.label .a ++ " to move"), c.memory⟩
  refine ⟨x.records.reverse ++ c.duel.journal, ready.duel.journal, rfl, ?_⟩
  unfold start
  rw [if_neg (by simp [hs])]
  exact congrArg Duel.autoExecute (ht (.turnChanged .a) ready)

/-- Players change nothing of how a match stands but the phase, unless they start the match or
report its end. -/
theorem aside_handle (tell : Notification → Coordinator M → Coordinator M)
    {r : Request} (hs : c.duel.started = true ∨ r ≠ .start)
    (hr : r.actsOnWorld = false) (hr' : r.isReport = false) :
    Aside c.duel (c.handle tell r).2.duel := by
  cases r with
  | start =>
    unfold handle start
    rw [if_pos (hs.resolve_right fun h => h rfl)]
    exact aside_beside
  | setScript p script =>
    have h := c.duel.aside_setScript p script
    simp only [handle, onDuel]
    split <;> exact h
  | beginEditing p => exact c.duel.aside_beginEditing p
  | endEditing p => exact c.duel.aside_endEditing p
  | execute p => exact c.duel.aside_execute p
  | setContinuous on => exact c.duel.aside_setContinuous on
  | toggleContinuous => exact c.duel.aside_setContinuous _
  | position p => exact .refl _
  | facing p => exact .refl _
  | lost p => cases hr'
  | exited p => cases hr'
  | shootAt p cell => cases hr
  | tryMove p dir => cases hr
  | radarFor p => cases hr

end Coordinator

end MazeDuel.Turn
