import MazeDuel.Proofs.Turn.Upheld
import MazeDuel.Proofs.World.Trail
/-!
The log as a trace: the fixes that it tells of, with the live one behind them, are the trail of each
player from the spawn on, and the last shot that it tells of left the live health. No change of
place or facing goes untold, and none of health that a text can name, and none is told twice.
-/

namespace MazeDuel

namespace Notification

/-- The fix that a player has left, if that is what is told. -/
def left? (p : Player) : Notification → Option Fix
  | positionMoved q before => if q = p then some before else none
  | _ => none

/-- The health that a shot has left a player, if that is what is told. -/
def health? (p : Player) : Notification → Option Quantity
  | shot result => if result.target = p then some result.targetHealth else none
  | _ => none

/-- The fixes that a player has left, in order. -/
def lefts (p : Player) (events : List Notification) : List Fix := events.filterMap (left? p)

/-- What each shot at a player has left of their health, in order. -/
def healths (p : Player) (events : List Notification) : List Quantity :=
  events.filterMap (health? p)

theorem lefts_append (p : Player) (events : List Notification) (n : Notification) :
    lefts p (events ++ [n]) = lefts p events ++ (n.left? p).toList := by
  rw [lefts, List.filterMap_append]
  cases h : n.left? p <;> simp [lefts, h]

theorem healths_append (p : Player) (events : List Notification) (n : Notification) :
    healths p (events ++ [n]) = healths p events ++ (n.health? p).toList := by
  rw [healths, List.filterMap_append]
  cases h : n.health? p <;> simp [healths, h]

end Notification

namespace Turn

open Notification

/-- Whether a request moves a player without a word: only the one that the actions of scripts make
before they tell of it. -/
def Request.isMove : Request → Bool
  | tryMove _ _ => true
  | _ => false

def Episode.isMove : Episode → Bool
  | .happening (.request r) => r.isMove
  | _ => false

/-- The log traces both players from the arena in the beginning, and the health of those whose
health can be told. -/
structure Standing.Traced (initial : Arena) (s : Standing) : Prop where
  unlimited : s.log.limit = .null
  proper : s.arena.Proper
  trail : ∀ p, Fix.Trail (initial.combatant p).fix (lefts p s.log.events) (s.arena.combatant p).fix
  tellable : ∀ p, initial.Tellable p → s.arena.Tellable p
  health : ∀ p, initial.Tellable p →
    (healths p s.log.events).getLast?.getD (initial.combatant p).health =
      (s.arena.combatant p).health

namespace Standing

variable {initial arena : Arena} {s : Standing} {p : Player}

theorem traced_start (h : initial.Proper) (hs : s.arena = initial) (hl : s.log = {}) :
    s.Traced initial := by
  subst hs
  constructor
  case unlimited => rw [hl]
  case proper => exact h
  case trail =>
    intro p
    rw [hl]
    exact Fix.trail_start (h.grounded.same_fix p)
  case tellable => exact fun _ htold => htold
  case health =>
    intro p _
    rw [hl]
    rfl

/-- What moves, turns and hurts nobody needs no word. -/
theorem Traced.silent {s' : Standing} (h : s.Traced initial) (hl : s'.log = s.log)
    (hb : Arena.SameBodies s.arena s'.arena) : s'.Traced initial := by
  constructor
  case unlimited =>
    rw [hl]
    exact h.unlimited
  case proper => exact h.proper.sameBodies hb
  case trail =>
    intro p
    rw [hl, hb.fix p]
    exact h.trail p
  case tellable => exact fun p htold => (h.tellable p htold).sameBodies hb
  case health =>
    intro p htold
    rw [hl, hb.health p]
    exact h.health p htold

/-- What tells of no move and no shot changes nothing in the trace. -/
theorem Traced.hear (h : s.Traced initial) {n : Notification} (hleft : ∀ p, n.left? p = none)
    (hhealth : ∀ p, n.health? p = none) : (s.hear n).Traced initial := by
  have hevents := events_hear h.unlimited n
  constructor
  case unlimited => exact h.unlimited
  case proper => exact h.proper
  case trail =>
    intro p
    rw [hevents, lefts_append, hleft p, Option.toList_none, List.append_nil]
    exact h.trail p
  case tellable => exact h.tellable
  case health =>
    intro p htold
    rw [hevents, healths_append, hhealth p, Option.toList_none, List.append_nil]
    exact h.health p htold

theorem Traced.opening (h : s.Traced initial) : s.opening.Traced initial := by
  let promoted : Standing :=
    { s with arena := (s.arena.promote .a).value, phase := .idle, started := true, current := .a }
  have hpromoted : promoted.Traced initial :=
    h.silent rfl (Arena.sameBodies_promote s.arena .a)
  exact hpromoted.hear (fun _ => rfl) (fun _ => rfl)

theorem Traced.pass (h : s.Traced initial) (p : Player) : (s.pass p).Traced initial := by
  let promoted : Standing :=
    { s with
      arena := (s.arena.promote p.other).value
      phase := .idle, current := p.other, turnNumber := s.turnNumber + 1 }
  have hpromoted : promoted.Traced initial :=
    h.silent rfl (Arena.sameBodies_promote s.arena p.other)
  exact hpromoted.hear (fun _ => rfl) (fun _ => rfl)

theorem Traced.endTurn (h : s.Traced initial) (p : Player) : (s.endTurn p).Traced initial := by
  let ended : Standing :=
    { s with arena := ((s.arena.recordTurnEnd p).value.clearActive p).value }
  have hended : ended.Traced initial :=
    h.silent rfl ((Arena.sameBodies_recordTurnEnd s.arena p).trans
      (Arena.sameBodies_clearActive _ p))
  exact hended.pass p

theorem Traced.gather (h : s.Traced initial) (p : Player) (powerup : Powerup) :
    (s.gather p powerup).Traced initial := by
  let picked : Standing := { s with arena := (s.arena.pickUp p).value.2 }
  have hpicked : picked.Traced initial := h.silent rfl (Arena.sameBodies_pickUp s.arena p)
  exact hpicked.hear (fun _ => rfl) (fun _ => rfl)

/-- A shot that nobody hears of has hurt nobody whose health can be told. -/
theorem Traced.fire_failed (h : s.Traced initial) {p : Player} {cell : Place} {fault : Fault}
    (hfault : (s.arena.shootAt p cell).value.1 = .error fault) :
    Traced initial { s with arena := (s.arena.shootAt p cell).value.2 } := by
  have hfixes := Arena.sameFixes_shootAt s.arena p cell
  constructor
  case unlimited => exact h.unlimited
  case proper => exact Arena.proper_shootAt h.proper p cell
  case trail =>
    intro q
    rw [hfixes.fix q]
    exact h.trail q
  case tellable => exact fun q htold => (h.tellable q htold).shootAt p cell
  case health =>
    intro q htold
    by_cases hq : q = p.other
    · subst hq
      rw [Arena.shootAt_error_eq h.proper.grounded (h.tellable _ htold) hfault]
      exact h.health _ htold
    · obtain rfl : q = p := by simpa using Player.eq_other hq
      rw [(s.arena.shootAt_frame q cell).2.2.1]
      exact h.health q htold

/-- A shot is told with what it leaves of the target's health. -/
theorem Traced.fire_told (h : s.Traced initial) {p : Player} {cell : Place} {result : ShotResult}
    (hresult : (s.arena.shootAt p cell).value.1 = .ok result) :
    Traced initial
      (Standing.hear { s with arena := (s.arena.shootAt p cell).value.2 } (.shot result)) := by
  let s' : Standing := { s with arena := (s.arena.shootAt p cell).value.2 }
  obtain ⟨htarget, hleaves, -⟩ := Coordinator.shot_result h.proper hresult
  have hevents : (s'.hear (.shot result)).log.events = s.log.events ++ [.shot result] :=
    events_hear (s := s') h.unlimited _
  have hfixes := Arena.sameFixes_shootAt s.arena p cell
  constructor
  case unlimited => exact h.unlimited
  case proper => exact Arena.proper_shootAt h.proper p cell
  case trail =>
    intro q
    have hleft : (Notification.shot result).left? q = none := rfl
    rw [hevents, lefts_append, hleft, Option.toList_none, List.append_nil]
    show Fix.Trail _ _ ((s.arena.shootAt p cell).value.2.combatant q).fix
    rw [hfixes.fix q]
    exact h.trail q
  case tellable => exact fun q htold => (h.tellable q htold).shootAt p cell
  case health =>
    intro q htold
    have hhealth : (Notification.shot result).health? q =
        if p.other = q then some result.targetHealth else none := by
      rw [← htarget]
      rfl
    rw [hevents, healths_append, hhealth]
    by_cases hq : p.other = q
    · subst hq
      rw [if_pos rfl, Option.toList_some, List.getLast?_concat]
      exact hleaves
    · obtain rfl : q = p := by simpa using Player.eq_other (Ne.symm hq)
      rw [if_neg hq, Option.toList_none, List.append_nil]
      show _ = ((s.arena.shootAt q cell).value.2.combatant q).health
      rw [(s.arena.shootAt_frame q cell).2.2.1]
      exact h.health q htold

theorem Traced.fire (h : s.Traced initial) (p : Player) (cell : Place) :
    (s.fire p cell).Traced initial := by
  rcases s.fire_cases p cell with ⟨fault, hfault, heq⟩ | ⟨result, hresult, heq⟩
  · rw [heq]
    exact h.fire_failed hfault
  · rw [heq]
    exact h.fire_told hresult

/-- A move that does not show changes the trace by an equal fix at most. -/
theorem Traced.unmoved (h : s.Traced initial) (p : Player) (dir : MoveDir)
    (hsame : ((s.arena.tryMove p dir).value.2.combatant p).fix.same (s.arena.combatant p).fix =
      true) :
    Traced initial { s with arena := (s.arena.tryMove p dir).value.2 } := by
  obtain ⟨-, -, -, hhealth, -⟩ := s.arena.tryMove_frame p dir
  have hproper := Arena.proper_tryMove h.proper p dir
  have hground := hproper.grounded
  constructor
  case unlimited => exact h.unlimited
  case proper => exact hproper
  case trail =>
    intro q
    by_cases hq : q = p
    · subst hq
      have hback := Fix.same_comm (hground q) (h.proper.grounded q) hsame
      exact (h.trail q).congr (h.proper.grounded q) (hground q) hback
    · rw [Arena.combatant_tryMove_ne s.arena dir hq]
      exact h.trail q
  case tellable => exact fun q htold => (h.tellable q htold).tryMove p dir
  case health => exact fun q htold => (h.health q htold).trans (hhealth q).symm

/-- A move that shows is told with the fix from before. -/
theorem Traced.moved (h : s.Traced initial) (p : Player) (dir : MoveDir)
    (hmoved : ¬ ((s.arena.tryMove p dir).value.2.combatant p).fix.same (s.arena.combatant p).fix =
      true) :
    Traced initial (Standing.hear { s with arena := (s.arena.tryMove p dir).value.2 }
      (.positionMoved p (s.arena.combatant p).fix)) := by
  let before := (s.arena.combatant p).fix
  let s' : Standing := { s with arena := (s.arena.tryMove p dir).value.2 }
  obtain ⟨-, -, -, hhealth, -⟩ := s.arena.tryMove_frame p dir
  have hevents : (s'.hear (.positionMoved p before)).log.events =
      s.log.events ++ [.positionMoved p before] :=
    events_hear (s := s') h.unlimited _
  constructor
  case unlimited => exact h.unlimited
  case proper => exact Arena.proper_tryMove h.proper p dir
  case trail =>
    intro q
    have hleft : (positionMoved p before).left? q = if p = q then some before else none := rfl
    rw [hevents, lefts_append, hleft]
    by_cases hq : p = q
    · subst hq
      rw [if_pos rfl]
      exact (h.trail p).told (Arena.leads_tryMove h.proper.grounded p dir hmoved)
    · have hstays := Arena.combatant_tryMove_ne s.arena dir fun heq : q = p => hq heq.symm
      rw [if_neg hq, Option.toList_none, List.append_nil]
      show Fix.Trail _ _ ((s.arena.tryMove p dir).value.2.combatant q).fix
      rw [hstays]
      exact h.trail q
  case tellable => exact fun q htold => (h.tellable q htold).tryMove p dir
  case health =>
    intro q htold
    have hnone : (positionMoved p before).health? q = none := rfl
    rw [hevents, healths_append, hnone, Option.toList_none, List.append_nil]
    exact (h.health q htold).trans (hhealth q).symm

/-- The log traces the players, and one of them is where they were. -/
structure TracedAt (initial : Arena) (p : Player) (fix : Fix) (s : Standing) : Prop extends
    Traced initial s where
  stays : (s.arena.combatant p).fix = fix

end Standing

namespace Coordinator

open Duel Standing

variable {M : Type} {l : Listener M} {c : Coordinator M} {initial : Arena} {p : Player} {fix : Fix}

/-- A listener that moves nobody. -/
def Unmoving (l : Listener M) : Prop :=
  ∀ n d m, (l.plan n).Watches (fun _ => []) (fun r => r.isMove = false) d m

theorem upheld_traced (initial : Arena) : Upheld (Traced initial) where
  asked _ h := ⟨h.unlimited, h.proper, h.trail, h.tellable, h.health⟩
  struck _ _ _ h :=
    have hheard := h.hear (n := .matchEnded _ _ _) (fun _ => rfl) (fun _ => rfl)
    ⟨hheard.unlimited, hheard.proper, hheard.trail, hheard.tellable, hheard.health⟩
  finished h := ⟨h.unlimited, h.proper, h.trail, h.tellable, h.health⟩
  opening _ h := h.opening

theorem traced_asked {r : Request} (hr : r.isMove = false) {d : Duel}
    (h : d.standing.Traced initial) : (d.asked r).Traced initial := by
  cases r with
  | tryMove p dir => cases hr
  | radarFor p => exact h.silent rfl (Arena.sameBodies_radarFor d.arena p)
  | shootAt p cell => exact h.fire p cell
  | _ => exact h

theorem upheld_tracedAt (initial : Arena) (p : Player) (fix : Fix) :
    Upheld (TracedAt initial p fix) where
  asked hf h := ⟨(upheld_traced initial).asked hf h.toTraced, h.stays⟩
  struck winner reason ho h :=
    ⟨(upheld_traced initial).struck winner reason ho h.toTraced, h.stays⟩
  finished h := ⟨(upheld_traced initial).finished h.toTraced, h.stays⟩
  opening hs h :=
    have hfixes := Arena.sameFixes_promote _ .a
    ⟨(upheld_traced initial).opening hs h.toTraced, (hfixes.fix p).trans h.stays⟩

theorem TracedAt.fire {s : Standing} (h : TracedAt initial p fix s) (q : Player) (cell : Place) :
    TracedAt initial p fix (s.fire q cell) := by
  refine ⟨h.toTraced.fire q cell, ?_⟩
  have harena : (s.fire q cell).arena = (s.arena.shootAt q cell).value.2 := by
    rcases s.fire_cases q cell with ⟨fault, -, heq⟩ | ⟨result, -, heq⟩
    · rw [heq]
    · rw [heq]
      rfl
  rw [harena]
  exact ((Arena.sameFixes_shootAt s.arena q cell).fix p).trans h.stays

theorem tracedAt_asked {r : Request} (hr : r.isMove = false) {d : Duel}
    (h : TracedAt initial p fix d.standing) : TracedAt initial p fix (d.asked r) := by
  refine ⟨traced_asked hr h.toTraced, ?_⟩
  cases r with
  | tryMove q dir => cases hr
  | radarFor q => exact ((Arena.sameFixes_radarFor d.arena q).fix p).trans h.stays
  | shootAt q cell => exact (TracedAt.fire h q cell).stays
  | _ => exact h.stays

theorem upholds_traced (hl : Unmoving l) : Upholds (fun _ => Traced initial) l.tell :=
  upholds_tell hl (upheld_traced initial) fun _ hr _ => traced_asked hr

theorem upholds_tracedAt (hl : Unmoving l) : Upholds (fun _ => TracedAt initial p fix) l.tell :=
  upholds_tell hl (upheld_tracedAt initial p fix) fun _ hr _ => tracedAt_asked hr

/-- What an action does by itself keeps the trace, except that a move may still have to be told; a
shot moves nobody, whatever those ask who hear of it. -/
theorem invoke_shoot_tracedAt (hl : Unmoving l) {a : Action} {modifiers : List Modifier}
    (hcommand : a.command = .shoot modifiers) (h : c.duel.standing.Traced initial) :
    (Execution.invoke (surroundings l.tell) c a).2.Stands
      fun _ => TracedAt initial a.player (c.duel.arena.combatant a.player).fix := by
  let before := (c.duel.arena.combatant a.player).fix
  have haimed := Arena.sameFixes_radarFor c.duel.arena a.player
  rw [Execution.invoke, hcommand]
  apply (upholds_tracedAt hl).shootAt (fun _ => upheld_tracedAt initial a.player before)
  apply TracedAt.fire
  exact ⟨h.silent rfl (Arena.sameBodies_radarFor c.duel.arena a.player), haimed.fix a.player⟩

/-- A move keeps the trace: if it shows, it is told before anybody can ask for more. -/
theorem traced_carryOut_move (hl : Unmoving l) {a : Action} {dir : MoveDir}
    (hcommand : a.command = .move dir) (h : c.duel.standing.Traced initial) :
    (c.carryOut l.tell a.player a).2.duel.standing.Traced initial := by
  obtain ⟨r, r', ⟨hsame, heq⟩ | ⟨hmoved, heq⟩⟩ := carryOut_move l.tell c hcommand
  · rw [heq]
    exact h.unmoved a.player dir hsame
  · have ht : Upholds (fun _ => Traced initial) l.tell := upholds_traced hl
    rw [heq]
    exact ht.onMoved_told (fun _ => upheld_traced initial)
      (fun powerup _ hs => hs.gather a.player powerup) (ht _ _ (h.moved a.player dir hmoved))

theorem traced_carryOut_shoot (hl : Unmoving l) {a : Action} {modifiers : List Modifier}
    (hcommand : a.command = .shoot modifiers) (h : c.duel.standing.Traced initial) :
    (c.carryOut l.tell a.player a).2.duel.standing.Traced initial := by
  obtain ⟨r, r', hcases⟩ := carryOut_cases l.tell c a.player a
  have hshot := invoke_shoot_tracedAt (c := c.update (·.record r)) hl hcommand h
  rcases hcases with ⟨fault, -, heq⟩ | ⟨-, -, heq⟩ | ⟨-, hmoved, -⟩
  · rw [heq]
    exact hshot.toTraced
  · rw [heq]
    exact hshot.toTraced
  · have hsame := h.proper.grounded.same_fix a.player
    exact absurd ((congrArg (Fix.same · _) hshot.stays).trans hsame) hmoved

/-- An action keeps the trace. -/
theorem traced_carryOut (hl : Unmoving l) {a : Action} (h : c.duel.standing.Traced initial) :
    (c.carryOut l.tell a.player a).2.duel.standing.Traced initial := by
  cases hcommand : a.command with
  | wait =>
    obtain ⟨r, r', heq⟩ := carryOut_wait l.tell c hcommand (h.proper.grounded.same_fix a.player)
    rw [heq]
    exact h
  | move dir => exact traced_carryOut_move hl hcommand h
  | shoot modifiers => exact traced_carryOut_shoot hl hcommand h

/-- The step of a run that has an action to make is that action. -/
theorem exists_carryOut {t : Task Job} {ready : List (Task Job)} {a : Action}
    {later : List Action} {executed : List String} (hr : c.duel.schedule.ready = t :: ready)
    (hc : t.cancelled = false) (ho : c.duel.phase ≠ .over)
    (hp : c.duel.program? t.job = some (p, a :: later, executed)) :
    ∃ x : Coordinator M, x.duel.standing = c.duel.standing ∧
      (c.happen l .step).duel.standing = (x.carryOut l.tell p a).2.duel.standing := by
  have hj : t.job ≠ .caller := by
    intro hj
    rw [hj] at hp
    cases hp
  obtain ⟨c', hstep⟩ := exists_step? l.tell hr hj
  obtain ⟨t', ready', hr', -, heq⟩ := step?_taken l.tell hstep
  cases hr.symm.trans hr'
  let taken : Coordinator M := ⟨c.duel.taken t ready, c.memory⟩
  have hp' : taken.duel.program? t.job = some (p, a :: later, executed) := by
    rw [← hp]
    cases t.job <;> rfl
  obtain ⟨journal, hjob⟩ := runJob_program l.tell t.id hp'
  refine ⟨(taken.update ({ · with journal })).update fun d =>
    d.remember (.began t.id a d.phase d.current), rfl, ?_⟩
  have hact := @act_cons M l.tell (taken.update ({ · with journal })) ho t.id p executed a later
  rw [happen_step hstep, heq, if_neg (by simp [hc]), hjob, hact]
  split
  · exact standing_endTask _ _ _
  · exact standing_rest _ _ _ _

theorem traced_step (hl : Unmoving l) (hstill : Still c.duel)
    (h : c.duel.standing.Traced initial) :
    (c.happen l .step).duel.standing.Traced initial := by
  have ht : Upholds (fun _ => Traced initial) l.tell := upholds_traced hl
  have hup : M → Upheld (Traced initial) := fun _ => upheld_traced initial
  cases hstill.due with
  | act hs hr hc hbusy hp hplayer hnext =>
    obtain ⟨x, hx, hdone⟩ := exists_carryOut (l := l) hr hc (by simp [hbusy]) hp
    rw [hdone, ← hplayer]
    rw [← hx] at h
    exact traced_carryOut hl h
  | finish hs hr hc hbusy hp hidle hnext =>
    refine ht.step hup hstill (fun p ha => absurd ha (hidle p)) ?_
    rw [hnext]
    exact h.endTurn c.duel.current
  | expire hs hr hc hlast hask hidle hnext =>
    refine ht.step hup hstill (fun p ha => absurd ha (hidle p)) ?_
    rw [hnext]
    exact h.pass c.duel.current
  | stay hnext hover =>
    have hidle : ∀ p, ¬ c.duel.Acting p :=
      not_acting fun t ready p a later => hover t ready p (a :: later)
    refine ht.step hup hstill (fun p ha => absurd ha (hidle p)) ?_
    rw [hnext]
    exact h

theorem traced_request (hl : Unmoving l) {r : Request} (hr : r.isMove = false)
    (h : c.duel.standing.Traced initial) :
    (c.request l r).2.duel.standing.Traced initial :=
  (upholds_traced hl).handle (tells_tell l) (fun _ => upheld_traced initial) (traced_asked hr h)

/-- The log goes on tracing the players through every history, in which the match may be closed. -/
theorem traced_live (hl : Unmoving l) {es : List Episode} (hes : ∀ e ∈ es, e.isMove = false)
    (hstill : Still c.duel) (h : c.duel.standing.Traced initial) :
    (c.live l es).duel.standing.Traced initial := by
  let P (x : Coordinator M) : Prop := Still x.duel ∧ x.duel.standing.Traced initial
  have hboth : P (c.live l es) := by
    apply live_keeps (P := P) _ ⟨hstill, h⟩
    intro x e he hx
    apply keeps_undergo (P := P) _ _ _ _ hx
    · intro y y' hs hy
      refine ⟨still_step? (tells_tell l) hy.1 hs, ?_⟩
      rw [← happen_step hs]
      exact traced_step hl hy.1 hy.2
    · intro y y' hw hy
      refine ⟨still_wake? hy.1 hw, ?_⟩
      rw [wake?] at hw
      obtain ⟨schedule, -, rfl⟩ := Option.map_eq_some_iff.mp hw
      exact hy.2
    · exact fun _ awaited _ hv hy => ⟨hy.1.visited hv awaited, hy.2⟩
    · intro r hr
      have hmove : r.isMove = false := by
        have hmove := hes e he
        rw [hr] at hmove
        exact hmove
      exact ⟨hx.1.moves (moves_request l r x), traced_request hl hmove hx.2⟩
  exact hboth.2

/-- The log traces both players of every match, whatever is asked, by those who listen too, as long
as nobody is moved but by a script. The fixes that a player has left, with the live one behind them,
begin with the spawn; each differs from the next, and a new place is one step ahead in the new
facing. The last shot at a player has left the health that they have, if it can be told. -/
theorem log_traces (hl : Unmoving l) {grid : Grid} {a b : Combatant} {damage : Quantity}
    {arena : Arena} (harena : Arena.make grid a b damage = .ok arena) (timing : Timing)
    (scripts : Duo Json) (memory : M) {es : List Episode} (hes : ∀ e ∈ es, e.isMove = false)
    (p : Player) :
    let d := ((fresh arena timing scripts memory).live l es).duel
    let fixes := lefts p d.log.events ++ [(d.arena.combatant p).fix]
    (∃ first, fixes.head? = some first ∧ (arena.combatant p).fix.same first = true) ∧
      fixes.IsChain Fix.Leads ∧
      (arena.Tellable p →
        (healths p d.log.events).getLast?.getD (arena.combatant p).health =
          (d.arena.combatant p).health) := by
  intro d fixes
  have hstart : (fresh arena timing scripts memory).duel.standing.Traced arena :=
    traced_start (Arena.proper_make harena) rfl rfl
  have htraced : d.standing.Traced arena :=
    traced_live hl hes (still_fresh arena timing scripts) hstart
  exact ⟨(htraced.trail p).first, (htraced.trail p).chain, htraced.health p⟩

/-- A step, a turn on the spot at the border, and a shot that hits. -/
def firstRun : List Episode :=
  [.request .start, .request (.execute .a), .step, .step, .wake, .step, .wake, .step].map .happening

theorem first_run_traced :
    let d := ((fresh openField {} ⟨.text "MoveRight();MoveDown();Shoot(Radar)", .null⟩ ()).live
      .silent firstRun).duel
    let left := lefts .a d.log.events
    (left == [⟨.cell ⟨0, 0⟩, .north⟩, ⟨.cell ⟨1, 0⟩, .east⟩]) = true ∧
      (left ++ [(d.arena.combatant .a).fix]).IsChain Fix.Leads ∧
      (d.arena.combatant .b).health.same (.whole 80) = true ∧
      (healths .b d.log.events).getLast?.getD (openField.combatant .b).health =
        (d.arena.combatant .b).health := by
  intro d left
  have hl : Unmoving (Listener.silent : Listener Unit) := fun _ _ _ => trivial
  have hes : ∀ e ∈ firstRun, e.isMove = false := by simp [firstRun, Episode.isMove, Request.isMove]
  have htold : openField.Tellable .b := ⟨by decide +kernel, by decide +kernel, by decide +kernel⟩
  obtain ⟨-, hchain, -⟩ := log_traces hl make_openField {}
    ⟨.text "MoveRight();MoveDown();Shoot(Radar)", .null⟩ () hes .a
  obtain ⟨-, -, hhealth⟩ := log_traces hl make_openField {}
    ⟨.text "MoveRight();MoveDown();Shoot(Radar)", .null⟩ () hes .b
  exact ⟨by decide +kernel, hchain, by decide +kernel, hhealth htold⟩

/-- A player moved from outside leaves a fix untold, and a shot that leaves more health than a text
can name is not told at all. -/
theorem untold_changes :
    let moved := ((fresh openField {} ⟨.null, .null⟩ ()).live .silent
      ([.request .start, .request (.tryMove .a .right)].map .happening)).duel
    let huge : Arena := openField.setCombatant .b
      { openField.combatant .b with maxHealth := .whole (10 ^ 5000), health := .whole (10 ^ 5000) }
    let shot := ((fresh huge {} ⟨.text "Shoot(Radar)", .null⟩ ()).live .silent
      ([.request .start, .request (.execute .a), .step, .step].map .happening)).duel
    (lefts .a moved.log.events).isEmpty = true ∧
      (moved.arena.combatant .a).fix.same (openField.combatant .a).fix = false ∧
      (healths .b shot.log.events).isEmpty = true ∧
      (shot.arena.combatant .b).health.same (huge.combatant .b).health = false := by
  decide +kernel

end Coordinator

end Turn

end MazeDuel
