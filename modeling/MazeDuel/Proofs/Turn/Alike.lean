import MazeDuel.Proofs.Turn.Passive
/-!
Matches that are alike: everything about them is the same but what is in their journals and in the
memories of their listeners. The journal is only written to, and nothing but the listener looks at
its memory. So if the ways of telling keep two matches alike, everything else does.
-/

namespace MazeDuel.Turn

namespace Duel

/-- The same match with another journal. -/
def under (d : Duel) (journal : List Record) : Duel := { d with journal }

/-- A change that depends on everything but the journal, to which it adds records. -/
def Appends (h : Duel → Duel) : Prop :=
  ∀ d : Duel, ∃ (d' : Duel) (records : List Record), ∀ journal,
    h (d.under journal) = d'.under (records ++ journal)

/-- The same for an operation that also answers something. -/
def Writes (f : Duel → α × Duel) : Prop :=
  ∀ d : Duel, ∃ (a : α) (d' : Duel) (records : List Record), ∀ journal,
    f (d.under journal) = (a, d'.under (records ++ journal))

section Writing

variable {f : Duel → α × Duel} {g h : Duel → Duel}

theorem Appends.then (hg : Appends g) (hh : Appends h) : Appends fun d => h (g d) := by
  intro d
  obtain ⟨d', records, hfirst⟩ := hg d
  obtain ⟨d'', later, hsecond⟩ := hh d'
  exact ⟨d'', later ++ records, fun journal => by
    simp only [hfirst, hsecond, List.append_assoc]⟩

theorem Appends.answer (hh : Appends h) (a : α) : Writes fun d => (a, h d) := by
  intro d
  obtain ⟨d', records, hfirst⟩ := hh d
  exact ⟨a, d', records, fun journal => by simp only [hfirst]⟩

/-- The answer may be read off the match that is left. -/
theorem Appends.read (hh : Appends h) {a : Duel → α} (ha : ∀ d journal, a (d.under journal) = a d) :
    Writes fun d => (a (h d), h d) := by
  intro d
  obtain ⟨d', records, hfirst⟩ := hh d
  exact ⟨a d', d', records, fun journal => by simp only [hfirst, ha]⟩

theorem Writes.change (hf : Writes f) : Appends fun d => (f d).2 := by
  intro d
  obtain ⟨a, d', records, hfirst⟩ := hf d
  exact ⟨d', records, fun journal => by simp only [hfirst]⟩

/-- What an operation is asked for may be read off the match. -/
theorem Writes.asked {b : Duel → β} (hb : ∀ d journal, b (d.under journal) = b d)
    {f : β → Duel → α × Duel} (hf : ∀ b, Writes (f b)) : Writes fun d => f (b d) d := by
  intro d
  obtain ⟨a, d', records, hfirst⟩ := hf (b d) d
  exact ⟨a, d', records, fun journal => by simp only [hb, hfirst]⟩

/-- One of two changes, chosen by what is not in the journal. -/
theorem Appends.choose {test : Duel → Prop} [DecidablePred test]
    (ht : ∀ d journal, test (d.under journal) ↔ test d) (hg : Appends g) (hh : Appends h) :
    Appends fun d => if test d then g d else h d := by
  intro d
  by_cases htest : test d
  · obtain ⟨d', records, hfirst⟩ := hg d
    exact ⟨d', records, fun journal =>
      (if_pos ((ht d journal).mpr htest)).trans (hfirst journal)⟩
  · obtain ⟨d', records, hfirst⟩ := hh d
    exact ⟨d', records, fun journal =>
      (if_neg (mt (ht d journal).mp htest)).trans (hfirst journal)⟩

theorem Writes.choose {test : Duel → Prop} [DecidablePred test] {f' : Duel → α × Duel}
    (ht : ∀ d journal, test (d.under journal) ↔ test d) (hf : Writes f) (hf' : Writes f') :
    Writes fun d => if test d then f d else f' d := by
  intro d
  by_cases htest : test d
  · obtain ⟨a, d', records, hfirst⟩ := hf d
    exact ⟨a, d', records, fun journal =>
      (if_pos ((ht d journal).mpr htest)).trans (hfirst journal)⟩
  · obtain ⟨a, d', records, hfirst⟩ := hf' d
    exact ⟨a, d', records, fun journal =>
      (if_neg (mt (ht d journal).mp htest)).trans (hfirst journal)⟩

/-- An operation that goes on only after another one has said so. -/
theorem Writes.guard {first : Duel → Bool × Duel} (hfirst : Writes first) (hf : Writes f) (a : α) :
    Writes fun d => match first d with
      | (false, d) => (a, d)
      | (true, d) => f d := by
  intro d
  obtain ⟨goes, d', records, hgoes⟩ := hfirst d
  cases goes with
  | false => exact ⟨a, d', records, fun journal => by simp only [hgoes]⟩
  | true =>
    obtain ⟨b, d'', later, hlater⟩ := hf d'
    exact ⟨b, d'', later ++ records, fun journal => by
      simp only [hgoes, hlater, List.append_assoc]⟩

end Writing

theorem appends_record {r : Duel → Record} (hr : ∀ d journal, r (d.under journal) = r d) :
    Appends fun d => d.record (r d) := by
  intro d
  refine ⟨d, [r d], fun journal => ?_⟩
  simp only [hr]
  rfl

theorem appends_note (level : Level) (message : String) : Appends (·.note level message) :=
  appends_record fun _ _ => rfl

theorem appends_setArena {f : Duel → Logged Arena} (hf : ∀ d journal, f (d.under journal) = f d) :
    Appends fun d => d.setArena (f d) := by
  intro d
  refine ⟨{ d with arena := (f d).value }, (f d).records.reverse, fun journal => ?_⟩
  simp only [hf]
  rfl

theorem writes_onArena (f : Arena → Logged (α × Arena)) : Writes (·.onArena f) :=
  fun d => ⟨(f d.arena).value.1, { d with arena := (f d.arena).value.2 },
    (f d.arena).records.reverse, fun _ => rfl⟩

theorem writes_fire (e : TurnEvent) : Writes (·.fire e) := by
  intro d
  cases h : d.phase.next? e with
  | none => exact ⟨false, d, [_], fun journal => by simp only [fire, under, h]; rfl⟩
  | some phase =>
    exact ⟨true, { d with phase }, [_], fun journal => by simp only [fire, under, h]; rfl⟩

theorem writes_accepts (p : Player) (request : String) : Writes (·.accepts p request) :=
  .choose (fun _ _ => Iff.rfl) ((appends_note _ _).answer false)
    (.choose (fun _ _ => Iff.rfl) ((appends_record fun _ _ => rfl).answer false)
      fun d => ⟨true, d, [], fun _ => rfl⟩)

theorem writes_setScript (p : Player) (script : Json) : Writes (·.setScript p script) := by
  have hset : Appends fun d => { d with scripts := d.scripts.set p script }.remember
      (.scripted p script d.phase d.current) :=
    fun d => ⟨{ d with scripts := d.scripts.set p script }.remember
      (.scripted p script d.phase d.current), [], fun _ => rfl⟩
  have hbusy : Writes fun d => ((.ok false : Except Fault Bool),
      d.note .debug ("Ignoring set_script from " ++ word p ++ ": script is running")) :=
    (appends_note _ _).answer _
  unfold setScript
  cases script.length? with
  | none =>
    exact (writes_accepts p _).guard (.choose (fun _ _ => Iff.rfl) hbusy (hset.answer _)) _
  | some length =>
    exact (writes_accepts p _).guard (.choose (fun _ _ => Iff.rfl) hbusy
      ((hset.then (appends_note _ _)).answer _)) _

theorem writes_beginEditing (p : Player) : Writes (·.beginEditing p) :=
  (writes_accepts p _).guard (writes_fire .beginEdit) false

theorem writes_execute (p : Player) : Writes (·.execute p) := by
  have haccept : Writes fun d => (true, d.accept p) :=
    fun d => ⟨true, d.accept p, [], fun _ => rfl⟩
  exact .choose (fun _ _ => Iff.rfl) ((appends_note _ _).answer _)
    ((writes_accepts p _).guard ((writes_fire .execute).guard haccept false) false)

theorem appends_autoExecute : Appends autoExecute :=
  .choose (fun _ _ => Iff.rfl) (Writes.asked (fun _ _ => rfl) writes_execute).change
    fun d => ⟨d, [], fun _ => rfl⟩

theorem writes_endEditing (p : Player) : Writes (·.endEditing p) :=
  (writes_accepts p _).guard ((writes_fire .endEdit).guard (appends_autoExecute.answer true) false)
    false

theorem appends_setContinuous (on : Bool) : Appends (·.setContinuous on) := by
  have hset : Appends fun d => { d with continuous := on } :=
    fun d => ⟨{ d with continuous := on }, [], fun _ => rfl⟩
  exact .choose (fun _ _ => Iff.rfl) (appends_note _ _)
    ((hset.then (appends_note _ _)).then appends_autoExecute)

theorem writes_toggleContinuous : Writes toggleContinuous := by
  have hset : Appends fun d => d.setContinuous !d.continuous := by
    intro d
    obtain ⟨d', records, hfirst⟩ := appends_setContinuous (!d.continuous) d
    exact ⟨d', records, hfirst⟩
  exact hset.read fun _ _ => rfl

theorem appends_startTimer : Appends startTimer := fun d => ⟨d.startTimer, [], fun _ => rfl⟩

theorem appends_beginTurn : Appends beginTurn :=
  .choose (fun _ _ => Iff.rfl) (fun d => ⟨d, [], fun _ => rfl⟩)
    (appends_startTimer.then appends_autoExecute)

theorem appends_closeRun (id : Nat) : Appends (·.closeRun id) := by
  intro d
  obtain ⟨taken, d', records, hfired⟩ := writes_fire .finish d
  refine ⟨d'.remember (.closed id taken), records, fun journal => ?_⟩
  have hfired : (d.under journal).fire .finish = _ := hfired journal
  dsimp only [closeRun]
  rw [hfired]
  rfl

theorem appends_endTask (id : Nat) (outcome : Outcome) : Appends (·.endTask id outcome) := by
  have hended : Appends fun d => { d with outcomes := (id, outcome) :: d.outcomes } :=
    fun d => ⟨{ d with outcomes := (id, outcome) :: d.outcomes }, [], fun _ => rfl⟩
  have hawaited : Appends fun d => if d.awaited = some id then
      { d with awaited := none, schedule := (d.schedule.spawn .caller).2 } else d :=
    .choose (fun _ _ => Iff.rfl)
      (fun d => ⟨{ d with awaited := none, schedule := (d.schedule.spawn .caller).2 }, [],
        fun _ => rfl⟩)
      fun d => ⟨d, [], fun _ => rfl⟩
  exact hended.then hawaited

theorem appends_rest (id : Nat) (job : Job) (delay : Quantity) : Appends (·.rest id job delay) :=
  .choose (fun _ _ => Iff.rfl)
    (fun d => ⟨{ d with schedule := d.schedule.rest id job delay.toFloat }, [], fun _ => rfl⟩)
    (appends_endTask id _)

end Duel

/-- What must hold between the journals and memories of two matches, and goes on to hold as both
take the same records. -/
structure Likeness (N M : Type) where
  holds : List Record → N → List Record → M → Prop
  more : ∀ {j n j' m} records, holds j n j' m → holds (records ++ j) n (records ++ j') m

namespace Coordinator

variable {N M : Type} {S : Likeness N M} {tell : Notification → Coordinator N → Coordinator N}
  {tell' : Notification → Coordinator M → Coordinator M} {c : Coordinator N} {c' : Coordinator M}

/-- Two matches that are the same but for their journals and memories. -/
def Alike (S : Likeness N M) (c : Coordinator N) (c' : Coordinator M) : Prop :=
  ∃ journal, c'.duel = c.duel.under journal ∧
    S.holds c.duel.journal c.memory journal c'.memory

open Duel

theorem Alike.onDuel (h : Alike S c c') {f : Duel → α × Duel} (hf : Writes f) :
    ∃ a x x', c.onDuel f = (a, x) ∧ c'.onDuel f = (a, x') ∧ Alike S x x' := by
  obtain ⟨journal, hduel, hS⟩ := h
  obtain ⟨a, d', records, hwrites⟩ := hf c.duel
  have hleft : f c.duel = (a, d'.under (records ++ c.duel.journal)) := hwrites c.duel.journal
  have hright : f c'.duel = (a, d'.under (records ++ journal)) := hduel ▸ hwrites journal
  unfold Coordinator.onDuel
  rw [hleft, hright]
  exact ⟨a, _, _, rfl, rfl, records ++ journal, rfl, S.more records hS⟩

theorem Alike.update (h : Alike S c c') {g : Duel → Duel} (hg : Appends g) :
    Alike S (c.update g) (c'.update g) := by
  obtain ⟨_, x, x', hx, hx', hnext⟩ := h.onDuel (hg.answer ())
  have hleft : c.update g = x := congrArg Prod.snd hx
  have hright : c'.update g = x' := congrArg Prod.snd hx'
  rw [hleft, hright]
  exact hnext

/-- What is not in the journal is read off both the same. -/
theorem Alike.reads (h : Alike S c c') {a : Duel → α}
    (ha : ∀ d journal, a (d.under journal) = a d) : a c'.duel = a c.duel := by
  obtain ⟨journal, hduel, -⟩ := h
  rw [hduel, ha]

theorem Alike.logEvent (h : Alike S c c') (n : Notification) :
    Alike S (c.logEvent n) (c'.logEvent n) :=
  h.update fun d => ⟨{ d with log := d.log.record n }, [], fun _ => rfl⟩

/-- Two ways of telling that keep matches alike. -/
def Follows (S : Likeness N M) (tell : Notification → Coordinator N → Coordinator N)
    (tell' : Notification → Coordinator M → Coordinator M) : Prop :=
  ∀ n c c', Alike S c c' → Alike S (tell n c) (tell' n c')

section Requests

theorem Follows.endMatch (ht : Follows S tell tell') (h : Alike S c c') (winner : Player)
    (reason : GameResult) :
    Alike S (c.endMatch tell winner reason) (c'.endMatch tell' winner reason) := by
  have hended : Appends (·.ended winner reason) :=
    fun d => ⟨d.ended winner reason, [], fun _ => rfl⟩
  have hfinished : Appends ({ · with finished := true }) :=
    fun d => ⟨{ d with finished := true }, [], fun _ => rfl⟩
  obtain ⟨fired, x, x', hx, hx', hnext⟩ := h.onDuel (writes_fire .endMatch)
  unfold Coordinator.endMatch
  rw [hx, hx']
  cases fired with
  | false => exact hnext
  | true =>
    refine (ht _ _ _ ?_).update hfinished
    exact (hnext.update hended).update (appends_record fun _ _ => rfl)

theorem Alike.promoteCurrent (h : Alike S c c') :
    Alike S c.promoteCurrent c'.promoteCurrent :=
  h.update (appends_setArena fun _ _ => rfl)

theorem Follows.tellTurn (ht : Follows S tell tell') (h : Alike S c c') :
    Alike S (c.tellTurn tell) (c'.tellTurn tell') := by
  unfold Coordinator.tellTurn
  rw [h.reads (a := Duel.current) fun _ _ => rfl]
  exact ht _ _ _ h

theorem Follows.start (ht : Follows S tell tell') (h : Alike S c c') :
    Alike S (c.start tell) (c'.start tell') := by
  have hopened : Appends opened := fun d => ⟨d.opened, [], fun _ => rfl⟩
  unfold Coordinator.start
  rw [h.reads (a := Duel.started) fun _ _ => rfl]
  split
  · exact h.update (appends_note _ _)
  · refine (ht.tellTurn ?_).update appends_autoExecute
    exact ((h.update hopened).promoteCurrent.update appends_startTimer).update
      (appends_record fun _ _ => rfl)

theorem Follows.shootAt (ht : Follows S tell tell') (h : Alike S c c') (p : Player)
    (cell : Place) :
    ∃ result x x', c.shootAt tell p cell = (result, x) ∧ c'.shootAt tell' p cell = (result, x') ∧
      Alike S x x' := by
  obtain ⟨result, x, x', hx, hx', hnext⟩ := h.onDuel (writes_onArena (·.shootAt p cell))
  unfold Coordinator.shootAt
  rw [hx, hx']
  cases result with
  | error fault => exact ⟨.error fault, _, _, rfl, rfl, hnext⟩
  | ok result =>
    have htold := ht (.shot result) _ _ hnext
    refine ⟨.ok result, _, _, rfl, rfl, ?_⟩
    split
    · exact ht.endMatch htold _ _
    · exact htold

/-- Matches that are alike answer a request the same. -/
theorem Follows.handle (ht : Follows S tell tell') (h : Alike S c c') (r : Request) :
    ∃ reply x x', c.handle tell r = (reply, x) ∧ c'.handle tell' r = (reply, x') ∧
      Alike S x x' := by
  have hflagged {f : Duel → Bool × Duel} (hf : Writes f) :
      ∃ reply x x', (Reply.flag (c.onDuel f).1, (c.onDuel f).2) = (reply, x) ∧
        (Reply.flag (c'.onDuel f).1, (c'.onDuel f).2) = (reply, x') ∧ Alike S x x' := by
    obtain ⟨flag, x, x', hx, hx', hnext⟩ := h.onDuel hf
    rw [hx, hx']
    exact ⟨_, _, _, rfl, rfl, hnext⟩
  cases r with
  | start => exact ⟨_, _, _, rfl, rfl, ht.start h⟩
  | setScript p script =>
    obtain ⟨taken, x, x', hx, hx', hnext⟩ := h.onDuel (writes_setScript p script)
    dsimp only [Coordinator.handle]
    rw [hx, hx']
    cases taken <;> exact ⟨_, _, _, rfl, rfl, hnext⟩
  | beginEditing p => exact hflagged (writes_beginEditing p)
  | endEditing p => exact hflagged (writes_endEditing p)
  | execute p => exact hflagged (writes_execute p)
  | setContinuous on => exact ⟨_, _, _, rfl, rfl, h.update (appends_setContinuous on)⟩
  | toggleContinuous => exact hflagged writes_toggleContinuous
  | lost p => exact ⟨_, _, _, rfl, rfl, ht.endMatch h _ _⟩
  | exited p => exact ⟨_, _, _, rfl, rfl, ht.endMatch h _ _⟩
  | shootAt p cell =>
    obtain ⟨result, x, x', hx, hx', hnext⟩ := ht.shootAt h p cell
    dsimp only [Coordinator.handle]
    rw [hx, hx']
    cases result <;> exact ⟨_, _, _, rfl, rfl, hnext⟩
  | tryMove p dir => exact hflagged (writes_onArena (·.tryMove p dir))
  | radarFor p =>
    obtain ⟨fix, x, x', hx, hx', hnext⟩ := h.onDuel (writes_onArena (·.radarFor p))
    dsimp only [Coordinator.handle]
    rw [hx, hx']
    exact ⟨_, _, _, rfl, rfl, hnext⟩
  | position p =>
    have hplace := h.reads (a := fun d => Reply.place (d.arena.position p)) fun _ _ => rfl
    exact ⟨_, _, _, rfl, Prod.ext hplace rfl, h⟩
  | facing p =>
    have hfacing := h.reads (a := fun d => Reply.facing (d.arena.facing p)) fun _ _ => rfl
    exact ⟨_, _, _, rfl, Prod.ext hfacing rfl, h⟩

end Requests

theorem Follows.flipTurn (ht : Follows S tell tell') (h : Alike S c c') :
    Alike S (c.flipTurn tell) (c'.flipTurn tell') := by
  have hpass : Appends passTurn := fun d => ⟨d.passTurn, [], fun _ => rfl⟩
  refine ht.tellTurn (Alike.update ?_ (appends_record fun _ _ => rfl))
  exact (h.update hpass).promoteCurrent

theorem Follows.onMoved (ht : Follows S tell tell') (h : Alike S c c') (p : Player)
    (before : Fix) : Alike S (c.onMoved tell p before) (c'.onMoved tell' p before) := by
  have hexit {c : Coordinator N} {c' : Coordinator M} (h : Alike S c c') :
      Alike S (if c.duel.arena.atExit p then c.reportExited tell p else c)
        (if c'.duel.arena.atExit p then c'.reportExited tell' p else c') := by
    rw [h.reads (a := fun d => d.arena.atExit p) fun _ _ => rfl]
    split
    · exact ht.endMatch h _ _
    · exact h
  have htold := ht (.positionMoved p before) _ _ h
  unfold Coordinator.onMoved
  dsimp only
  rw [htold.reads (a := fun d => d.arena.position p) fun _ _ => rfl]
  split
  · exact htold
  · obtain ⟨found, x, x', hx, hx', hnext⟩ := htold.onDuel (writes_onArena (·.pickUp p))
    rw [hx, hx']
    cases found with
    | none => exact hexit hnext
    | some powerup => exact hexit (ht _ _ _ hnext)

theorem Alike.record (h : Alike S c c') (r : Record) :
    Alike S (c.update (·.record r)) (c'.update (·.record r)) :=
  h.update (appends_record fun _ _ => rfl)

theorem Follows.invoke (ht : Follows S tell tell') (h : Alike S c c') (a : Action) :
    ∃ result x x', Execution.invoke (surroundings tell) c a = (result, x) ∧
      Execution.invoke (surroundings tell') c' a = (result, x') ∧ Alike S x x' := by
  unfold Execution.invoke
  cases a.command with
  | move dir =>
    exact ⟨_, _, _, rfl, rfl, h.update (writes_onArena (·.tryMove a.player dir)).change⟩
  | wait => exact ⟨_, _, _, rfl, rfl, h⟩
  | shoot modifiers =>
    obtain ⟨fix, x, x', hx, hx', hnext⟩ := h.onDuel (writes_onArena (·.radarFor a.player))
    obtain ⟨result, y, y', hy, hy', hshot⟩ :=
      ht.shootAt hnext a.player (Execution.target fix modifiers)
    dsimp only [surroundings]
    rw [hx, hx']
    dsimp only
    rw [hy, hy']
    exact ⟨_, _, _, rfl, rfl, hshot⟩

theorem Follows.perform (ht : Follows S tell tell') (h : Alike S c c') (p : Player)
    (a : Action) :
    ∃ changed x x', Execution.perform (surroundings tell) p c a = (changed, x) ∧
      Execution.perform (surroundings tell') p c' a = (changed, x') ∧ Alike S x x' := by
  have hfix {c : Coordinator N} {c' : Coordinator M} (h : Alike S c c') :
      (surroundings tell').fix c' p = (surroundings tell).fix c p :=
    h.reads (a := fun d => (d.arena.combatant p).fix) fun _ _ => rfl
  have hdone (r : Record) :
      ∃ result x x', Execution.invoke (surroundings tell) ((surroundings tell).note c r) a =
          (result, x) ∧
        Execution.invoke (surroundings tell') ((surroundings tell').note c' r) a = (result, x') ∧
          Alike S x x' :=
    ht.invoke (h.record r) a
  obtain ⟨result, x, x', hx, hx', hdone⟩ :=
    hdone (Execution.beforeRecord p a ((surroundings tell).fix c p))
  unfold Execution.perform
  dsimp only
  rw [hfix h, hx, hx']
  cases result with
  | error fault => exact ⟨_, _, _, rfl, rfl, hdone⟩
  | ok =>
    dsimp only
    rw [hfix hdone]
    exact ⟨_, _, _, rfl, rfl, hdone.record _⟩

theorem Follows.carryOut (ht : Follows S tell tell') (h : Alike S c c') (p : Player)
    (a : Action) :
    ∃ result x x', c.carryOut tell p a = (result, x) ∧ c'.carryOut tell' p a = (result, x') ∧
      Alike S x x' := by
  obtain ⟨changed, x, x', hx, hx', hnext⟩ := ht.perform h p a
  unfold Coordinator.carryOut
  rw [hx, hx']
  rcases changed with fault | _ | before
  · exact ⟨_, _, _, rfl, rfl, hnext⟩
  · exact ⟨_, _, _, rfl, rfl, hnext⟩
  · exact ⟨_, _, _, rfl, rfl, ht.onMoved hnext p before⟩

theorem Follows.finishRun (ht : Follows S tell tell') (h : Alike S c c') (id : Nat)
    (result : ExecutionResult) :
    Alike S (c.finishRun tell id result) (c'.finishRun tell' id result) := by
  have hlast : Appends ({ · with lastExecution := some result }) :=
    fun d => ⟨{ d with lastExecution := some result }, [], fun _ => rfl⟩
  have hpaused : Appends fun d => d.remember (.paused id d.turnNumber) :=
    fun d => ⟨d.remember (.paused id d.turnNumber), [], fun _ => rfl⟩
  have hset := h.update hlast
  unfold Coordinator.finishRun
  dsimp only
  rw [hset.reads (a := Duel.isOver) fun _ _ => rfl]
  split
  · exact hset.update (appends_endTask _ _)
  · have hflipped := ht.flipTurn (((hset.update
      (appends_setArena (f := fun d => d.arena.recordTurnEnd result.player) fun _ _ => rfl)).update
      (appends_setArena (f := fun d => d.arena.clearActive result.player) fun _ _ => rfl)).update
      (appends_closeRun id))
    rw [hflipped.reads (a := Duel.continuous) fun _ _ => rfl]
    split
    · rw [hflipped.reads (a := fun d => d.timing.turnDelay) fun _ _ => rfl]
      exact (hflipped.update hpaused).update (appends_rest _ _ _)
    · exact (hflipped.update appends_beginTurn).update (appends_endTask _ _)

theorem Follows.act (ht : Follows S tell tell') (h : Alike S c c') (id : Nat) (p : Player)
    (executed : List String) (rest : List Action) :
    Alike S (c.act tell id p executed rest) (c'.act tell' id p executed rest) := by
  have hbegan (a : Action) : Appends fun d => d.remember (.began id a d.phase d.current) :=
    fun d => ⟨d.remember (.began id a d.phase d.current), [], fun _ => rfl⟩
  cases rest with
  | nil => exact ht.finishRun h _ _
  | cons a later =>
    have hphase := h.reads (a := Duel.phase) fun _ _ => rfl
    by_cases ho : c.duel.phase = .over
    · have hover : c.duel.isOver = true := by simp [isOver, ho]
      have hover' : c'.duel.isOver = true := by simp [isOver, hphase, ho]
      rw [Coordinator.act, Coordinator.act, if_pos hover, if_pos hover']
      exact ht.finishRun (h.record _) _ _
    · obtain ⟨result, x, x', hx, hx', hdone⟩ := ht.carryOut (h.update (hbegan a)) p a
      rw [act_cons ho, act_cons (hphase ▸ ho), hx, hx']
      cases result with
      | error fault => exact hdone.update (appends_endTask _ _)
      | ok =>
        dsimp only
        rw [hdone.reads (a := fun d => d.timing.stepDelay) fun _ _ => rfl]
        exact hdone.update (appends_rest _ _ _)

theorem Follows.beginRun (ht : Follows S tell tell') (h : Alike S c c') (id : Nat) (p : Player) :
    Alike S (c.beginRun tell id p) (c'.beginRun tell' id p) := by
  have hparsed (records : List Record) :
      Appends fun d => { d with journal := records.reverse ++ d.journal } :=
    fun d => ⟨d, records.reverse, fun _ => rfl⟩
  unfold Coordinator.beginRun
  dsimp only
  rw [h.reads (a := fun d => Script.parseGiven p (d.scripts.get p)) fun _ _ => rfl]
  have hnext := h.update (hparsed (Script.parseGiven p (c.duel.scripts.get p)).records)
  cases (Script.parseGiven p (c.duel.scripts.get p)).value with
  | error fault => exact hnext.update (appends_endTask _ _)
  | ok actions => exact ht.act (hnext.record _) _ _ _ _

theorem Follows.onTimeout (ht : Follows S tell tell') (h : Alike S c c') :
    Alike S (c.onTimeout tell) (c'.onTimeout tell') := by
  obtain ⟨fired, x, x', hx, hx', hnext⟩ := h.onDuel (writes_fire .timeout)
  unfold Coordinator.onTimeout
  rw [hx, hx']
  cases fired with
  | false => exact hnext
  | true =>
    exact (ht.flipTurn (hnext.update (appends_record fun _ _ => rfl))).update appends_beginTurn

theorem Follows.runJob (ht : Follows S tell tell') (h : Alike S c c') (id : Nat) (job : Job) :
    Alike S (c.runJob tell id job) (c'.runJob tell' id job) := by
  have hwoke : Appends fun d => d.remember (.woke id d.turnNumber d.phase) :=
    fun d => ⟨d.remember (.woke id d.turnNumber d.phase), [], fun _ => rfl⟩
  have hticked (passed : Nat) :
      Appends fun d => { d with remaining := d.timing.remaining passed } :=
    fun d => ⟨{ d with remaining := d.timing.remaining passed }, [], fun _ => rfl⟩
  cases job with
  | caller => exact h
  | begin p => exact ht.beginRun h id p
  | act p rest executed => exact ht.act h id p executed rest
  | pause result => exact ((h.update hwoke).update appends_beginTurn).update (appends_endTask _ _)
  | timer =>
    unfold Coordinator.runJob
    dsimp only
    rw [h.reads (a := fun d => d.timing.ticks) fun _ _ => rfl,
      h.reads (a := fun d => d.timing.tick) fun _ _ => rfl]
    cases c.duel.timing.ticks with
    | error fault => exact h.update (appends_endTask _ _)
    | ok total => exact h.update (appends_rest _ _ _)
  | tick passed total =>
    have hnext := h.update (hticked passed)
    unfold Coordinator.runJob
    dsimp only
    split
    · rw [hnext.reads (a := fun d => d.timing.tick) fun _ _ => rfl]
      exact hnext.update (appends_rest _ _ _)
    · exact (ht.onTimeout hnext).update (appends_endTask _ _)

theorem Follows.runTask (ht : Follows S tell tell') (h : Alike S c c') (t : Task Job) :
    Alike S (c.runTask tell t) (c'.runTask tell' t) := by
  have hruns (running : Option Nat) : Appends ({ · with running }) :=
    fun d => ⟨{ d with running }, [], fun _ => rfl⟩
  have hnext := h.update (hruns (some t.id))
  unfold Coordinator.runTask
  dsimp only
  split
  · exact (hnext.update (appends_endTask _ _)).update (hruns none)
  · exact (ht.runJob hnext _ _).update (hruns none)

theorem Alike.schedule (h : Alike S c c') (schedule : Schedule Job) :
    Alike S (c.update ({ · with schedule })) (c'.update ({ · with schedule })) :=
  h.update fun d => ⟨{ d with schedule }, [], fun _ => rfl⟩

/-- Matches that are alike take their next step both or neither. -/
theorem Follows.step? (ht : Follows S tell tell') (h : Alike S c c') :
    Option.Rel (Alike S) (c.step? tell) (c'.step? tell') := by
  unfold Coordinator.step?
  rw [h.reads (a := Duel.schedule) fun _ _ => rfl]
  rcases c.duel.schedule.next? with _ | ⟨t, schedule⟩
  · exact .none
  · dsimp only
    split
    · exact .none
    · exact .some (ht.runTask (h.schedule schedule) t)

theorem Alike.wake? (h : Alike S c c') : Option.Rel (Alike S) c.wake? c'.wake? := by
  unfold Coordinator.wake?
  rw [h.reads (a := Duel.schedule) fun _ _ => rfl]
  cases c.duel.schedule.wake? with
  | none => exact .none
  | some schedule => exact .some (h.schedule schedule)

theorem Alike.setNow (h : Alike S c c') (now : Float) : Alike S (c.setNow now) (c'.setNow now) :=
  h.update fun d => ⟨{ d with schedule := { d.schedule with now } }, [], fun _ => rfl⟩

theorem Follows.happen {l : Listener N} {l' : Listener M} (ht : Follows S l.tell l'.tell)
    (h : Alike S c c') (x : Happening) : Alike S (c.happen l x) (c'.happen l' x) := by
  have hgetD {o : Option (Coordinator N)} {o' : Option (Coordinator M)}
      (ho : Option.Rel (Alike S) o o') : Alike S (o.getD c) (o'.getD c') := by
    cases ho with
    | none => exact h
    | some hnext => exact hnext
  cases x with
  | request r =>
    obtain ⟨reply, x, x', hx, hx', hnext⟩ := ht.handle h r
    dsimp only [Coordinator.happen, request]
    rw [hx, hx']
    exact hnext
  | step => exact hgetD (ht.step? h)
  | wake => exact hgetD h.wake?
  | clock now => exact h.setNow now

/-! ## The clock -/

theorem Follows.drainAt (ht : Follows S tell tell') (h : Alike S c c') (fuel : Nat) :
    Alike S (c.drainAt tell fuel) (c'.drainAt tell' fuel) := by
  induction fuel generalizing c c' with
  | zero => exact h
  | succ fuel ih =>
    have hstep := ht.step? h
    unfold Coordinator.drainAt
    revert hstep
    generalize c.step? tell = o, c'.step? tell' = o'
    rintro (hnext | _)
    · exact ih hnext
    · exact h

theorem Follows.drain (ht : Follows S tell tell') (h : Alike S c c') :
    Alike S (c.drain tell) (c'.drain tell') := ht.drainAt h patience

theorem Follows.passAt (ht : Follows S tell tell') (h : Alike S c c') (target : Float)
    (fuel : Nat) : Alike S (c.passAt tell target fuel) (c'.passAt tell' target fuel) := by
  induction fuel generalizing c c' with
  | zero => exact h
  | succ fuel ih =>
    have hwake := h.wake?
    unfold Coordinator.passAt
    rw [h.reads (a := fun d => d.schedule.due?) fun _ _ => rfl]
    cases c.duel.schedule.due? with
    | none => exact h
    | some due =>
      dsimp only
      split
      · revert hwake
        generalize c.wake? = o, c'.wake? = o'
        rintro (hnext | _)
        · exact ih (ht.drain hnext)
        · exact h
      · exact h

theorem Follows.advance (ht : Follows S tell tell') (h : Alike S c c') (seconds : Float) :
    Alike S (c.advance tell seconds) (c'.advance tell' seconds) := by
  unfold Coordinator.advance
  rw [h.reads (a := fun d => d.schedule.now) fun _ _ => rfl]
  exact (ht.passAt (ht.drain h) _ _).setNow _

theorem Follows.untilCallerAt (ht : Follows S tell tell') (h : Alike S c c') (fuel : Nat) :
    Alike S (c.untilCallerAt tell fuel) (c'.untilCallerAt tell' fuel) := by
  induction fuel generalizing c c' with
  | zero => exact h
  | succ fuel ih =>
    have hstep := ht.step? h
    have hwake := h.wake?
    unfold Coordinator.untilCallerAt
    revert hstep
    generalize c.step? tell = o, c'.step? tell' = o'
    rintro (hnext | _)
    · exact ih hnext
    · dsimp only
      rw [h.reads (a := fun d => d.schedule.ready.isEmpty) fun _ _ => rfl]
      split
      · revert hwake
        generalize c.wake? = o, c'.wake? = o'
        rintro (hnext | _)
        · exact ih hnext
        · exact h
      · exact h

theorem Alike.takeCaller (h : Alike S c c') : Alike S c.takeCaller c'.takeCaller :=
  h.update fun d =>
    ⟨{ d with schedule := { d.schedule with ready := d.schedule.ready.drop 1 } }, [],
      fun _ => rfl⟩

theorem Follows.enter (ht : Follows S tell tell') (h : Alike S c c') :
    Alike S (c.enter tell) (c'.enter tell') := by
  have hspawn : Appends fun d => { d with schedule := (d.schedule.spawn .caller).2 } :=
    fun d => ⟨{ d with schedule := (d.schedule.spawn .caller).2 }, [], fun _ => rfl⟩
  exact (ht.untilCallerAt (h.update hspawn) _).takeCaller

theorem Follows.awaitTaskAt (ht : Follows S tell tell') (h : Alike S c c') (fuel id : Nat) :
    Alike S (c.awaitTaskAt tell fuel id) (c'.awaitTaskAt tell' fuel id) := by
  have hawait : Appends ({ · with awaited := some id }) :=
    fun d => ⟨{ d with awaited := some id }, [], fun _ => rfl⟩
  unfold Coordinator.awaitTaskAt
  rw [h.reads (a := (·.isPending id)) fun _ _ => rfl]
  split
  · exact (ht.untilCallerAt (h.update hawait) _).takeCaller
  · exact h

theorem Follows.wait (ht : Follows S tell tell') (h : Alike S c c') (id : Nat) :
    Alike S (c.wait tell id) (c'.wait tell' id) :=
  ht.drain (ht.awaitTaskAt (ht.enter h) patience id)

theorem Follows.callOffAt (ht : Follows S tell tell') (h : Alike S c c') (fuel : Nat)
    (id : Option Nat) : Alike S (c.callOffAt tell fuel id) (c'.callOffAt tell' fuel id) := by
  unfold Coordinator.callOffAt
  cases id with
  | none => exact h
  | some id =>
    have hcancel : Appends fun d => { d with schedule := d.schedule.cancel id } :=
      fun d => ⟨{ d with schedule := d.schedule.cancel id }, [], fun _ => rfl⟩
    dsimp only
    rw [h.reads (a := (·.isPending id)) fun _ _ => rfl]
    split
    · exact ht.awaitTaskAt (h.update hcancel) fuel id
    · exact h

theorem Follows.close (ht : Follows S tell tell') (h : Alike S c c') :
    Alike S (c.close tell) (c'.close tell') := by
  have htimer : Appends ({ · with timer := none }) :=
    fun d => ⟨{ d with timer := none }, [], fun _ => rfl⟩
  have hentered := ht.enter h
  unfold Coordinator.close callOffAll callOffAllAt
  dsimp only
  rw [hentered.reads (a := fun d => d.schedule.ready.length) fun _ _ => rfl,
    hentered.reads (a := Duel.timer) fun _ _ => rfl,
    hentered.reads (a := Duel.execution) fun _ _ => rfl]
  exact ht.drain ((ht.callOffAt (ht.callOffAt hentered _ _) _ _).update htimer)

end Coordinator

end MazeDuel.Turn
