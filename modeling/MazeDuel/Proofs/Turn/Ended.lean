import MazeDuel.Proofs.Turn.Over
import MazeDuel.Proofs.Turn.Watching
/-!
What the requests of players leave alone: the arena, unless they start the match, and the whole
world once the match is over. Then no step of a task changes the world either, and nobody is told of
anything.
-/

namespace MazeDuel

theorem Phase.next?_ne_over {phase phase' : Phase} {e : TurnEvent} (h : phase.next? e = some phase')
    (he : e ≠ .endMatch) : phase ≠ .over ∧ phase' ≠ .over := by
  cases phase <;> cases e <;> simp_all [Phase.next?] <;> subst h <;> decide

namespace Turn

namespace Duel

/-- The world of a match, its scripts, its log and whose turn it is are the same at two moments. -/
structure SameWorld (d d' : Duel) : Prop where
  phase : d'.phase = d.phase
  arena : d'.arena = d.arena
  scripts : d'.scripts = d.scripts
  log : d'.log = d.log
  current : d'.current = d.current
  turnNumber : d'.turnNumber = d.turnNumber
  continuous : d'.continuous = d.continuous
  started : d'.started = d.started

theorem SameWorld.refl (d : Duel) : SameWorld d d := ⟨rfl, rfl, rfl, rfl, rfl, rfl, rfl, rfl⟩

theorem SameWorld.trans {d d' d'' : Duel} (h : SameWorld d d') (h' : SameWorld d' d'') :
    SameWorld d d'' :=
  ⟨h'.phase.trans h.phase, h'.arena.trans h.arena, h'.scripts.trans h.scripts, h'.log.trans h.log,
    h'.current.trans h.current, h'.turnNumber.trans h.turnNumber,
    h'.continuous.trans h.continuous, h'.started.trans h.started⟩

/-- Only records, tasks and deeds differ, and the match was not opened again. -/
structure Idle (d d' : Duel) : Prop extends SameWorld d d' where
  reopened : d'.Reopened ↔ d.Reopened

theorem Idle.refl (d : Duel) : Idle d d := ⟨.refl d, Iff.rfl⟩

theorem Idle.trans {d d' d'' : Duel} (h : Idle d d') (h' : Idle d' d'') : Idle d d'' :=
  ⟨h.toSameWorld.trans h'.toSameWorld, h'.reopened.trans h.reopened⟩

/-- The fields that are not part of the world may be anything. -/
theorem idle_beside {d : Duel} {remaining : Quantity} {timer execution : Option Nat}
    {last : Option ExecutionResult} {finished : Bool} {schedule : Schedule Job}
    {running awaited : Option Nat} {outcomes : List (Nat × Outcome)} {journal : List Record} :
    Idle d { d with
      remaining, timer, execution, lastExecution := last, finished, schedule, running, awaited,
      outcomes, journal } :=
  ⟨⟨rfl, rfl, rfl, rfl, rfl, rfl, rfl, rfl⟩, Iff.rfl⟩

theorem idle_note (d : Duel) (level : Level) (message : String) : Idle d (d.note level message) :=
  idle_beside

theorem idle_remember (d : Duel) {x : Deed} (hx : x ≠ .opened .over) : Idle d (d.remember x) :=
  ⟨⟨rfl, rfl, rfl, rfl, rfl, rfl, rfl, rfl⟩, reopened_cons rfl hx⟩

theorem idle_endTask (d : Duel) (id : Nat) (outcome : Outcome) : Idle d (d.endTask id outcome) := by
  obtain ⟨schedule, awaited, heq⟩ := endTask_eq d id outcome
  rw [heq]
  exact idle_beside

theorem idle_rest (d : Duel) (id : Nat) (job : Job) (delay : Quantity) :
    Idle d (d.rest id job delay) := by
  obtain ⟨schedule, awaited, outcomes, heq⟩ := d.rest_beside id job delay
  rw [heq]
  exact idle_beside

theorem idle_cancelTimer (d : Duel) : Idle d d.cancelTimer := idle_beside

theorem idle_startTimer (d : Duel) : Idle d d.startTimer := by
  have hnew : Idle d.cancelTimer d.startTimer :=
    ⟨⟨rfl, rfl, rfl, rfl, rfl, rfl, rfl, rfl⟩, reopened_cons rfl nofun⟩
  exact d.idle_cancelTimer.trans hnew

theorem idle_accept (d : Duel) (p : Player) : Idle d (d.accept p) := by
  have hnew : Idle d.cancelTimer (d.accept p) :=
    ⟨⟨rfl, rfl, rfl, rfl, rfl, rfl, rfl, rfl⟩, reopened_cons rfl nofun⟩
  exact d.idle_cancelTimer.trans hnew

variable {d d' d'' : Duel}

/-- What a request of a player changes that neither starts nor ends the match: nothing that matters
when it is over, and never the world itself. -/
structure Steers (d d' : Duel) : Prop where
  settled : d.phase = .over → Idle d d'
  going : d.phase ≠ .over → d'.phase ≠ .over
  log : d'.log = d.log
  arena : d'.arena = d.arena
  started : d'.started = d.started
  reopened : d'.Reopened ↔ d.Reopened

theorem Idle.steers (h : Idle d d') : Steers d d' :=
  ⟨fun _ => h, fun hp => h.phase ▸ hp, h.log, h.arena, h.started, h.reopened⟩

theorem Steers.trans (h : Steers d d') (h' : Steers d' d'') : Steers d d'' := by
  refine ⟨?_, fun hp => h'.going (h.going hp), h'.log.trans h.log, h'.arena.trans h.arena,
    h'.started.trans h.started, h'.reopened.trans h.reopened⟩
  intro ho
  have hi := h.settled ho
  exact hi.trans (h'.settled (hi.phase.trans ho))

theorem steers_note (d : Duel) (level : Level) (message : String) :
    Steers d (d.note level message) :=
  (d.idle_note level message).steers

/-- Before the end, the mode may change, and the phase to another before the end. -/
theorem steers_going (hp : d.phase ≠ .over) (phase : Phase) (continuous : Bool)
    (journal : List Record) (hp' : phase ≠ .over) :
    Steers d { d with phase, continuous, journal } :=
  ⟨fun ho => absurd ho hp, fun _ => hp', rfl, rfl, rfl, Iff.rfl⟩

theorem steers_fire (d : Duel) {e : TurnEvent} (he : e ≠ .endMatch) : Steers d (d.fire e).2 := by
  rcases d.fire_cases e with ⟨-, m, hf⟩ | ⟨phase, m, hn, hf⟩
  · rw [hf]
    exact d.steers_note _ _
  · rw [hf]
    obtain ⟨hp, hp'⟩ := Phase.next?_ne_over hn he
    exact steers_going hp phase d.continuous _ hp'

theorem steers_setScript (d : Duel) (p : Player) (script : Json) :
    Steers d (d.setScript p script).2 := by
  unfold setScript
  rcases d.accepts_cases p "set_script" with ⟨h, hp, -⟩ | ⟨message, h⟩
  · rw [h]
    dsimp only
    split
    · exact d.steers_note _ _
    · have hset : Steers d ({ d with scripts := d.scripts.set p script }.remember
          (.scripted p script d.phase d.current)) :=
        ⟨fun ho => absurd ho hp, id, rfl, rfl, rfl, reopened_cons rfl nofun⟩
      split
      · exact hset.trans (steers_note _ _ _)
      · exact hset
  · rw [h]
    exact d.steers_note _ _

theorem steers_beginEditing (d : Duel) (p : Player) : Steers d (d.beginEditing p).2 := by
  unfold beginEditing
  rcases d.accepts_cases p "begin_editing" with ⟨h, -, -⟩ | ⟨message, h⟩
  · rw [h]
    exact d.steers_fire nofun
  · rw [h]
    exact d.steers_note _ _

theorem steers_execute (d : Duel) (p : Player) : Steers d (d.execute p).2 := by
  unfold execute
  split
  · exact d.steers_note _ _
  · rcases d.accepts_cases p "request_execute" with ⟨h, -, -⟩ | ⟨message, h⟩
    · rw [h]
      have hfire := d.steers_fire (e := .execute) nofun
      dsimp only
      split
      · rename_i hf
        rwa [hf] at hfire
      · rename_i hf
        rw [hf] at hfire
        exact hfire.trans (idle_accept _ p).steers
    · rw [h]
      exact d.steers_note _ _

theorem steers_autoExecute (d : Duel) : Steers d d.autoExecute := by
  unfold autoExecute
  split
  · exact d.steers_execute _
  · exact (Idle.refl d).steers

theorem steers_endEditing (d : Duel) (p : Player) : Steers d (d.endEditing p).2 := by
  unfold endEditing
  rcases d.accepts_cases p "end_editing" with ⟨h, -, -⟩ | ⟨message, h⟩
  · rw [h]
    have hfire := d.steers_fire (e := .endEdit) nofun
    dsimp only
    split
    · rename_i hf
      rwa [hf] at hfire
    · rename_i hf
      rw [hf] at hfire
      exact hfire.trans (steers_autoExecute _)
  · rw [h]
    exact d.steers_note _ _

theorem steers_setContinuous (d : Duel) (on : Bool) : Steers d (d.setContinuous on) := by
  unfold setContinuous
  split
  · exact d.steers_note _ _
  · rename_i ho
    have hp : d.phase ≠ .over := by simpa [isOver] using ho
    exact (steers_going hp d.phase on _ hp).trans (steers_autoExecute _)

theorem steers_beginTurn (d : Duel) : Steers d d.beginTurn := by
  unfold beginTurn
  split
  · exact (Idle.refl d).steers
  · exact d.idle_startTimer.steers.trans (steers_autoExecute _)

theorem steers_closeRun (d : Duel) (id : Nat) : Steers d (d.closeRun id) :=
  (d.steers_fire (e := .finish) nofun).trans (idle_remember _ (x := .closed id _) nofun).steers

theorem fire_over {d : Duel} (ho : d.phase = .over) (e : TurnEvent) :
    ∃ message, d.fire e = (false, d.note .debug message) := by
  rcases d.fire_cases e with ⟨-, h⟩ | ⟨phase, m, hn, -⟩
  · exact h
  · rw [ho, Phase.next?_over] at hn
    cases hn

end Duel

namespace Coordinator

open Duel

variable {M : Type}

/-- Nothing has happened to the world of a match, nor to the memory of its listener. -/
structure Idles (c c' : Coordinator M) : Prop where
  memory : c'.memory = c.memory
  duel : Idle c.duel c'.duel

theorem Idles.refl (c : Coordinator M) : Idles c c := ⟨rfl, .refl _⟩

theorem Idles.trans {c c' c'' : Coordinator M} (h : Idles c c') (h' : Idles c' c'') : Idles c c'' :=
  ⟨h'.memory.trans h.memory, h.duel.trans h'.duel⟩

theorem idles_update {c : Coordinator M} {f : Duel → Duel} (h : Idle c.duel (f c.duel)) :
    Idles c (c.update f) :=
  ⟨rfl, h⟩

theorem Idles.update {c c' : Coordinator M} {f : Duel → Duel} (h : Idles c c')
    (hf : Idle c'.duel (f c'.duel)) : Idles c (c'.update f) :=
  h.trans (idles_update hf)

theorem Idles.note {c c' : Coordinator M} (h : Idles c c') (level : Level) (message : String) :
    Idles c (c'.update (·.note level message)) :=
  h.trans ⟨rfl, idle_note _ _ _⟩

theorem Idles.over {c c' : Coordinator M} (h : Idles c c') (ho : c.duel.phase = .over) :
    c'.duel.phase = .over :=
  h.duel.phase.trans ho

variable (tell : Notification → Coordinator M → Coordinator M)

theorem idles_endMatch_over {c : Coordinator M} (ho : c.duel.phase = .over) (winner : Player)
    (reason : GameResult) : Idles c (c.endMatch tell winner reason) := by
  obtain ⟨message, h⟩ := fire_over ho .endMatch
  simp only [endMatch, onDuel, h]
  exact ⟨rfl, c.duel.idle_note _ _⟩

theorem idles_start_started {c : Coordinator M} (hs : c.duel.started = true) :
    Idles c (c.start tell) := by
  unfold start
  rw [if_pos hs]
  exact ⟨rfl, c.duel.idle_note _ _⟩

/-- What players ask beside a start of the match and a report of its end. -/
theorem steers_handle {c : Coordinator M} {r : Request}
    (hs : c.duel.started = true ∨ r ≠ .start) (hr : r.actsOnWorld = false)
    (hr' : r.isReport = false) :
    (c.handle tell r).2.memory = c.memory ∧ Steers c.duel (c.handle tell r).2.duel := by
  cases r with
  | start =>
    have hi := idles_start_started tell (hs.resolve_right fun h => h rfl)
    exact ⟨hi.memory, hi.duel.steers⟩
  | setScript p script =>
    have h := c.duel.steers_setScript p script
    simp only [handle, onDuel]
    split <;> exact ⟨rfl, h⟩
  | beginEditing p => exact ⟨rfl, c.duel.steers_beginEditing p⟩
  | endEditing p => exact ⟨rfl, c.duel.steers_endEditing p⟩
  | execute p => exact ⟨rfl, c.duel.steers_execute p⟩
  | setContinuous on => exact ⟨rfl, c.duel.steers_setContinuous on⟩
  | toggleContinuous => exact ⟨rfl, c.duel.steers_setContinuous _⟩
  | position p => exact ⟨rfl, (Idle.refl _).steers⟩
  | facing p => exact ⟨rfl, (Idle.refl _).steers⟩
  | lost p => cases hr'
  | exited p => cases hr'
  | shootAt p cell => cases hr
  | tryMove p dir => cases hr
  | radarFor p => cases hr

/-- No request of a player changes the world of a match that is over, if it was started before it
ended. -/
theorem idles_handle_over {c : Coordinator M} (ho : c.duel.phase = .over) {r : Request}
    (hs : c.duel.started = true ∨ r ≠ .start) (hr : r.actsOnWorld = false) :
    Idles c (c.handle tell r).2 := by
  cases hr' : r.isReport with
  | false =>
    obtain ⟨hm, hsteers⟩ := steers_handle tell hs hr hr'
    exact ⟨hm, hsteers.settled ho⟩
  | true =>
    cases r with
    | lost p => exact idles_endMatch_over tell ho _ _
    | exited p => exact idles_endMatch_over tell ho _ _
    | _ => cases hr'

theorem idles_finishRun_over {c : Coordinator M} (ho : c.duel.phase = .over) (id : Nat)
    (result : ExecutionResult) : Idles c (c.finishRun tell id result) := by
  have hlast : Idles c (c.update ({ · with lastExecution := some result })) :=
    ⟨rfl, idle_beside⟩
  unfold finishRun
  dsimp only
  rw [if_pos (by simpa [update, isOver] using ho)]
  exact hlast.update (idle_endTask _ _ _)

/-- A run that finds the match over leaves the rest of its actions alone. -/
theorem idles_act_over {c : Coordinator M} (ho : c.duel.phase = .over) (id : Nat) (p : Player)
    (executed : List String) (rest : List Action) : Idles c (c.act tell id p executed rest) := by
  cases rest with
  | nil => exact idles_finishRun_over tell ho id _
  | cons a later =>
    rw [act, if_pos (by simpa [isOver] using ho)]
    have hnoted : Idles c (c.update (·.record (Execution.abandonedRecord p (later.length + 1)))) :=
      ⟨rfl, idle_beside⟩
    exact hnoted.trans (idles_finishRun_over tell (hnoted.over ho) id _)

theorem idles_beginRun_over {c : Coordinator M} (ho : c.duel.phase = .over) (id : Nat)
    (p : Player) : Idles c (c.beginRun tell id p) := by
  unfold beginRun
  dsimp only
  have hread : Idles c (c.update fun d => { d with
      journal := (Script.parseGiven p (c.duel.scripts.get p)).records.reverse ++ d.journal }) :=
    ⟨rfl, idle_beside⟩
  split
  · exact hread.update (idle_endTask _ _ _)
  · rename_i actions _
    have hnoted := hread.note .info
      (word p ++ " executing " ++ toString actions.length ++ " action(s)")
    exact hnoted.trans (idles_act_over tell (hnoted.over ho) id p [] actions)

theorem idles_onTimeout_over {c : Coordinator M} (ho : c.duel.phase = .over) :
    Idles c (c.onTimeout tell) := by
  obtain ⟨message, h⟩ := fire_over ho .timeout
  simp only [onTimeout, onDuel, h]
  exact ⟨rfl, c.duel.idle_note _ _⟩

/-- No task changes the world of a match that is over. -/
theorem idles_runJob_over {c : Coordinator M} (ho : c.duel.phase = .over) (id : Nat) (job : Job) :
    Idles c (c.runJob tell id job) := by
  cases job with
  | caller => exact .refl c
  | begin p => exact idles_beginRun_over tell ho id p
  | act p rest executed => exact idles_act_over tell ho id p executed rest
  | pause result =>
    have hwoke : Idles c (c.update fun d => d.remember (.woke id d.turnNumber d.phase)) :=
      ⟨rfl, idle_remember _ nofun⟩
    have hbegun : Idles c ((c.update fun d => d.remember (.woke id d.turnNumber d.phase)).update
        Duel.beginTurn) :=
      hwoke.update ((steers_beginTurn _).settled (hwoke.over ho))
    exact hbegun.trans ⟨rfl, idle_endTask _ _ _⟩
  | timer =>
    unfold runJob
    dsimp only
    split
    · exact idles_update (idle_endTask _ _ _)
    · exact idles_update (idle_rest _ _ _ _)
  | tick passed total =>
    have hcounted : Idles c (c.update fun d => { d with remaining := d.timing.remaining passed }) :=
      ⟨rfl, idle_beside⟩
    unfold runJob
    dsimp only
    split
    · exact hcounted.update (idle_rest _ _ _ _)
    · have htimeout := hcounted.trans (idles_onTimeout_over tell (hcounted.over ho))
      exact htimeout.update (idle_endTask _ _ _)

theorem idles_runTask_over {c : Coordinator M} (ho : c.duel.phase = .over) (t : Task Job) :
    Idles c (c.runTask tell t) := by
  have hrunning : Idles c (c.update ({ · with running := some t.id })) :=
    ⟨rfl, idle_beside⟩
  unfold runTask
  dsimp only
  split
  · exact (hrunning.update (idle_endTask _ _ _)).update (idle_beside)
  · have hrun := hrunning.trans (idles_runJob_over tell (hrunning.over ho) t.id t.job)
    exact hrun.update (idle_beside)

/-- The first task in the queue makes its step, after it has been taken from there. -/
theorem step?_eq {c c' : Coordinator M} (h : c.step? tell = some c') :
    ∃ t ready, c.duel.schedule.ready = t :: ready ∧ t.job ≠ .caller ∧
      c' = (c.update fun d => { d with schedule := { d.schedule with ready } }).runTask tell t := by
  unfold step? Schedule.next? at h
  cases hr : c.duel.schedule.ready with
  | nil => simp [hr] at h
  | cons t ready =>
    simp only [hr] at h
    cases hj : t.job with
    | caller => simp [hj] at h
    | _ =>
      simp only [hj, Option.some.injEq] at h
      exact ⟨t, ready, rfl, by simp [hj], h.symm⟩

/-- The step of the first task in the queue, by whether the task was called off. -/
theorem step?_taken {c c' : Coordinator M} (h : c.step? tell = some c') :
    ∃ t ready, c.duel.schedule.ready = t :: ready ∧ t.job ≠ .caller ∧
      let x : Coordinator M := ⟨c.duel.taken t ready, c.memory⟩
      c' = (if t.cancelled then x.endTask t.id .cancelled
        else x.runJob tell t.id t.job).update ({ · with running := none }) :=
  step?_eq tell h

theorem idles_step?_over {c c' : Coordinator M} (ho : c.duel.phase = .over)
    (h : c.step? tell = some c') : Idles c c' := by
  obtain ⟨t, ready, -, -, rfl⟩ := step?_eq tell h
  have htaken : Idles c (c.update fun d => { d with schedule := { d.schedule with ready } }) :=
    ⟨rfl, idle_beside⟩
  exact htaken.trans (idles_runTask_over tell (htaken.over ho) t)

theorem idles_wake? {c c' : Coordinator M} (h : c.wake? = some c') : Idles c c' := by
  unfold wake? at h
  obtain ⟨schedule, -, rfl⟩ := Option.map_eq_some_iff.mp h
  exact ⟨rfl, idle_beside⟩

end Coordinator

end Turn

end MazeDuel
