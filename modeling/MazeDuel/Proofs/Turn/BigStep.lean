import Mathlib.Data.List.Induction
import Mathlib.Data.List.Infix
import MazeDuel.Proofs.Turn.Moments
import MazeDuel.Proofs.Turn.Queue
import MazeDuel.Proofs.Turn.Underway
/-!
A turn as a whole: a run that is accepted comes to what the rules make of its program, whatever
players ask and other tasks do between its steps.
-/

namespace MazeDuel.Turn

/-- Whether something that happens is no request, or one with which players prepare their runs and
start them. -/
def Happening.isForRun : Happening → Bool
  | .request r => r.isForRun
  | _ => true

namespace Duel

open Deed

variable {d d' : Duel} {r : Accepted} {program : List Action}

theorem execute_accepted (hs : d.started = true) (hp : d.phase = .idle ∨ d.phase = .editing) :
    ∃ message, d.execute d.current =
      (true, ({ d.note .debug message with phase := .executing }).accept d.current) := by
  have hover : d.isOver = false := by rcases hp with hp | hp <;> simp [isOver, hp]
  have haccepts : d.accepts d.current "request_execute" = (true, d) := by
    simp [accepts, hover]
  rcases d.fire_cases .execute with ⟨hn, -⟩ | ⟨phase, message, hn, hf⟩
  · rcases hp with hp | hp <;> simp [hp, Phase.next?] at hn
  · obtain ⟨-, rfl⟩ := Phase.next?_execute hn
    refine ⟨message, ?_⟩
    unfold execute
    rw [if_neg (by simp [hs]), haccepts]
    simp only [hf]

/-- What a run will come to when it is accepted now. -/
def bid (d : Duel) (program : List Action) : Accepted :=
  let outcome := d.standing.play d.current program
  ⟨d.cancelTimer.schedule.fresh, d.current, d.continuous, d.timing, d.scripts, outcome.1, outcome.2⟩

/-- A run that has been accepted is on its way with all of its program. -/
theorem underway_accepted (hun : unfinished d.deeds = []) (hs : d.started = true)
    (ha : d.arena.Proper)
    (hread : d.program? (.begin d.current) = some (d.current, program, [])) (message : String)
    (hapart : Apart ({ d.note .debug message with phase := .executing }.accept d.current) d')
    (hstill : Still d')
    (ht : { id := (d.bid program).id, job := .begin d.current } ∈ d'.schedule.tasks) :
    Underway (d.bid program) program d' where
  toStill := hstill
  started := (congrArg Standing.started hapart.standing).trans hs
  busy := Or.inl hapart.phase
  mine := hapart.unfinished.trans
    (congrArg ((d.cancelTimer.schedule.fresh, d.current) :: ·) hun)
  untimed := hapart.timer
  mode _ := hapart.continuous
  timing := hapart.timing
  scripts := hapart.scripts
  proper := by
    have harena : d'.arena = d.arena := congrArg Standing.arena hapart.standing
    exact harena ▸ ha
  there := by
    refine ⟨.begin d.current, [], ht, (program?_congr hapart.scripts _).trans hread, ?_⟩
    rw [hapart.standing]
    rfl

/-- A run that is accepted from outside is on its way. -/
theorem underway_execute (h : Still d) (hs : d.started = true)
    (hp : d.phase = .idle ∨ d.phase = .editing) (ha : d.arena.Proper)
    (hread : d.program? (.begin d.current) = some (d.current, program, [])) :
    (d.execute d.current).1 = true ∧ (d.execute d.current).2.execution = some (d.bid program).id ∧
      Underway (d.bid program) program (d.execute d.current).2 := by
  obtain ⟨message, heq⟩ := execute_accepted hs hp
  have hstill : Still (d.execute d.current).2 := h.moves (moves_execute d d.current)
  rw [heq] at hstill ⊢
  exact ⟨rfl, rfl, underway_accepted (h.free hp) hs ha hread _ (.refl _) hstill
    ((Schedule.mem_tasks_spawn _ _ _).mpr (Or.inl rfl))⟩

theorem autoExecute_manual (hc : d.continuous = false) : d.autoExecute = d := by
  unfold autoExecute
  rw [hc]
  rfl

theorem beginTurn_manual (hp : d.phase = .idle) (hc : d.continuous = false) :
    d.beginTurn = d.startTimer := by
  have hbusy : d.isBusy = false := by simp [isBusy, hp]
  unfold beginTurn
  rw [hbusy]
  exact autoExecute_manual hc

/-- A run that has come to what the rules make of it. -/
structure Finished (r : Accepted) (d : Duel) : Prop where
  gone : d.isPending r.id = false
  outcome : d.outcome? r.id = some r.outcome
  standing : d.standing = r.standing
  scripts : d.scripts = r.scripts
  last : ∀ result, r.result = .ok result → d.lastExecution = some result

theorem Numbered.startTimer (h : Numbered d) : Numbered d.startTimer :=
  h.cancelTimer.cons (ids_spawn .timer rfl rfl) rfl

/-- Nobody waits from outside for another task than some run. -/
structure Unhindered (id : Nat) (d : Duel) : Prop where
  awaited : ∀ k, d.awaited = some k → k = id
  callers : ∀ t ∈ d.schedule.tasks, t.job ≠ .caller

theorem unhindered_execute (hs : d.started = true) (hp : d.phase = .idle ∨ d.phase = .editing)
    (hnobody : d.awaited = none) (hcallers : ∀ t ∈ d.schedule.tasks, t.job ≠ .caller) (id : Nat) :
    Unhindered id (d.execute d.current).2 := by
  obtain ⟨message, heq⟩ := execute_accepted hs hp
  rw [heq]
  refine ⟨fun k hk => ?_, fun t ht => ?_⟩
  · cases hnobody.symm.trans hk
  · rcases (Schedule.mem_tasks_spawn _ _ _).mp ht with rfl | ht
    · nofun
    · obtain ⟨u, hu, -, hjob⟩ := of_mem_cancelTimer ht
      exact hjob ▸ hcallers u hu

theorem Unhindered.rests {id : Nat} {t : Task Job} {ready : List (Task Job)} {k : Nat}
    (h : Unhindered id d) (hr : d.schedule.ready = t :: ready) (hs : Rests k (d.taken t ready) d') :
    Unhindered id d' where
  awaited k hk := h.awaited k (hs.awaited.symm.trans hk)
  callers u hu := by
    rcases hs.tasks u hu with hu | ⟨-, hj⟩
    · exact h.callers u (mem_tasks_taken hr hu)
    · exact hj

theorem Unhindered.beside {id : Nat} {t : Task Job} {ready : List (Task Job)}
    (h : Unhindered id d) (hr : d.schedule.ready = t :: ready) (hid : t.id ≠ id)
    (hb : Beside t.id (d.taken t ready) d') : Unhindered id d' :=
  h.rests hr (hb.rests fun hk => hid (h.awaited _ hk))

theorem Ends.finished (h : Ends r d d') (hn : Numbered d) (hr : d.running = some r.id)
    (hs : d.scripts = r.scripts) (hc : d.phase ≠ .over → d.continuous = false) : Finished r d' := by
  have hend {e : Duel} {result : ExecutionResult} (hok : r.result = .ok result) (hn : Numbered e)
      (hr : e.running = some r.id) (hstanding : e.standing = r.standing)
      (hscripts : e.scripts = d.scripts) (hlast : e.lastExecution = some result) :
      Finished r { e.endTask r.id (.done (some result)) with running := none } := by
    obtain ⟨schedule, awaited, heq⟩ := endTask_eq e r.id (.done (some result))
    refine ⟨gone_endTask hn hr _, ?_, ?_, ?_, fun other hother => ?_⟩
    · rw [Accepted.outcome_ok hok]
      exact outcome?_endTask _ _ _
    · rw [heq]
      exact hstanding
    · rw [heq]
      exact hscripts.trans hs
    · cases hok.symm.trans hother
      rw [heq]
      exact hlast
  cases h with
  | decided journal hok hover hstanding =>
    exact hend hok ⟨hn.nodup, hn.known⟩ hr hstanding rfl rfl
  | @passed e result handed hok hbusy hmanual hstanding =>
    obtain ⟨deeds, arena, log, journal, rfl⟩ := handed
    have hhanded : Numbered (d.handed (some result) deeds arena log journal) :=
      ⟨hn.nodup, hn.known⟩
    rw [beginTurn_manual rfl (by exact hmanual)]
    exact hend hok hhanded.startTimer hr hstanding rfl rfl
  | paused handed hok hbusy hon hstanding =>
    have hmanual := hc (by rw [hbusy]; decide)
    cases hon.symm.trans hmanual

/-- A run whose pauses can be kept fails as the rules say. -/
theorem Fails.finished (h : Fails r d d') (hf : r.timing.stepDelay.fitsReal) (hn : Numbered d)
    (hr : d.running = some r.id) (hs : d.scripts = r.scripts) : Finished r d' := by
  obtain ⟨fault, hfailed⟩ := h.failed hn hr
  have hresult := hfailed.why.result hf
  refine ⟨hfailed.gone, ?_, ?_, ?_, fun result hok => ?_⟩
  · rw [Accepted.outcome_error hresult]
    exact hfailed.outcome
  · cases h with
    | @broke e fault hwhy hschedule hawaited hrunning hscripts hphase hstanding =>
      obtain ⟨schedule, awaited, heq⟩ := endTask_eq e r.id (.failed fault)
      rw [heq]
      exact hstanding hf
  · cases h with
    | @broke e fault hwhy hschedule hawaited hrunning hscripts hphase hstanding =>
      obtain ⟨schedule, awaited, heq⟩ := endTask_eq e r.id (.failed fault)
      rw [heq]
      exact hscripts.trans hs
  · cases hresult.symm.trans hok

end Duel

namespace Coordinator

open Duel Deed

variable {M : Type} {l : Listener M} {tell : Notification → Coordinator M → Coordinator M}
  {c c' : Coordinator M} {r : Accepted} {program : List Action} {P : Arena → Prop}

theorem unhindered_request (h : Underway r program c.duel) {q : Request}
    (hq : q.isForRun = true) (hu : Unhindered r.id c.duel) :
    Unhindered r.id (c.request l q).2.duel := by
  obtain ⟨message, heq⟩ := handle_busy l.tell h.busy hq
  have hnoted : (c.request l q).2.duel = c.duel.note .debug message :=
    congrArg (fun x => x.2.duel) heq
  rw [hnoted]
  exact ⟨hu.awaited, hu.callers⟩

theorem unhindered_wake? {id : Nat} (hu : Unhindered id c.duel) (hc : c.wake? = some c') :
    Unhindered id c'.duel := by
  unfold Coordinator.wake? at hc
  obtain ⟨schedule, hw, rfl⟩ := Option.map_eq_some_iff.mp hc
  exact ⟨hu.awaited, fun t ht => hu.callers t ((Schedule.tasks_wake? hw t).mp ht)⟩

/-- What everything keeps that happens to an arena holds through every history. -/
theorem steadfast_live {seen : M → List Duel} (hl : Fair seen l) (hP : Arena.Steadfast P)
    (hs : Still c.duel) (h : P c.duel.arena) (es : List Episode) : P (c.live l es).duel.arena := by
  have hkeeps : Keeping P l.tell := keeping_tell hl hP.begun
  refine And.right (a := Still (c.live l es).duel) ?_
  refine live_keeps (P := fun x => Still x.duel ∧ P x.duel.arena) ?_ ⟨hs, h⟩
  intro x e _ hx
  refine keeps_undergo (P := fun x => Still x.duel ∧ P x.duel.arena) ?_ ?_ ?_ ?_ hx
  · intro x x' hstep ⟨hs, h⟩
    refine ⟨still_step? (tells_tell l) hs hstep, ?_⟩
    have hstarted := started_of_step? hs.vacant hstep
    obtain ⟨t, ready, hr, -, rfl⟩ := step?_taken l.tell hstep
    let taken : Coordinator M := ⟨x.duel.taken t ready, x.memory⟩
    split
    · exact (aside_endTask taken.duel _ _).keeps h
    · refine hkeeps.runJob (c := taken) hP.begun (fun _ _ => hP.actions _)
        (hs.toSolo.sole hs.still hstarted hr).bound ?_
      unfold closing
      split
      · split
        · exact h
        · exact hP.ended _ _ h
      · exact h
  · intro x x' hwake ⟨hs, h⟩
    refine ⟨still_wake? hs hwake, ?_⟩
    unfold wake? at hwake
    obtain ⟨schedule, -, rfl⟩ := Option.map_eq_some_iff.mp hwake
    exact h
  · exact fun _ awaited _ hv ⟨hs, h⟩ => ⟨hs.visited hv awaited, h⟩
  · exact fun q _ => ⟨hx.1.moves (moves_request l q x),
      hkeeps.handle hP.begun (fun _ => hP.actions) hx.2⟩

/-- A run that is on its way stays on its way, or comes to its end, whatever happens next. -/
theorem underway_happen (ht : Passive l.tell) (hmanual : r.continuous = false)
    (hf : r.timing.stepDelay.fitsReal) (h : Underway r program c.duel) {x : Happening}
    (hx : x.isForRun = true) :
    (∃ later, Underway r later (c.happen l x).duel ∧
      (Unhindered r.id c.duel → Unhindered r.id (c.happen l x).duel)) ∨
      Finished r (c.happen l x).duel := by
  cases x with
  | request q => exact Or.inl ⟨program, underway_request h hx, unhindered_request h hx⟩
  | wake =>
    unfold happen
    cases hw : c.wake? with
    | none => exact Or.inl ⟨program, h, id⟩
    | some c' => exact Or.inl ⟨program, underway_wake? h hw, fun hu => unhindered_wake? hu hw⟩
  | clock now =>
    refine Or.inl ⟨program, h.apart (apart_beside rfl) ?_ fun _ ht => ht,
      fun hu => ⟨hu.awaited, hu.callers⟩⟩
    exact h.toStill.visited (visited_clock c.duel now) c.duel.awaited
  | step =>
    unfold happen
    cases hstep : c.step? l.tell with
    | none => exact Or.inl ⟨program, h, id⟩
    | some c' =>
      obtain ⟨t, ready, hr, -⟩ := step?_eq l.tell hstep
      have hnumbered : Numbered (c.duel.taken t ready) := (h.toSolo.taken h.still hr).toNumbered
      by_cases hid : t.id = r.id
      · rcases underway_step_own ht h hr hid hstep with
          ⟨a, later, -, ⟨hlater, hrests⟩ | hfails⟩ | hends
        · exact Or.inl ⟨later, hlater, fun hu => hu.rests hr hrests⟩
        · exact Or.inr (hfails.finished hf hnumbered (congrArg some hid) h.scripts)
        · refine Or.inr (hends.finished hnumbered (congrArg some hid) h.scripts fun hp => ?_)
          exact (h.mode hp).trans hmanual
      · obtain ⟨hnext, hbeside⟩ := underway_step_other ht.tells h hr hid hstep
        exact Or.inl ⟨program, hnext, fun hu => hu.beside hr hid hbeside⟩

/-- A run is on its way for as long as its task is pending. -/
theorem underway_after (ht : Passive l.tell) (hmanual : r.continuous = false)
    (hf : r.timing.stepDelay.fitsReal) (h : Underway r program c.duel) {hs : List Happening}
    (hhs : ∀ x ∈ hs, x.isForRun = true)
    (hpending : ∀ hs', hs' <+: hs → (c.after l hs').duel.isPending r.id = true) :
    ∃ later, Underway r later (c.after l hs).duel ∧
      (Unhindered r.id c.duel → Unhindered r.id (c.after l hs).duel) := by
  induction hs using List.reverseRecOn with
  | nil => exact ⟨program, h, id⟩
  | append_singleton hs x ih =>
    obtain ⟨later, hlater, hkept⟩ := ih (fun y hy => hhs y (List.mem_append_left _ hy))
      fun hs' hp => hpending hs' (hp.trans (List.prefix_append _ _))
    have hx := hpending (hs ++ [x]) (List.prefix_refl _)
    rw [after_concat] at hx ⊢
    rcases underway_happen ht hmanual hf hlater (hhs x (by simp)) with
      ⟨next, hnext, hkept'⟩ | hfinished
    · exact ⟨next, hnext, fun hu => hkept' (hkept hu)⟩
    · cases hfinished.gone.symm.trans hx

/-! ## The end comes -/

/-- A run that is on its way waits in the queue while nobody else is waited for. -/
theorem waiting_underway (ht : Passive l.tell) (r : Accepted) (program : List Action) :
    Waiting l r.id fun x => Underway r program x.duel ∧ Unhindered r.id x.duel where
  there h := by
    obtain ⟨job, -, hmem, -⟩ := h.1.there
    exact ⟨_, hmem, rfl⟩
  callers h := h.2.callers
  wakes h hwake := ⟨underway_wake? h.1 hwake, unhindered_wake? h.2 hwake⟩
  steps h hr hid hstep := by
    obtain ⟨hnext, hbeside⟩ := underway_step_other ht.tells h.1 hr hid hstep
    exact ⟨⟨hnext, h.2.beside hr hid hbeside⟩, hbeside.room.ready⟩

/-- A run comes to the step with which it ends or fails. -/
theorem underway_last (ht : Passive l.tell) (h : Underway r program c.duel)
    (hu : Unhindered r.id c.duel) :
    ∃ hs, (∀ x ∈ hs, x = .step ∨ x = .wake) ∧ let x := c.after l hs
      ∃ later t ready x', Underway r later x.duel ∧ Unhindered r.id x.duel ∧
        x.duel.schedule.ready = t :: ready ∧ t.id = r.id ∧ x.step? l.tell = some x' ∧
          (Ends r (x.duel.taken t ready) x'.duel ∨ Fails r (x.duel.taken t ready) x'.duel) := by
  induction program generalizing c with
  | nil =>
    obtain ⟨hs, hsteps, ⟨h', hu'⟩, t, ready, x', hr, hid, hstep⟩ :=
      (waiting_underway ht r []).turn ⟨h, hu⟩
    rcases underway_step_own ht h' hr hid hstep with ⟨a, later, hnil, -⟩ | hends
    · cases hnil
    · exact ⟨hs, hsteps, [], t, ready, x', h', hu', hr, hid, hstep, Or.inl hends⟩
  | cons a later ih =>
    obtain ⟨hs, hsteps, ⟨h', hu'⟩, t, ready, x', hr, hid, hstep⟩ :=
      (waiting_underway ht r (a :: later)).turn ⟨h, hu⟩
    rcases underway_step_own ht h' hr hid hstep with
      ⟨a', later', heq, ⟨hlater, hrests⟩ | hfails⟩ | hends
    · cases heq
      obtain ⟨hs', hsteps', hx⟩ := ih hlater (hu'.rests hr hrests)
      refine ⟨hs ++ .step :: hs', fun x hx => ?_, ?_⟩
      · rcases List.mem_append.mp hx with hx | hx
        · exact hsteps x hx
        · rcases List.mem_cons.mp hx with rfl | hx
          · exact Or.inl rfl
          · exact hsteps' x hx
      · rw [after_append, after_cons, happen_step hstep]
        exact hx
    · exact ⟨hs, hsteps, _, t, ready, x', h', hu', hr, hid, hstep, Or.inr hfails⟩
    · exact ⟨hs, hsteps, _, t, ready, x', h', hu', hr, hid, hstep, Or.inl hends⟩

/-- A run whose pauses can be kept comes to what the rules make of it in a last step. -/
theorem underway_finishes (ht : Passive l.tell) (hmanual : r.continuous = false)
    (hf : r.timing.stepDelay.fitsReal) (h : Underway r program c.duel)
    (hu : Unhindered r.id c.duel) :
    ∃ hs, (∀ x ∈ hs, x = .step ∨ x = .wake) ∧ Unhindered r.id (c.after l hs).duel ∧
      Finished r (c.after l (hs ++ [.step])).duel := by
  obtain ⟨hs, hsteps, later, t, ready, x', h', hu', hr, hid, hstep, hlast⟩ := underway_last ht h hu
  have hnumbered := (h'.toSolo.taken h'.still hr).toNumbered
  refine ⟨hs, hsteps, hu', ?_⟩
  rw [after_concat, happen_step hstep]
  rcases hlast with hends | hfails
  · refine hends.finished hnumbered (congrArg some hid) h'.scripts fun hp => ?_
    exact (h'.mode hp).trans hmanual
  · exact hfails.finished hf hnumbered (congrArg some hid) h'.scripts

theorem steps_concat {hs : List Happening} (h : ∀ x ∈ hs, x = .step ∨ x = .wake) :
    ∀ x ∈ hs ++ [.step], x = .step ∨ x = .wake := by
  intro x hx
  rcases List.mem_append.mp hx with hx | hx
  · exact h x hx
  · exact Or.inl (List.mem_singleton.mp hx)

/-- A turn comes to what the rules make of it. Once the player to move has had a run accepted, and
if its pauses can be kept, its task ends with the result, and leaves how the match stands, as the
rules say, whatever requests for runs come while it is on its way and whatever other tasks do. And
if all delays are short and nobody waits from outside, then some steps and wakings always lead to
its end, and the clock shows finite times until then if all sleepers wait for finite moments. -/
theorem run_big_step {grid : Grid} {a b : Combatant} {damage : Quantity} {arena : Arena}
    (harena : Arena.make grid a b damage = .ok arena) (timing : Timing) (scripts : Duo Json)
    (memory : M) {seen : M → List Duel} (hl : Mute seen l) (es : List Episode) :
    let c := (fresh arena timing scripts memory).live l es
    let p := c.duel.current
    c.duel.started = true → c.duel.phase = .idle ∨ c.duel.phase = .editing →
      c.duel.continuous = false → c.duel.timing.stepDelay.fitsReal →
      ∀ actions, (Script.parseGiven p (c.duel.scripts.get p)).value = .ok actions →
        let x := c.request l (.execute p)
        let r := c.duel.bid actions
        x.1 = .flag true ∧ x.2.duel.execution = some r.id ∧
          ∀ hs, (∀ y ∈ hs, y.isForRun = true) →
            (∀ hs', hs' <+: hs → (x.2.after l hs').duel.isPending r.id = true) →
            (∀ y, y.isForRun = true →
              let d := (x.2.after l (hs ++ [y])).duel
              d.isPending r.id = false → Finished r d) ∧
            (c.duel.timing.Short → c.duel.awaited = none →
              (∀ t ∈ c.duel.schedule.tasks, t.job ≠ .caller) →
                ∃ hs', (∀ y ∈ hs', y = .step ∨ y = .wake) ∧
                  Finished r (x.2.after l (hs ++ hs')).duel ∧
                  (Clocked (fun _ => true) (x.2.after l hs).duel →
                    (x.2.after l hs).OnClock l hs')) := by
  intro c p hstarted hp hmanual hf actions hactions x r
  have ht : Passive l.tell := passive_tell hl
  have hstill : Still c.duel := still_live (still_fresh arena timing scripts) es
  have hproper : c.duel.arena.Proper := steadfast_live hl.fair Arena.steadfast_proper
    (still_fresh arena timing scripts) (Arena.proper_make harena) es
  have hread : c.duel.program? (.begin p) = some (p, actions, []) := by
    simp [program?, hactions, Except.toOption]
  obtain ⟨hreply, hid, hway⟩ := underway_execute hstill hstarted hp hproper hread
  have hway : Underway r actions x.2.duel := hway
  refine ⟨congrArg Reply.flag hreply, hid, fun hs hforRun hpending => ?_⟩
  obtain ⟨later, hlater, hkept⟩ := underway_after ht hmanual hf hway hforRun hpending
  constructor
  · intro y hy d hgone
    have hd : d = ((x.2.after l hs).happen l y).duel := congrArg duel (after_concat l x.2 hs y)
    rw [hd] at hgone ⊢
    rcases underway_happen ht hmanual hf hlater hy with ⟨next, hnext, -⟩ | hdone
    · cases hgone.symm.trans hnext.pending
    · exact hdone
  · intro hshort hnobody hcallers
    have hu : Unhindered r.id x.2.duel := unhindered_execute hstarted hp hnobody hcallers _
    obtain ⟨before, hbefore, -, hfinished⟩ := underway_finishes ht hmanual hf hlater (hkept hu)
    have hsteps := steps_concat hbefore
    refine ⟨before ++ [.step], hsteps, ?_, fun hclocked => ?_⟩
    · rw [after_append]
      exact hfinished
    · have htiming : (x.2.after l hs).duel.timing = c.duel.timing := hlater.timing
      rw [← htiming] at hshort
      exact (clocked_steps (fun job hj _ => hshort.delay hj) hclocked hsteps
        fun _ _ _ _ => rfl).1

theorem run_big_step_past_requests :
    let c := (fresh luringField { turnDelay := .whole 1 } ⟨.text "MoveRight()", .null⟩ ()).live
      .silent [.happening (.request .start)]
    let x := c.request .silent (.execute .a)
    let r := c.duel.bid [⟨.a, .move .right⟩]
    x.1 = .flag true ∧
      Finished r (x.2.after .silent [.step, .request (.setScript .a (.text "MoveDown()")), .step,
        .request (.execute .b), .wake, .step]).duel ∧
      r.result = .ok ⟨.a, ["MoveRight"], 0⟩ ∧ r.standing.current = .b ∧
      (r.standing.arena.position .a).same (.cell ⟨1, 0⟩) := by
  intro c x r
  have hmake : Arena.make luringField.grid (standing .a ⟨0, 0⟩) (standing .b ⟨4, 4⟩) (.whole 20) =
      .ok luringField := rfl
  have hmute : Mute (fun _ : Unit => []) .silent := fun _ _ _ => trivial
  have hprogram : c.duel.program? (.begin .a) = some (.a, [⟨.a, .move .right⟩], []) := by
    decide +kernel
  obtain ⟨-, -, hactions⟩ := parseGiven_of_program? hprogram
  obtain ⟨hreply, -, hrun⟩ := run_big_step hmake { turnDelay := .whole 1 }
    ⟨.text "MoveRight()", .null⟩ () hmute [.happening (.request .start)] (by decide +kernel)
    (by decide +kernel) (by decide +kernel) (by decide +kernel) _ hactions
  let hs : List Happening := [.step, .request (.setScript .a (.text "MoveDown()")), .step,
    .request (.execute .b), .wake]
  have hpending : ∀ hs' ∈ hs.inits, (x.2.after .silent hs').duel.isPending r.id = true := by
    decide +kernel
  have hends := (hrun hs (by decide) fun hs' hp => hpending hs' ((List.mem_inits _ _).mpr hp)).1
    .step rfl (by decide +kernel)
  exact ⟨hreply, hends, rfl, by decide +kernel, by decide +kernel⟩

/-- A pause that no clock can keep ends a run after its first action: the task fails, and the turn
is not passed on. -/
theorem long_pause_keeps_turn :
    let c := (fresh luringField { stepDelay := .whole (10 ^ 400) }
      ⟨.text "MoveRight()", .null⟩ ()).live .silent [.happening (.request .start)]
    let x := c.request .silent (.execute .a)
    let r := c.duel.bid [⟨.a, .move .right⟩]
    let d := (x.2.after .silent [.step, .step]).duel
    x.1 = .flag true ∧ d.isPending r.id = false ∧ ¬ Finished r d ∧
      d.phase = .executing ∧ d.current = .a ∧ r.standing.current = .b := by
  intro c x r d
  have hcurrent : d.current = .a := by decide +kernel
  have hpassed : r.standing.current = .b := by decide +kernel
  refine ⟨rfl, by decide +kernel, fun hfinished => ?_, by decide +kernel, hcurrent, hpassed⟩
  cases (hcurrent.symm.trans (congrArg Standing.current hfinished.standing)).trans hpassed

end Coordinator

end MazeDuel.Turn
