import MazeDuel.Proofs.Turn.Pending
import MazeDuel.Proofs.Turn.Queue
import MazeDuel.Proofs.Turn.Solo
import MazeDuel.Proofs.Turn.Terrain
import MazeDuel.Proofs.World.Pickups
/-!
What is upheld: what the step of a task makes of how a match stands by itself, before anybody hears
of it, and what of that survives whatever listeners ask while they are told, and players in between.
-/

namespace MazeDuel.Turn

namespace Standing

/-- Whether the player to move may ask for something. -/
def Askable (s : Standing) : Prop := s.phase = .idle ∨ s.phase = .editing

/-- Whether a script may run, or the match is over that was started. -/
def Busy (s : Standing) : Prop := s.started = true ∧ ¬ s.Askable

theorem not_askable_executing {s : Standing} (h : s.phase = .executing) : ¬ s.Askable := by
  rintro (ha | ha) <;> cases h.symm.trans ha

theorem not_askable_over {s : Standing} (h : s.phase = .over) : ¬ s.Askable := by
  rintro (ha | ha) <;> cases h.symm.trans ha

theorem events_hear {s : Standing} (h : s.log.limit = .null) (n : Notification) :
    (s.hear n).log.events = s.log.events ++ [n] :=
  EventLog.events_record _ _ h

/-- The end of a match, as far as it has come when the listener hears of it. -/
def struck (s : Standing) (winner : Player) (reason : GameResult) : Standing :=
  { s.hear (.matchEnded winner winner.other reason) with
    phase := .over, winner := some winner, result := reason }

/-- What an action does before anybody hears of it. -/
def attempt (s : Standing) (p : Player) (command : Command) : Standing :=
  { s with arena := s.arena.attempt p command }

/-- A shot, as far as it has come when the listener hears of it, or it fails. -/
def fire (s : Standing) (p : Player) (cell : Place) : Standing :=
  match (s.arena.shootAt p cell).value with
  | (.error _, arena) => { s with arena }
  | (.ok shot, arena) => { s with arena }.hear (.shot shot)

theorem fire_cases (s : Standing) (p : Player) (cell : Place) :
    let shot := (s.arena.shootAt p cell).value
    (∃ fault, shot.1 = .error fault ∧ s.fire p cell = { s with arena := shot.2 }) ∨
      ∃ result, shot.1 = .ok result ∧
        s.fire p cell = { s with arena := shot.2 }.hear (.shot result) := by
  unfold fire
  rcases (s.arena.shootAt p cell).value with ⟨fault | result, arena⟩
  · exact Or.inl ⟨fault, rfl, rfl⟩
  · exact Or.inr ⟨result, rfl, rfl⟩

/-- A pickup that is there, as far as it has come when the listener hears of it. -/
def gather (s : Standing) (p : Player) (powerup : Powerup) : Standing :=
  { s with arena := (s.arena.pickUp p).value.2 }.hear (.powerupCollected p powerup)

/-- What the next step of a run does: it begins the next action, or ends the turn. -/
def proceed (s : Standing) (p : Player) (rest : List Action) : Standing :=
  if s.isOver then s
  else match rest with
    | [] => s.endTurn p
    | a :: _ => s.attempt p a.command

theorem proceed_over {s : Standing} (h : s.phase = .over) (p : Player) (rest : List Action) :
    s.proceed p rest = s := by
  simp [proceed, isOver, h]

theorem proceed_nil {s : Standing} (h : s.phase ≠ .over) (p : Player) :
    s.proceed p [] = s.endTurn p := by
  simp [proceed, isOver, h]

theorem proceed_cons {s : Standing} (h : s.phase ≠ .over) (p : Player) (a : Action)
    (later : List Action) : s.proceed p (a :: later) = s.attempt p a.command := by
  simp [proceed, isOver, h]

end Standing

namespace Duel

/-- What the step of a task makes of how a match stands by itself: a run begins its next action or
ends its turn, and a timer passes the turn on after its last tick. -/
def advanced (d : Duel) (job : Job) : Standing :=
  match d.program? job with
  | some (p, rest, _) => d.standing.proceed p rest
  | none => if job.isLastTick && !d.isBusy then d.standing.pass d.current else d.standing

/-- What the first task in the queue makes of how a match stands by itself. -/
def next (d : Duel) : Standing :=
  match d.schedule.ready with
  | [] => d.standing
  | t :: _ => if t.cancelled then d.standing else d.advanced t.job

/-- What a request makes of how a match stands by itself. Requests that act on the world are like
actions; all others are left to those who hear of them. -/
def asked (d : Duel) : Request → Standing
  | .tryMove p dir => d.standing.attempt p (.move dir)
  | .radarFor p => d.standing.attempt p (.shoot [])
  | .shootAt p cell => d.standing.fire p cell
  | _ => d.standing

theorem asked_peaceful (d : Duel) {r : Request} (hr : r.actsOnWorld = false) :
    d.asked r = d.standing := by
  cases r <;> first | rfl | cases hr

/-- Whether the first task in the queue makes an action of a player. -/
def Acting (d : Duel) (p : Player) : Prop :=
  d.phase ≠ .over ∧ ∃ t ready a later executed, d.schedule.ready = t :: ready ∧
    t.cancelled = false ∧ d.program? t.job = some (p, a :: later, executed)

/-- What anything that happens makes of how a match stands by itself. -/
def upon (d : Duel) : Happening → Standing
  | .step => d.next
  | .request r => d.asked r
  | _ => d.standing

theorem advanced_taken (d : Duel) (t : Task Job) (ready : List (Task Job)) :
    (d.taken t ready).advanced t.job = d.advanced t.job := by
  unfold advanced
  cases t.job <;> rfl

/-- What the step of the first task in the queue comes to: an action of the player to move, the end
of their run, the end of their time, or nothing that matters for how the match stands. -/
inductive Due (d : Duel) : Prop where
  | act {t : Task Job} {ready : List (Task Job)} {a : Action} {later : List Action}
      {executed : List String} (hs : d.started = true) (hr : d.schedule.ready = t :: ready)
      (hc : t.cancelled = false) (hbusy : d.phase = .executing)
      (hp : d.program? t.job = some (d.current, a :: later, executed))
      (hplayer : a.player = d.current) (hnext : d.next = d.standing.attempt d.current a.command)
  | finish {t : Task Job} {ready : List (Task Job)} {executed : List String}
      (hs : d.started = true) (hr : d.schedule.ready = t :: ready) (hc : t.cancelled = false)
      (hbusy : d.phase = .executing) (hp : d.program? t.job = some (d.current, [], executed))
      (hidle : ∀ p, ¬ d.Acting p) (hnext : d.next = d.standing.endTurn d.current)
  | expire {t : Task Job} {ready : List (Task Job)} (hs : d.started = true)
      (hr : d.schedule.ready = t :: ready) (hc : t.cancelled = false)
      (hlast : t.job.isLastTick = true) (hask : d.phase = .idle ∨ d.phase = .editing)
      (hidle : ∀ p, ¬ d.Acting p) (hnext : d.next = d.standing.pass d.current)
  | stay (hnext : d.next = d.standing)
      (hover : ∀ t ready p rest executed, d.schedule.ready = t :: ready → t.cancelled = false →
        d.program? t.job = some (p, rest, executed) → d.phase = .over)

/-- Nobody acts if the match is over whenever the first task in the queue has an action to make. -/
theorem not_acting {d : Duel} (hover : ∀ t ready p a later executed,
    d.schedule.ready = t :: ready → t.cancelled = false →
      d.program? t.job = some (p, a :: later, executed) → d.phase = .over) (p : Player) :
    ¬ d.Acting p := by
  rintro ⟨ho, t, ready, a, later, executed, hr, hc, hp⟩
  exact ho (hover t ready p a later executed hr hc hp)

theorem Still.due {d : Duel} (h : Still d) : Due d := by
  cases hr : d.schedule.ready with
  | nil =>
    refine .stay ?_ ?_
    · simp only [next, hr]
    · intro t ready p rest executed hr'
      cases hr.symm.trans hr'
  | cons t ready =>
    cases hc : t.cancelled with
    | true =>
      refine .stay ?_ ?_
      · simp only [next, hr, if_pos hc]
      · intro t' ready' p rest executed hr' hc'
        cases hr.symm.trans hr'
        cases hc.symm.trans hc'
    | false =>
      have hs (hj : t.job ≠ .caller) : d.started = true :=
        h.vacant.resolve_right fun hv => hj (hv t (tasks_of_ready hr))
      have hnext : d.next = d.advanced t.job := by
        simp only [next, hr]
        rw [if_neg (by simp [hc])]
      cases hp : d.program? t.job with
      | some x =>
        obtain ⟨p, rest, executed⟩ := x
        obtain ⟨hplayer, hown⟩ := program?_own hp
        have hproceed : d.next = d.standing.proceed p rest := by
          rw [hnext]
          simp only [advanced, hp]
        by_cases ho : d.phase = .over
        · refine .stay (hproceed.trans (Standing.proceed_over ho p rest)) ?_
          exact fun _ _ _ _ _ _ _ _ => ho
        · obtain ⟨hbusy, hcurrent, -⟩ :=
            h.executing_of_mem (h.runs t (tasks_of_ready hr) p hplayer) ho
          obtain rfl : p = d.current := hcurrent
          have hs : d.started = true := hs fun hj => by simp [hj, program?] at hp
          cases rest with
          | nil =>
            refine .finish hs hr hc hbusy hp (not_acting ?_)
              (hproceed.trans (Standing.proceed_nil ho _))
            intro t' ready' p a later executed' hr' _ hp'
            cases hr.symm.trans hr'
            cases hp.symm.trans hp'
          | cons a later =>
            refine .act hs hr hc hbusy hp ?_ (hproceed.trans (Standing.proceed_cons ho _ a later))
            exact hown (h.own t (tasks_of_ready hr)) a (List.mem_cons_self ..)
      | none =>
        simp only [advanced, hp] at hnext
        by_cases hlast : t.job.isLastTick = true ∧ d.isBusy = false
        · rw [if_pos (by simp [hlast])] at hnext
          have hs : d.started = true := hs fun hj => by simp [hj, Job.isLastTick] at hlast
          refine .expire hs hr hc hlast.1 ((isBusy_eq_false d).mp hlast.2) (not_acting ?_) hnext
          intro t' ready' p a later executed hr' _ hp'
          cases hr.symm.trans hr'
          cases hp.symm.trans hp'
        · rw [if_neg (by simpa using hlast)] at hnext
          refine .stay hnext ?_
          intro t' ready' p rest executed hr' _ hp'
          cases hr.symm.trans hr'
          cases hp.symm.trans hp'

theorem standing_endTask (d : Duel) (id : Nat) (outcome : Outcome) :
    (d.endTask id outcome).standing = d.standing := by
  obtain ⟨schedule, awaited, heq⟩ := endTask_eq d id outcome
  rw [heq]
  rfl

theorem standing_rest (d : Duel) (id : Nat) (job : Job) (delay : Quantity) :
    (d.rest id job delay).standing = d.standing := by
  obtain ⟨schedule, awaited, outcomes, heq⟩ := d.rest_beside id job delay
  rw [heq]
  rfl

end Duel

namespace Coordinator

open Duel

/-- What survives whatever players ask that leaves the world alone: they may take the phase from
where the player to move may ask to somewhere else, report the end of a match, and start it once. -/
structure Upheld (P : Standing → Prop) : Prop where
  asked : ∀ {s phase}, (s.started = true → phase = .idle ∨ phase = .editing → s.Askable) → P s →
    P { s with phase }
  struck : ∀ {s} winner reason, s.phase ≠ .over → P s → P (s.struck winner reason)
  finished : ∀ {s}, P s → P { s with finished := true }
  opening : ∀ {s}, s.started = false → P s → P s.opening

/-- What survives also requests that act on the world. -/
structure Worldly (P : Standing → Prop) : Prop where
  arena : ∀ {s} arena, P s → P { s with arena }
  shot : ∀ {s} result, P s → P (s.hear (.shot result))

/-- What survives the actions of a player once they have begun. -/
structure Enacted (p : Player) (P : Standing → Prop) : Prop where
  fire : ∀ {s} cell, P s → P (s.fire p cell)
  moved : ∀ {s} before, P s → P (s.hear (.positionMoved p before))
  gather : ∀ {s} powerup, (s.arena.pickUp p).value.1 = some powerup → P s → P (s.gather p powerup)

variable {M : Type} {tell : Notification → Coordinator M → Coordinator M} {c : Coordinator M}
  {Q : Standing → Prop} {P : M → Standing → Prop}

theorem Worldly.fire (hQ : Worldly Q) {s : Standing} (p : Player) (cell : Place) (h : Q s) :
    Q (s.fire p cell) := by
  rcases s.fire_cases p cell with ⟨fault, -, heq⟩ | ⟨result, -, heq⟩
  · exact heq ▸ hQ.arena _ h
  · exact heq ▸ hQ.shot _ (hQ.arena _ h)

theorem Worldly.asked (hQ : Worldly Q) {d : Duel} (h : Q d.standing) (r : Request) :
    Q (d.asked r) := by
  cases r with
  | tryMove p dir => exact hQ.arena _ h
  | radarFor p => exact hQ.arena _ h
  | shootAt p cell => exact hQ.fire p cell h
  | _ => exact h

theorem worldly_busy : Worldly Standing.Busy := ⟨fun _ h => h, fun _ h => h⟩

/-- Nobody can ask for a new phase while a script may run or when a started match is over. -/
theorem Upheld.keeps (hQ : Upheld Q) {d d' : Duel} (ha : Aside d d') (hm : Moves d d')
    (h : Q d.standing) : Q d'.standing := by
  rw [ha.standing]
  refine hQ.asked (fun hs hask => ?_) h
  have hnot : d.isBusy = false := by
    cases hb : d.isBusy with
    | false => rfl
    | true =>
      have hb' := (hm.stays_busy hs hb).2.1
      rw [(isBusy_eq_false d').mpr hask] at hb'
      cases hb'
  exact (isBusy_eq_false d).mp hnot

theorem Upheld.beginTurn (hQ : Upheld Q) {d : Duel} (h : Q d.standing) :
    Q d.beginTurn.standing := by
  rcases d.beginTurn_cases with ⟨-, heq⟩ | ⟨hb, hm⟩
  · rw [heq]
    exact h
  · have heq : d.beginTurn = d.startTimer.autoExecute := by
      unfold Duel.beginTurn
      rw [if_neg (by simp [hb])]
    rw [heq]
    exact hQ.keeps (aside_autoExecute _) (moves_autoExecute _) h

/-- What is upheld is also upheld together with the standing being busy: nobody can ask for a phase
in which the player to move may ask. -/
theorem Upheld.busy (hQ : Upheld Q) : Upheld fun s => Q s ∧ s.Busy where
  asked hf h := ⟨hQ.asked hf h.1, h.2.1, fun ha => h.2.2 (hf h.2.1 ha)⟩
  struck winner reason ho h :=
    ⟨hQ.struck winner reason ho h.1, h.2.1, Standing.not_askable_over rfl⟩
  finished h := ⟨hQ.finished h.1, h.2⟩
  opening hs h := by cases hs.symm.trans h.2.1

/-- What holds of how a match stands, given what its listener remembers. -/
def Stands (P : M → Standing → Prop) (c : Coordinator M) : Prop := P c.memory c.duel.standing

/-- Telling that upholds something, once the log has heard. -/
def Upholds (P : M → Standing → Prop) (tell : Notification → Coordinator M → Coordinator M) :
    Prop :=
  ∀ n c, (c.logEvent n).Stands P → (tell n c).Stands P

theorem Upholds.endMatch (ht : Upholds P tell) (hP : ∀ m, Upheld (P m)) (h : c.Stands P)
    (winner : Player) (reason : GameResult) : (c.endMatch tell winner reason).Stands P := by
  unfold Coordinator.endMatch
  rcases c.duel.fire_cases .endMatch with ⟨-, m, hf⟩ | ⟨phase, m, hn, hf⟩
  · simp only [onDuel, hf]
    exact h
  · simp only [onDuel, hf]
    obtain ⟨ho, rfl⟩ := Phase.next?_endMatch hn
    refine (hP _).finished (ht _ _ ?_)
    exact (hP _).struck winner reason ho h

theorem Upholds.start (ht : Upholds P tell) (hP : ∀ m, Upheld (P m)) (h : c.Stands P) :
    (c.start tell).Stands P := by
  unfold Coordinator.start
  split
  · exact h
  · rename_i hs
    refine (hP _).keeps (aside_autoExecute _) (moves_autoExecute _) (ht _ _ ?_)
    exact (hP _).opening (Bool.eq_false_iff.mpr hs) h

theorem Upholds.shootAt (ht : Upholds P tell) (hP : ∀ m, Upheld (P m)) {p : Player} {cell : Place}
    (h : P c.memory (c.duel.standing.fire p cell)) : (c.shootAt tell p cell).2.Stands P := by
  let fired := c.onDuel (·.onArena (·.shootAt p cell))
  rcases shootAt_cases tell p cell c with ⟨fault, hfault, heq⟩ | ⟨result, hresult, heq⟩
  · rw [heq]
    rcases c.duel.standing.fire_cases p cell with ⟨-, -, hfire⟩ | ⟨result, hresult, -⟩
    · rw [hfire] at h
      exact h
    · cases hresult.symm.trans hfault
  · rw [heq]
    have htold : (tell (.shot result) fired.2).Stands P := by
      rcases c.duel.standing.fire_cases p cell with ⟨fault, hfault, -⟩ | ⟨result', hresult', hfire⟩
      · cases hfault.symm.trans hresult
      · cases hresult'.symm.trans hresult
        rw [hfire] at h
        exact ht (.shot result) fired.2 h
    dsimp only
    split
    · exact ht.endMatch hP htold _ _
    · exact htold

/-- Requests that nobody hears of are not noticed. -/
theorem memory_handle (tell : Notification → Coordinator M → Coordinator M) (c : Coordinator M)
    {r : Request} (hstart : r ≠ .start) (hw : r.actsOnWorld = false) (hr : r.isReport = false) :
    (c.handle tell r).2.memory = c.memory := by
  cases r with
  | start => exact absurd rfl hstart
  | setScript p script =>
    unfold Coordinator.handle
    dsimp only
    split <;> rfl
  | lost p => cases hr
  | exited p => cases hr
  | shootAt p cell => cases hw
  | tryMove p dir => cases hw
  | radarFor p => cases hw
  | _ => rfl

/-- A request upholds what its own change leaves. -/
theorem Upholds.handle (ht : Upholds P tell) (hm : Tells tell) (hP : ∀ m, Upheld (P m))
    {r : Request} (h : P c.memory (c.duel.asked r)) : (c.handle tell r).2.Stands P := by
  cases hw : r.actsOnWorld with
  | true =>
    cases r with
    | shootAt p cell =>
      rw [handle_shootAt]
      exact ht.shootAt hP h
    | tryMove p dir => exact h
    | radarFor p => exact h
    | _ => cases hw
  | false =>
    rw [asked_peaceful _ hw] at h
    by_cases hstart : r = .start
    · subst hstart
      exact ht.start hP h
    · cases hr : r.isReport with
      | false =>
        have hside := aside_handle tell (c := c) (Or.inr hstart) hw hr
        unfold Stands
        rw [memory_handle tell c hstart hw hr]
        exact (hP _).keeps hside (moves_handle hm r c) h
      | true =>
        cases r with
        | lost p => exact ht.endMatch hP h _ _
        | exited p => exact ht.endMatch hP h _ _
        | _ => cases hr

/-- What is upheld by the requests of a listener, whatever it remembers, telling it upholds. -/
theorem upholds_tell {l : Listener M} {seen : M → List Duel} {free : Request → Prop}
    (hl : ∀ n d m, (l.plan n).Watches seen free d m) (hQ : Upheld Q)
    (hasked : ∀ r, free r → ∀ d : Duel, Q d.standing → Q (d.asked r)) :
    Upholds (fun _ => Q) l.tell := by
  have hdepth (depth : Nat) : Upholds (fun _ => Q) (l.tellAt depth) := by
    induction depth with
    | zero => exact fun n c h => h
    | succ depth ih =>
      intro n c h
      exact (hl n _ _).keeps (c := c.logEvent n) (P := fun x => x.Stands fun _ => Q)
        (fun x m _ h => h) (fun x r hr h => ih.handle (tells_tellAt l depth) (fun _ => hQ)
          (hasked r hr x.duel h)) h
  exact hdepth l.depth

theorem upholds_fair {l : Listener M} {seen : M → List Duel} (hl : Fair seen l) (hQ : Upheld Q) :
    Upholds (fun _ => Q) l.tell := by
  refine upholds_tell hl hQ fun r hr d h => ?_
  rw [asked_peaceful d hr]
  exact h

theorem upholds_any (l : Listener M) (hQ : Upheld Q) (hw : Worldly Q) :
    Upholds (fun _ => Q) l.tell :=
  upholds_tell (fun n => (l.plan n).watches_any) hQ fun r _ _ h => hw.asked h r

/-- What comes of a move upholds what those leave who are told of it. -/
theorem Upholds.onMoved_told (ht : Upholds P tell) (hP : ∀ m, Upheld (P m)) {p : Player}
    (hgather : ∀ {m s} powerup, (s.arena.pickUp p).value.1 = some powerup → P m s →
      P m (s.gather p powerup)) {before : Fix}
    (htold : (tell (.positionMoved p before) c).Stands P) :
    (c.onMoved tell p before).Stands P := by
  have hexit {c : Coordinator M} (h : c.Stands P) :
      Stands P (if c.duel.arena.atExit p then c.reportExited tell p else c) := by
    split
    · exact ht.endMatch hP h _ _
    · exact h
  unfold Coordinator.onMoved
  dsimp only
  generalize tell (.positionMoved p before) c = x at htold ⊢
  split
  · exact htold
  · refine hexit ?_
    split
    · rename_i powerup hfound
      refine ht _ _ ?_
      exact hgather (s := x.duel.standing) powerup hfound htold
    · rename_i hnone
      have harena : (x.duel.arena.pickUp p).value.2 = x.duel.arena := Arena.pickUp_none hnone
      show P x.memory { x.duel.standing with arena := (x.duel.arena.pickUp p).value.2 }
      rw [harena]
      exact htold

theorem Upholds.onMoved (ht : Upholds P tell) (hP : ∀ m, Upheld (P m)) {p : Player}
    (hact : ∀ m, Enacted p (P m)) (h : c.Stands P) (before : Fix) :
    (c.onMoved tell p before).Stands P :=
  ht.onMoved_told hP (fun {m} {_} powerup => (hact m).gather powerup)
    (ht _ _ ((hact _).moved before h))

theorem Upholds.carryOut (ht : Upholds P tell) (hP : ∀ m, Upheld (P m)) {a : Action}
    (hact : ∀ m, Enacted a.player (P m))
    (h : P c.memory (c.duel.standing.attempt a.player a.command)) :
    (c.carryOut tell a.player a).2.Stands P := by
  obtain ⟨r, r', hcases⟩ := carryOut_cases tell c a.player a
  have hinvoked : Stands P (Execution.invoke (surroundings tell) (c.update (·.record r)) a).2 := by
    unfold Execution.invoke
    cases hcommand : a.command with
    | move dir =>
      rw [hcommand] at h
      exact h
    | wait =>
      rw [hcommand] at h
      exact h
    | shoot modifiers =>
      rw [hcommand] at h
      exact ht.shootAt hP ((hact _).fire _ h)
  rcases hcases with ⟨fault, -, heq⟩ | ⟨-, -, heq⟩ | ⟨-, -, heq⟩
  · rw [heq]
    exact hinvoked
  · rw [heq]
    exact hinvoked
  · rw [heq]
    exact ht.onMoved (c := Coordinator.update _ (·.record r')) hP hact hinvoked _

theorem Upholds.flipTurn (ht : Upholds P tell)
    (h : P c.memory (c.duel.standing.pass c.duel.current)) (hp : c.duel.phase = .idle) :
    (c.flipTurn tell).Stands P := by
  refine ht _ _ ?_
  show P c.memory { c.duel.standing.pass c.duel.current with phase := c.duel.phase }
  rw [hp]
  exact h

theorem stands_endTask {c : Coordinator M} (h : c.Stands P) (id : Nat) (outcome : Outcome) :
    (c.endTask id outcome).Stands P := by
  show P c.memory (c.duel.endTask id outcome).standing
  rw [standing_endTask]
  exact h

theorem stands_rest {c : Coordinator M} (h : c.Stands P) (id : Nat) (job : Job)
    (delay : Quantity) : (c.rest id job delay).Stands P := by
  show P c.memory (c.duel.rest id job delay).standing
  rw [standing_rest]
  exact h

theorem Upholds.finishRun (ht : Upholds P tell) (hP : ∀ m, Upheld (P m))
    (hp : c.duel.phase = .executing) (id : Nat) (result : ExecutionResult)
    (hplayer : result.player = c.duel.current)
    (h : P c.memory (c.duel.standing.endTurn result.player)) :
    (c.finishRun tell id result).Stands P := by
  obtain ⟨p, executed, abandoned⟩ := result
  obtain rfl : p = c.duel.current := hplayer
  let result : ExecutionResult := ⟨c.duel.current, executed, abandoned⟩
  have hpasses (x : Coordinator M) (h : x.Stands P) : Stands P (if x.duel.continuous then
      (x.update fun d => d.remember (.paused id d.turnNumber)).rest id (.pause result)
        x.duel.timing.turnDelay
      else (x.update Duel.beginTurn).endTask id (.done (some result))) := by
    split
    · exact stands_rest (c := x.update _) h _ _ _
    · exact stands_endTask (c := x.update _) ((hP _).beginTurn h) _ _
  let x := c.duel.arena.recordTurnEnd result.player
  let cleared : Coordinator M := c.update fun d =>
    ({ d with lastExecution := some result }.setArena x).setArena
      (x.value.clearActive result.player)
  have hflipped : ((cleared.update (·.closeRun id)).flipTurn tell).Stands P := by
    obtain ⟨message, hclose⟩ := closeRun_executing (d := cleared.duel) hp id
    have hclosed : cleared.update (·.closeRun id) = ⟨cleared.duel.closed id message, c.memory⟩ :=
      congrArg (Coordinator.mk · c.memory) hclose
    rw [hclosed]
    exact ht.flipTurn h rfl
  unfold Coordinator.finishRun
  dsimp only
  rw [if_neg (by simp [update, isOver, hp])]
  exact hpasses _ hflipped

/-- The next step of a run, by what its own change to how the match stands leaves. -/
theorem Upholds.act (ht : Upholds P tell) (hP : ∀ m, Upheld (P m)) {id : Nat} {p : Player}
    {rest : List Action} {executed : List String}
    (hbusy : c.duel.phase ≠ .over → c.duel.phase = .executing ∧ p = c.duel.current)
    (hact : rest ≠ [] → c.duel.phase ≠ .over → ∀ m, Enacted p (P m))
    (hown : ∀ a ∈ rest, a.player = p) (h : P c.memory (c.duel.standing.proceed p rest)) :
    (c.act tell id p executed rest).Stands P := by
  by_cases ho : c.duel.phase = .over
  · obtain ⟨journal, heq⟩ := act_over tell ho id p executed rest
    rw [Standing.proceed_over ho] at h
    rw [heq]
    refine stands_endTask (c := c.update _) ?_ _ _
    exact h
  · obtain ⟨hp, hcurrent⟩ := hbusy ho
    cases rest with
    | nil =>
      rw [Standing.proceed_nil ho] at h
      exact ht.finishRun hP hp id _ hcurrent h
    | cons a later =>
      rw [Standing.proceed_cons ho] at h
      obtain rfl := hown a (List.mem_cons_self ..)
      rw [act_cons ho]
      let began := c.update fun d => d.remember (.began id a d.phase d.current)
      have hdone : (began.carryOut tell a.player a).2.Stands P :=
        ht.carryOut hP (hact (List.cons_ne_nil _ _) ho) h
      split
      · exact stands_endTask hdone _ _
      · exact stands_rest hdone _ _ _

theorem Upholds.onTimeout (ht : Upholds P tell) (hP : ∀ m, Upheld (P m))
    (h : P c.memory
      (if c.duel.isBusy then c.duel.standing else c.duel.standing.pass c.duel.current)) :
    (c.onTimeout tell).Stands P := by
  unfold Coordinator.onTimeout
  rcases c.duel.fire_cases .timeout with ⟨hn, m, hf⟩ | ⟨phase, m, hn, hf⟩
  · simp only [onDuel, hf]
    have hb : c.duel.isBusy = true := by
      have := Phase.next?_timeout_none hn
      simpa [isBusy] using this
    rw [if_pos hb] at h
    exact h
  · simp only [onDuel, hf]
    obtain ⟨hi, rfl⟩ := Phase.next?_timeout hn
    rw [if_neg (by simp [(isBusy_eq_false c.duel).mpr hi])] at h
    exact (hP _).beginTurn (ht.flipTurn h rfl)

/-- The step of a task upholds what its own change leaves. -/
theorem Upholds.runJob (ht : Upholds P tell) (hP : ∀ m, Upheld (P m)) {id : Nat} {job : Job}
    (hsole : Sole id job c.duel)
    (hact : ∀ {p a later executed}, c.duel.program? job = some (p, a :: later, executed) →
      c.duel.phase ≠ .over → ∀ m, Enacted p (P m))
    (h : P c.memory (c.duel.advanced job)) : (c.runJob tell id job).Stands P := by
  cases hp : c.duel.program? job with
  | some x =>
    obtain ⟨p, rest, executed⟩ := x
    obtain ⟨journal, heq⟩ := runJob_program tell id hp
    obtain ⟨hplayer, hown⟩ := program?_own hp
    simp only [advanced, hp] at h
    rw [heq]
    refine ht.act (c := c.update ({ · with journal })) hP (fun ho => ?_) ?_ (hown hsole.bound) h
    · obtain ⟨hbusy, hcurrent, -⟩ := hsole.executing_of_mem (hsole.player p hplayer) ho
      exact ⟨hbusy, hcurrent⟩
    · cases rest with
      | nil => exact fun hne => absurd rfl hne
      | cons a later => exact fun _ => hact hp
  | none =>
    simp only [advanced, hp] at h
    cases job with
    | caller => exact h
    | begin p =>
      unfold Coordinator.runJob beginRun
      dsimp only
      split
      · refine stands_endTask (c := c.update _) ?_ _ _
        exact h
      · rename_i actions hactions
        simp [program?, hactions, Except.toOption] at hp
    | act p rest executed => cases hp
    | pause result =>
      unfold Coordinator.runJob
      refine stands_endTask (c := (c.update _).update Duel.beginTurn) ((hP _).beginTurn ?_) _ _
      exact h
    | timer =>
      unfold Coordinator.runJob
      dsimp only
      split
      · exact stands_endTask h _ _
      · exact stands_rest h _ _ _
    | tick passed total =>
      unfold Coordinator.runJob
      dsimp only
      split
      · rename_i hpassed
        rw [if_neg (by simp [Job.isLastTick, hpassed])] at h
        refine stands_rest (c := c.update _) ?_ _ _ _
        exact h
      · rename_i hpassed
        let counted := c.update fun d => { d with remaining := d.timing.remaining passed }
        refine stands_endTask (ht.onTimeout (c := counted) hP ?_) _ _
        have hlast : (Job.tick passed total).isLastTick = true := by
          simpa [Job.isLastTick] using hpassed
        rw [hlast, Bool.true_and] at h
        show P c.memory
          (if c.duel.isBusy then c.duel.standing else c.duel.standing.pass c.duel.current)
        cases hb : c.duel.isBusy <;> simpa [hb] using h

theorem Upholds.step? {c' : Coordinator M} (ht : Upholds P tell) (hP : ∀ m, Upheld (P m))
    (hstill : Still c.duel) (hact : ∀ p, c.duel.Acting p → ∀ m, Enacted p (P m))
    (hstep : c.step? tell = some c') (h : P c.memory c.duel.next) : c'.Stands P := by
  have hs : c.duel.started = true := started_of_step? hstill.vacant hstep
  obtain ⟨t, ready, hr, -, rfl⟩ := step?_taken tell hstep
  let taken : Coordinator M := ⟨c.duel.taken t ready, c.memory⟩
  simp only [next, hr] at h
  split
  · rename_i hc
    rw [if_pos hc] at h
    exact stands_endTask (c := taken) h _ _
  · rename_i hc
    rw [if_neg hc, ← advanced_taken c.duel t ready] at h
    have hsole : Sole t.id t.job taken.duel := hstill.toSolo.sole hstill.still hs hr
    refine ht.runJob (c := taken) hP hsole ?_ h
    intro p a later executed hp ho
    exact hact p ⟨ho, t, ready, a, later, executed, hr, Bool.eq_false_iff.mpr hc, hp⟩

/-- When nobody can make a step, nothing is made of how the match stands. -/
theorem next_of_stuck (h : c.step? tell = none) : c.duel.next = c.duel.standing := by
  unfold next
  cases hr : c.duel.schedule.ready with
  | nil => rfl
  | cons t ready =>
    have hj : t.job = .caller := by
      by_contra hj
      obtain ⟨c', hstep⟩ := exists_step? tell hr hj
      cases h.symm.trans hstep
    simp [hj, advanced, program?, Job.isLastTick]

theorem Upholds.step {l : Listener M} (ht : Upholds P l.tell) (hP : ∀ m, Upheld (P m))
    (hstill : Still c.duel) (hact : ∀ p, c.duel.Acting p → ∀ m, Enacted p (P m))
    (h : P c.memory c.duel.next) : (c.happen l .step).Stands P := by
  unfold Coordinator.happen
  cases hstep : c.step? l.tell with
  | some c' => exact ht.step? hP hstill hact hstep h
  | none =>
    rw [next_of_stuck hstep] at h
    exact h

/-- Everything that happens upholds what its own change leaves. -/
theorem Upholds.happen {l : Listener M} (ht : Upholds P l.tell) (hP : ∀ m, Upheld (P m))
    (hstill : Still c.duel) {x : Happening} (hact : x = .step → ∀ p, c.duel.Acting p →
      ∀ m, Enacted p (P m)) (h : P c.memory (c.duel.upon x)) : (c.happen l x).Stands P := by
  cases x with
  | request r => exact ht.handle (tells_tell l) hP h
  | step => exact ht.step hP hstill (hact rfl) h
  | wake =>
    unfold Coordinator.happen wake?
    cases c.duel.schedule.wake? <;> exact h
  | clock now => exact h

end Coordinator

end MazeDuel.Turn
