import MazeDuel.Proofs.Turn.Timers
/-!
Timers and pauses through the steps of tasks, and so through every history.
-/

namespace MazeDuel.Turn

namespace Duel

open Deed

theorem Untraced.of_deeds {d d' : Duel} {id : Nat} (h : d.Untraced id) (hd : d'.deeds = d.deeds) :
    d'.Untraced id := by
  unfold Untraced
  rw [hd]
  exact h

theorem Untraced.remember {d : Duel} {id : Nat} (h : d.Untraced id) {x : Deed}
    (hp : ∀ turn, x ≠ .paused id turn) (hs : x.start? = none) : (d.remember x).Untraced id := by
  refine ⟨?_, ?_⟩
  · intro turn hmem
    rcases List.mem_cons.mp hmem with heq | hmem
    · exact hp turn heq.symm
    · exact h.1 turn hmem
  · intro y hy turn
    rcases List.mem_cons.mp hy with rfl | hy
    · rw [hs]
      nofun
    · exact h.2 y hy turn

theorem Untraced.lead {d : Duel} {id : Nat} (h : d.Untraced id) (hr : d.running = some id) :
    Lead d := by
  intro run turn hrun hp
  cases hr.symm.trans hrun
  exact absurd hp (h.1 turn)

/-- Whether nothing tells of the turn yet. -/
def NewTurn (d : Duel) : Prop :=
  d.turnNumber ∉ timedTurns d.deeds ∧ ∀ run, .paused run d.turnNumber ∉ d.deeds

theorem Timed.newTurn {d : Duel} (h : Timed d) : NewTurn d.passTurn := by
  refine ⟨fun hmem => ?_, fun run hmem => ?_⟩
  · exact Nat.not_succ_le_self _ (h.timed _ hmem)
  · exact Nat.not_succ_le_self _ (h.paused run _ hmem).2

theorem Timed.passTurn {d : Duel} (h : Timed d) : Timed d.passTurn where
  timed turn hmem := Nat.le_succ_of_le (h.timed turn hmem)
  paused run turn hmem := ⟨(h.paused run turn hmem).1, Nat.le_succ_of_le (h.paused run turn hmem).2⟩
  starts := h.starts
  apart := h.apart
  tasks t ht := ⟨(h.tasks t ht).pause, (h.tasks t ht).other, fun _ hmem =>
    absurd hmem (h.newTurn.2 t.id)⟩
  unstarted := h.unstarted
  once := h.once
  loyal := h.loyal

theorem NewTurn.adds {d d' : Duel} (h : NewTurn d) (ha : Adds d d') : NewTurn d' := by
  unfold NewTurn
  rw [ha.turnNumber, ha.timedTurns]
  exact ⟨h.1, fun run hmem => h.2 run (ha.of_paused hmem)⟩

theorem NewTurn.clear {d : Duel} (h : NewTurn d) : Clear d := fun _ => ⟨h.1, fun t _ => h.2 t.id⟩

theorem Lead.startTimer {d : Duel} (hl : Lead d) : Lead d.startTimer := by
  intro run turn hr hp hot
  rcases List.mem_cons.mp hp with heq | hp
  · cases heq
  · exact hl run turn hr hp (hot.of_suffix (List.suffix_cons _ _))

theorem Timed.beginTurn {d : Duel} (h : Timed d) (ho : Orderly d) (hs : d.started = true)
    (hl : d.isBusy = false → Lead d) (hc : d.isBusy = false → Clear d) : Timed d.beginTurn := by
  rcases d.beginTurn_cases with ⟨-, heq⟩ | ⟨hb, hm⟩
  · exact heq.symm ▸ h
  · have ho' : Orderly d.startTimer := ho.startTimer hs ((isBusy_eq_false d).mp hb)
    have htimer : Timed d.startTimer := h.grows ho.toNumbered (grows_startTimer (hl hb) (hc hb) hs)
    exact htimer.grows ho'.toNumbered ((hm.adds hs).grows (hl hb).startTimer)

/-! ## The end of a step -/

theorem Timed.stop {d : Duel} (h : Timed d) : Timed { d with running := none } :=
  h.join rfl rfl rfl (Nat.le_refl _) fun _ => Or.inl

theorem Timed.endTask {d : Duel} (h : Timed d) (id : Nat) (outcome : Outcome) :
    Timed (d.endTask id outcome) := by
  unfold Duel.endTask
  dsimp only
  split
  · refine h.join rfl rfl rfl (Nat.le_succ _) ?_
    intro t ht
    rcases (Schedule.mem_tasks_spawn _ _ t).mp ht with rfl | ht
    · exact Or.inr ((h.untraced (Nat.le_refl _)).fits rfl)
    · exact Or.inl ht
  · exact h.join rfl rfl rfl (Nat.le_refl _) fun _ => Or.inl

theorem Timed.rest {d : Duel} (h : Timed d) {id : Nat} {job : Job} (hf : d.Fits { id, job })
    (delay : Quantity) : Timed (d.rest id job delay) := by
  unfold Duel.rest
  split
  · refine h.join rfl rfl rfl (d.schedule.fresh_le_rest id job _) ?_
    intro t ht
    rcases (Schedule.mem_tasks_rest _ _ _ _ t).mp ht with rfl | ht
    · exact Or.inr hf
    · exact Or.inl ht
  · exact h.endTask _ _

/-- A run goes to its pause in the turn that it has brought about. -/
theorem Timed.pause {d : Duel} (h : Timed d) (hn : Numbered d) (hnew : NewTurn d) {id : Nat}
    (hr : d.running = some id) (hp : ∀ turn, .paused id turn ∉ d.deeds)
    (hs : ∀ x ∈ d.deeds, ∀ now, x.start? = some (id, now) → now = d.turnNumber)
    (result : ExecutionResult) :
    Timed (d.remember (.paused id d.turnNumber)) ∧
      (d.remember (.paused id d.turnNumber)).Fits { id, job := .pause result } := by
  have hcases {run turn : Nat} (hmem : .paused run turn ∈ .paused id d.turnNumber :: d.deeds) :
      run = id ∧ turn = d.turnNumber ∨ .paused run turn ∈ d.deeds := by
    rcases List.mem_cons.mp hmem with heq | hmem
    · cases heq
      exact Or.inl ⟨rfl, rfl⟩
    · exact Or.inr hmem
  have hstart {y : Deed} {run turn : Nat} (hy : y ∈ .paused id d.turnNumber :: d.deeds)
      (hy' : y.start? = some (run, turn)) : y ∈ d.deeds := by
    rcases List.mem_cons.mp hy with rfl | hy
    · cases hy'
    · exact hy
  have hsuffix : d.deeds <:+ .paused id d.turnNumber :: d.deeds := List.suffix_cons _ _
  have hapart {run turn : Nat} (hmem : .paused run turn ∈ d.deeds) :
      id = run ↔ d.turnNumber = turn := by
    refine iff_of_false ?_ ?_
    · rintro rfl
      exact hp turn hmem
    · rintro rfl
      exact hnew.2 run hmem
  refine ⟨⟨h.timed, ?_, ?_, ?_, ?_, h.unstarted, ?_, ?_⟩, fun _ => ⟨_, List.mem_cons_self ..⟩,
    nofun, fun _ _ => hnew.1⟩
  · intro run turn hmem
    rcases hcases hmem with ⟨rfl, rfl⟩ | hmem
    · exact ⟨hn.known run (mem_ids.mpr (Or.inl hr)), Nat.le_refl _⟩
    · exact h.paused run turn hmem
  · exact fun y hy run turn hy' => h.starts y (hstart hy hy') run turn hy'
  · intro run turn run' turn' hmem hmem'
    rcases hcases hmem with ⟨rfl, rfl⟩ | hold <;> rcases hcases hmem' with ⟨rfl, rfl⟩ | hold'
    · exact iff_of_true rfl rfl
    · exact hapart hold'
    · rw [eq_comm, hapart hold, eq_comm]
    · exact h.apart run turn run' turn' hold hold'
  · intro t ht
    have hfits := h.tasks t ht
    refine ⟨fun hj => ?_, fun hj => ?_, fun _ _ => hnew.1⟩
    · obtain ⟨turn, hmem⟩ := hfits.pause hj
      exact ⟨turn, hsuffix.subset hmem⟩
    · refine (hfits.other hj).remember ?_ rfl
      intro turn heq
      cases heq
      exact hn.not_mem_of_running hr rfl ht
  · exact fun hot => h.once (hot.of_suffix hsuffix)
  · intro hot run turn hmem y hy now hy'
    have hold := hstart hy hy'
    rcases hcases hmem with ⟨rfl, rfl⟩ | hmem
    · exact hs y hold now hy'
    · exact h.loyal (hot.of_suffix hsuffix) run turn hmem y hold now hy'

theorem Quiet.adds {d d' : Duel} (h : Quiet d d') : Adds d d' := by
  obtain ⟨_, _, _, _, rfl⟩ := h
  exact adds_apart rfl rfl rfl rfl rfl

theorem Timed.quiet {d d' : Duel} (h : Timed d) (hq : Quiet d d') : Timed d' := by
  obtain ⟨_, _, _, _, rfl⟩ := hq
  exact h.join rfl rfl rfl (Nat.le_refl _) fun _ => Or.inl

theorem Timed.closed {d : Duel} (h : Timed d) (hn : Numbered d) (id : Nat) (message : String) :
    Timed (d.closed id message) := by
  let e : Duel := { d.note .debug message with phase := .idle }
  have hidle : Timed e := h.join rfl rfl rfl (Nat.le_refl _) fun _ => Or.inl
  exact hidle.grows ⟨hn.nodup, hn.known⟩ (e.grows_remember nofun rfl rfl)

theorem isPause_of_player? {job : Job} {p : Player} (h : job.player? = some p) :
    job.isPause = false := by
  cases job <;> first | rfl | cases h

/-- The turn has been passed on, and listeners have heard of it. -/
theorem Timed.turned {d d' : Duel} (h : Timed d) (ho : Orderly d.passTurn)
    (hs : d.passTurn.started = true) (hl : Lead d.passTurn) (hm : Moves d.passTurn d') :
    Timed d' ∧ NewTurn d' ∧ Lead d' :=
  ⟨h.passTurn.grows ho.toNumbered ((hm.adds hs).grows hl), h.newTurn.adds (hm.adds hs),
    hl.adds (hm.adds hs)⟩

/-- A run that closes its turn has started nothing so far. -/
theorem Timed.closeRun {d e : Duel} {id : Nat} {job : Job} {p : Player} {executed : List String}
    (h : Timed d) (ho : Engaged id job d) (hfits : d.Fits { id, job })
    (hp : d.program? job = some (p, [], executed)) (hover : d.phase ≠ .over) (hq : Quiet d e) :
    ∃ message, e.closeRun id = e.closed id message ∧ Orderly (e.closed id message).passTurn ∧
      Timed (e.closed id message) ∧ (e.closed id message).passTurn.Untraced id := by
  have hu : d.Untraced id := hfits.other (isPause_of_player? (program?_own hp).1)
  obtain ⟨message, heq, ho', -⟩ := ho.closeRun hp hover hq
  have hn : Numbered e := (ho.toOrderly.moves hq.moves).toNumbered
  exact ⟨message, heq, ho', (h.quiet hq).closed hn id message,
    (hu.of_deeds hq.deeds).remember (x := .closed id true) nofun rfl⟩

/-- A run that comes back to a turn which waits for the player begins it. If every run is on time,
that is the turn it has brought about itself, and nobody else begins it. -/
theorem Timed.woke {d : Duel} {id : Nat} {result : ExecutionResult} (h : Timed d) (ho : Orderly d)
    (hr : d.running = some id) (hfits : d.Fits { id, job := .pause result }) :
    Timed (d.remember (.woke id d.turnNumber d.phase)).beginTurn := by
  let e := d.remember (.woke id d.turnNumber d.phase)
  have he : Timed e := h.grows ho.toNumbered (d.grows_remember nofun rfl rfl)
  have ho' : Orderly e := ho.remember trivial rfl
  have hmem {run turn : Nat} (hp : .paused run turn ∈ e.deeds) : .paused run turn ∈ d.deeds :=
    (List.mem_cons.mp hp).resolve_left nofun
  have hontime {turn : Nat} (hb : e.isBusy = false) (hot : OnTime e.deeds)
      (hp : .paused id turn ∈ e.deeds) : d.turnNumber = turn := by
    refine (hot id turn _ _ hp (List.mem_cons_self ..)).resolve_right ?_
    have hphase := (isBusy_eq_false d).mp hb
    rintro (hover | hover) <;> rw [hover] at hphase <;> simp at hphase
  have hl (hb : e.isBusy = false) : Lead e := by
    intro run turn hrun hp hot
    cases hr.symm.trans hrun
    exact (hontime hb hot hp).symm
  have hc (hb : e.isBusy = false) : Clear e := by
    intro hot
    have hot' : OnTime d.deeds := hot.of_suffix (List.suffix_cons _ _)
    obtain ⟨turn, hp⟩ := hfits.pause rfl
    have hturn : d.turnNumber = turn := hontime hb hot (List.mem_cons_of_mem _ hp)
    rw [← hturn] at hp
    refine ⟨hfits.untimed hot' hp, ?_⟩
    intro t ht hpt
    have hid : t.id = id := (h.apart _ _ _ _ (hmem hpt) hp).mpr rfl
    exact ho.toNumbered.not_mem_of_running hr hid ht
  exact he.beginTurn ho' (ho.started_of_running hr) hl hc

/-- While an action is carried out its run starts no timer. -/
theorem Timed.began {d e d'' : Duel} {id : Nat} {job : Job} {p : Player} {a : Action}
    {later : List Action} {executed : List String} (h : Timed d) (ho : Engaged id job d)
    (hfits : d.Fits { id, job }) (hp : d.program? job = some (p, a :: later, executed))
    (hover : d.phase ≠ .over) (hq : Quiet d e)
    (hm : Moves (e.remember (.began id a d.phase d.current)) d'') :
    Timed d'' ∧ d''.Untraced id := by
  have hs := ho.started
  have hjob := (program?_own hp).1
  have hu : d.Untraced id := hfits.other (isPause_of_player? hjob)
  obtain ⟨hbusy, -, -⟩ := ho.executing_of_mem (ho.mem_unfinished hp) hover
  let f := e.remember (.began id a d.phase d.current)
  have hu' : f.Untraced id := (hu.of_deeds hq.deeds).remember nofun rfl
  have he : Orderly e := ho.toOrderly.moves hq.moves
  have hf : Timed f := (h.quiet hq).grows he.toNumbered (e.grows_remember nofun rfl rfl)
  have hn : Numbered f := ⟨he.nodup, he.known⟩
  have hrun : f.running = some id := hq.moves.running.trans ho.busy
  have hs' : f.started = true := hq.moves.started hs
  have hb : f.isBusy = true := by
    have hphase : f.phase = .executing := hq.phase.trans hbusy
    simp [isBusy, hphase]
  have hd := hf.grows hn ((hm.adds hs').grows (hu'.lead hrun))
  exact ⟨hd, hu'.of_deeds (hm.busy hs' hb)⟩

/-- A step keeps what holds of timers and pauses, with the task that makes it. -/
theorem Timed.worked {d d' : Duel} {id : Nat} {job : Job} (h : Timed d) (ho : Engaged id job d)
    (hfits : d.Fits { id, job }) (hw : Work id job d d') : Timed { d' with running := none } := by
  have hs := ho.started
  cases hw with
  | unread fault hp hq => exact ((h.quiet hq).endTask _ _).stop
  | acted hp hover hq hm =>
    obtain ⟨hd, hu⟩ := h.began ho hfits hp hover hq hm
    exact (hd.rest (hu.fits rfl) _).stop
  | broke hp hover hf hq hm => exact ((h.began ho hfits hp hover hq hm).1.endTask _ _).stop
  | stopped result hp hover hq => exact ((h.quiet hq).endTask _ _).stop
  | @closed _ _ e d'' p executed result hp hover hq hm hc =>
    obtain ⟨m, heq, ho', hclosed, hu⟩ := h.closeRun ho hfits hp hover hq
    rw [heq] at hm
    have hs' : (e.closed id m).passTurn.started = true := hq.moves.started hs
    have hrun : (e.closed id m).passTurn.running = some id := hq.moves.running.trans ho.busy
    obtain ⟨hd, hnew, hl⟩ := hclosed.turned ho' hs' (hu.lead hrun) hm
    exact ((hd.beginTurn (ho'.moves hm) (hm.started hs') (fun _ => hl)
      (fun _ => hnew.clear)).endTask _ _).stop
  | @paused _ _ e d'' p executed result hp hover hq hm hc =>
    obtain ⟨m, heq, ho', hclosed, hu⟩ := h.closeRun ho hfits hp hover hq
    rw [heq] at hm
    have hs' : (e.closed id m).passTurn.started = true := hq.moves.started hs
    have hrun : (e.closed id m).passTurn.running = some id := hq.moves.running.trans ho.busy
    obtain ⟨hd, hnew, -⟩ := hclosed.turned ho' hs' (hu.lead hrun) hm
    have ha := hm.adds hs'
    -- whatever the run has started, it started after it had passed the turn on
    have hstarts : ∀ x ∈ d''.deeds, ∀ now, x.start? = some (id, now) → now = d''.turnNumber := by
      intro x hx now hx'
      rcases ha.of_start hx hx' with hx | ⟨-, hnow⟩
      · exact absurd hx' (hu.2 x hx now)
      · exact hnow.trans ha.turnNumber.symm
    obtain ⟨hd', hfits'⟩ := hd.pause (ho'.moves hm).toNumbered hnew (hm.running.trans hrun)
      (fun turn hmem => hu.1 turn (ha.of_paused hmem)) hstarts result
    exact (hd'.rest hfits' _).stop
  | woke _ result => exact ((h.woke ho.toOrderly ho.busy hfits).endTask _ _).stop
  | uncounted ht => exact (h.endTask _ _).stop
  | counted ht =>
    have hu : d.Untraced id := hfits.other rfl
    exact (h.rest (hu.fits rfl) _).stop
  | ticked hp hq =>
    have hu : d.Untraced id := hfits.other rfl
    exact ((h.quiet hq).rest ((hu.of_deeds hq.deeds).fits rfl) _).stop
  | late hp hover hq => exact ((h.quiet hq).endTask _ _).stop
  | @expired _ e d'' passed total hp hi hq hm =>
    have ho' : Orderly e.passTurn := ho.toOrderly.timedOut hi hq
    have htimed : Timed { d with phase := .idle } :=
      h.join rfl rfl rfl (Nat.le_refl _) fun _ => Or.inl
    have hu : e.passTurn.Untraced id := (hfits.other rfl).of_deeds hq.deeds
    have hs' : e.passTurn.started = true := hq.moves.started hs
    obtain ⟨hd, hnew, hl⟩ := (htimed.quiet hq).turned ho' hs'
      (hu.lead (hq.moves.running.trans ho.busy)) hm
    exact ((hd.beginTurn (ho'.moves hm) (hm.started hs') (fun _ => hl)
      (fun _ => hnew.clear)).endTask _ _).stop

theorem Timed.stepped {d d' : Duel} (ho : Resting d) (h : Timed d) (hs : Stepped d d') :
    Timed d' := by
  have htaken {t : Task Job} {ready : List (Task Job)} (hr : d.schedule.ready = t :: ready) :
      Timed (d.taken t ready) :=
    h.join rfl rfl rfl (Nat.le_refl _) fun u hu => Or.inl (mem_tasks_taken hr hu)
  cases hs with
  | dropped hr hc => exact ((htaken hr).endTask _ _).stop
  | @worked t ready d' hr hc hw =>
    have hmem := tasks_of_ready hr
    have hfits := h.tasks t hmem
    exact (htaken hr).worked (ho.engaged hr hc) ⟨hfits.1, hfits.2, hfits.3⟩ hw

/-- The first timer, started by nobody's step. -/
theorem Timed.opening {d : Duel} (h : Timed d) (ho : Resting d) (hs : d.started = false)
    (arena : Arena) (journal : List Record) :
    Timed { d.opened with arena, journal }.startTimer := by
  have hids : d.ids = [] := (ho.unstarted hs).1
  let e : Duel := { d.opened with arena, journal }
  have he : Timed e := by
    have hd : Timed (d.remember (.opened d.phase)) :=
      h.grows ho.toNumbered (d.grows_remember nofun rfl rfl)
    have htasks (t : Task Job) (ht : t ∈ d.schedule.tasks) : e.Fits t :=
      ⟨(hd.tasks t ht).1, (hd.tasks t ht).2, (hd.tasks t ht).3⟩
    exact ⟨hd.timed, hd.paused, hd.starts, hd.apart, htasks, nofun, hd.once, hd.loyal⟩
  have hn : Numbered e := ⟨ho.nodup, ho.known⟩
  have hl : Lead e := by
    intro run turn hr
    cases ho.still.symm.trans hr
  have hc : Clear e := by
    intro _
    have hnone : timedTurns e.deeds = [] := h.unstarted hs
    refine ⟨hnone ▸ List.not_mem_nil, ?_⟩
    intro t ht
    have hmem : t.id ∈ d.ids := mem_ids.mpr (Or.inr ⟨t, ht, rfl⟩)
    rw [hids] at hmem
    cases hmem
  exact he.grows hn (grows_startTimer hl hc rfl)

theorem Timed.moved {d d' : Duel} (ho : Resting d) (h : Timed d) (hm : Moves d d') :
    Timed d' := by
  let P (e : Duel) : Prop := Resting e ∧ Timed e
  have hadds {e e' : Duel} (he : P e) (ha : Adds e e') : Timed e' :=
    he.2.grows he.1.toNumbered (ha.grows fun run turn hr => by cases he.1.still.symm.trans hr)
  have hkept : P d' := by
    refine hm.keeps (P := P) ?_ ?_ ?_ ⟨ho, h⟩
    · intro e e' hm he
      refine ⟨he.1.goes (.moved hm.moves), ?_⟩
      cases hm with
      | script script hp => exact hadds he (adds_setScript _ _ _)
      | accept hs hp => exact hadds he ((Move.accept e hs hp).moves.adds hs)
      | opening arena journal hs => exact he.2.opening he.1 hs arena journal
      | _ => exact hadds he (adds_apart rfl rfl rfl rfl rfl)
    · intro e winner reason journal hp hr he
      have hover : Adds e { e with phase := .over } := adds_apart rfl rfl rfl rfl rfl
      have ha : Adds e (e.struck winner reason journal) :=
        (hover.trans (adds_cancelTimer _)).trans (adds_apart rfl rfl rfl rfl rfl)
      have ho' : Orderly (e.struck winner reason journal) := he.1.struck winner reason journal
      exact ⟨⟨ho', he.1.still⟩, hadds he ha⟩
    · intro e he
      have ha : Adds e { e with finished := true } := adds_apart rfl rfl rfl rfl rfl
      exact ⟨⟨he.1.irrelevant _ _ _ _ _ _ _ _ _ _, he.1.still⟩, hadds he ha⟩
  exact hkept.2

theorem Timed.goes {d d' : Duel} (ho : Resting d) (h : Timed d) (hg : Goes d d') : Timed d' := by
  cases hg with
  | moved hm => exact h.moved ho hm
  | stepped hs => exact h.stepped ho hs
  | woken hw =>
    refine h.join rfl rfl rfl (Nat.le_of_eq (Schedule.fresh_wake? hw).symm) ?_
    exact fun t ht => Or.inl ((Schedule.tasks_wake? hw t).mp ht)
  | timed now => exact h.join rfl rfl rfl (Nat.le_refl _) fun _ => Or.inl

/-! ## What a run does when it comes back -/

/-- Whether every run that came back while the turn waited for the player has started a timer. -/
def Resumed (d : Duel) : Prop :=
  ∀ run now phase, .woke run now phase ∈ d.deeds → phase = .idle ∨ phase = .editing →
    ∃ timer, .timed timer now (some run) ∈ d.deeds

theorem Resumed.of_deeds {d d' : Duel} (h : Resumed d) (hd : d'.deeds = d.deeds) :
    Resumed d' := by
  unfold Resumed
  rw [hd]
  exact h

theorem Resumed.cons {d d' : Duel} (h : Resumed d) {x : Deed} (hd : d'.deeds = x :: d.deeds)
    (hx : ∀ run now phase, x ≠ .woke run now phase) : Resumed d' := by
  intro run now phase hmem hp
  rw [hd] at hmem ⊢
  have hmem' := (List.mem_cons.mp hmem).resolve_left fun heq => hx run now phase heq.symm
  obtain ⟨timer, ht⟩ := h run now phase hmem' hp
  exact ⟨timer, List.mem_cons_of_mem _ ht⟩

theorem Resumed.moves {d d' : Duel} (hm : Moves d d') (h : Resumed d) : Resumed d' := by
  refine hm.keeps ?_ ?_ ?_ h
  · intro e e' hm he
    cases hm with
    | script script hp => exact he.cons rfl nofun
    | accept hs hp => exact he.cons rfl nofun
    | opening arena journal hs =>
      have hopened : Resumed e.opened := he.cons rfl nofun
      exact hopened.cons rfl nofun
    | _ => exact he.of_deeds rfl
  · intro e winner reason journal hp hr he
    exact he.of_deeds rfl
  · intro e he
    exact he.of_deeds rfl

theorem Resumed.endTask {d : Duel} (h : Resumed d) (id : Nat) (outcome : Outcome) :
    Resumed (d.endTask id outcome) := by
  obtain ⟨schedule, awaited, heq⟩ := endTask_eq d id outcome
  rw [heq]
  exact h.of_deeds rfl

theorem Resumed.rest {d : Duel} (h : Resumed d) (id : Nat) (job : Job) (delay : Quantity) :
    Resumed (d.rest id job delay) := by
  obtain ⟨schedule, awaited, outcomes, heq⟩ := d.rest_beside id job delay
  rw [heq]
  exact h.of_deeds rfl

theorem Resumed.closeRun {d : Duel} (h : Resumed d) (id : Nat) : Resumed (d.closeRun id) := by
  unfold Duel.closeRun
  rcases d.fire_cases .finish with ⟨-, m, hf⟩ | ⟨phase, m, -, hf⟩
  · rw [hf]
    exact h.cons rfl nofun
  · rw [hf]
    exact h.cons rfl nofun

theorem Resumed.beginTurn {d : Duel} (h : Resumed d) : Resumed d.beginTurn := by
  have ht : Resumed d.startTimer := h.cons rfl nofun
  rcases d.beginTurn_cases with ⟨-, heq⟩ | ⟨-, hm⟩
  · exact heq.symm ▸ h
  · exact ht.moves hm

/-- A run that comes back starts a timer for the turn as it is, unless a script may run or the match
is over. -/
theorem Resumed.woke {d : Duel} (h : Resumed d) {id : Nat} (hr : d.running = some id) :
    Resumed (d.remember (.woke id d.turnNumber d.phase)).beginTurn := by
  let e := d.remember (.woke id d.turnNumber d.phase)
  have hcases {run now : Nat} {phase : Phase} (hmem : .woke run now phase ∈ e.deeds) :
      run = id ∧ now = d.turnNumber ∧ phase = d.phase ∨ .woke run now phase ∈ d.deeds := by
    rcases List.mem_cons.mp hmem with heq | hmem
    · cases heq
      exact Or.inl ⟨rfl, rfl, rfl⟩
    · exact Or.inr hmem
  change Resumed e.beginTurn
  rcases e.beginTurn_cases with ⟨hb, heq⟩ | ⟨-, hm⟩
  · rw [heq]
    intro run now phase hmem hp
    rcases hcases hmem with ⟨-, -, rfl⟩ | hmem
    · have hb' : e.isBusy = false := (isBusy_eq_false e).mpr hp
      rw [hb] at hb'
      cases hb'
    · obtain ⟨timer, ht⟩ := h run now phase hmem hp
      exact ⟨timer, List.mem_cons_of_mem _ ht⟩
  · have ht : Resumed e.startTimer := by
      intro run now phase hmem hp
      have hmem' : .woke run now phase ∈ e.deeds := (List.mem_cons.mp hmem).resolve_left nofun
      rcases hcases hmem' with ⟨rfl, rfl, -⟩ | hold
      · exact ⟨e.cancelTimer.schedule.fresh, hr ▸ List.mem_cons_self ..⟩
      · obtain ⟨timer, ht⟩ := h run now phase hold hp
        exact ⟨timer, List.mem_cons_of_mem _ (List.mem_cons_of_mem _ ht)⟩
    exact ht.moves hm

theorem Resumed.worked {d d' : Duel} {id : Nat} {job : Job} (h : Resumed d)
    (hr : d.running = some id) (hw : Work id job d d') : Resumed d' := by
  cases hw with
  | unread fault hp hq => exact (h.moves hq.moves).endTask _ _
  | @acted _ _ e d'' p a later executed hp hover hq hm =>
    have he : Resumed (e.remember (.began id a d.phase d.current)) :=
      (h.moves hq.moves).cons rfl nofun
    exact (he.moves hm).rest _ _ _
  | @broke _ _ e d'' p a later executed fault hp hover hf hq hm =>
    have he : Resumed (e.remember (.began id a d.phase d.current)) :=
      (h.moves hq.moves).cons rfl nofun
    exact (he.moves hm).endTask _ _
  | stopped result hp hover hq => exact (h.moves hq.moves).endTask _ _
  | @closed _ _ e d'' p executed result hp hover hq hm hc =>
    have he : Resumed (e.closeRun id).passTurn :=
      ((h.moves hq.moves).closeRun id).of_deeds rfl
    exact (he.moves hm).beginTurn.endTask _ _
  | @paused _ _ e d'' p executed result hp hover hq hm hc =>
    have he : Resumed (e.closeRun id).passTurn :=
      ((h.moves hq.moves).closeRun id).of_deeds rfl
    have hd : Resumed (d''.remember (.paused id d''.turnNumber)) := (he.moves hm).cons rfl nofun
    exact hd.rest _ _ _
  | woke _ result => exact (h.woke hr).endTask _ _
  | uncounted ht => exact h.endTask _ _
  | counted ht => exact h.rest _ _ _
  | ticked hp hq => exact (h.moves hq.moves).rest _ _ _
  | late hp hover hq => exact (h.moves hq.moves).endTask _ _
  | @expired _ e d'' passed total hp hi hq hm =>
    have hidle : Resumed { d with phase := .idle } := h.of_deeds rfl
    have he : Resumed e.passTurn := (hidle.moves hq.moves).of_deeds rfl
    exact (he.moves hm).beginTurn.endTask _ _

theorem Resumed.goes {d d' : Duel} (h : Resumed d) (hg : Goes d d') : Resumed d' := by
  cases hg with
  | moved hm => exact h.moves hm
  | stepped hs =>
    cases hs with
    | @dropped t ready hr hc =>
      have htaken : Resumed (d.taken t ready) := h.of_deeds rfl
      exact (htaken.endTask _ _).of_deeds rfl
    | @worked t ready d' hr hc hw =>
      have htaken : Resumed (d.taken t ready) := h.of_deeds rfl
      exact (htaken.worked rfl hw).of_deeds rfl
  | woken hw => exact h.of_deeds rfl
  | timed now => exact h.of_deeds rfl

end Duel

namespace Coordinator

open Duel

variable {M : Type} (l : Listener M)

/-- Each turn has one timer at most, and every run that has paused starts timers and runs only in
the turn that it brought about, just if every run comes back from its pause in that turn, or when a
script may run or the match is over. -/
theorem one_timer_iff (arena : Arena) (timing : Timing) (scripts : Duo Json) (memory : M)
    (hs : List Happening) :
    let deeds := ((fresh arena timing scripts memory).after l hs).duel.deeds
    (Deed.timedTurns deeds).Nodup ∧ Deed.Loyal deeds ↔ Deed.OnTime deeds := by
  intro deeds
  have hkept : Resting ((fresh arena timing scripts memory).after l hs).duel ∧
      Timed ((fresh arena timing scripts memory).after l hs).duel :=
    after_keeps (P := fun d => Resting d ∧ Timed d)
      (fun hg h => ⟨h.1.goes hg, h.2.goes h.1 hg⟩) l _ hs
      ⟨resting_fresh arena timing scripts, timed_fresh arena timing scripts⟩
  have hresumed : Resumed ((fresh arena timing scripts memory).after l hs).duel :=
    after_keeps (fun hg h => h.goes hg) l _ hs nofun
  constructor
  · rintro ⟨-, hloyal⟩ run turn now phase hpaused hwoke
    by_cases hp : phase = .idle ∨ phase = .editing
    · obtain ⟨timer, htimed⟩ := hresumed run now phase hwoke hp
      exact Or.inl (hloyal run turn hpaused _ htimed now rfl)
    · cases phase <;> simp at hp ⊢
  · exact fun hot => ⟨hkept.2.once hot, hkept.2.loyal hot⟩

/-- The pauses of two runs both end in the turn that the second has brought about. -/
def twoReturns : List Happening :=
  twoPauses ++ [.request (.setContinuous false), .wake, .wake, .step, .step]

/-- The first of them times a turn that it has not brought about, and the second times it again. -/
theorem late_return_retimes :
    let deeds := (fieldMatch.after .silent twoReturns).duel.deeds
    ¬ (Deed.timedTurns deeds).Nodup ∧ ¬ Deed.Loyal deeds := by
  intro deeds
  have hturns : Deed.timedTurns deeds = [2, 2, 0] := by decide +kernel
  have hpaused : .paused 1 1 ∈ deeds := by decide +kernel
  have htimed : .timed 5 2 (some 1) ∈ deeds := by decide +kernel
  refine ⟨?_, ?_⟩
  · rw [hturns]
    decide
  · intro hloyal
    exact absurd (hloyal 1 1 hpaused _ htimed 2 rfl) (by decide)

end Coordinator

end MazeDuel.Turn
