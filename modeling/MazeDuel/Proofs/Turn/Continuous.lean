import MazeDuel.Proofs.Turn.Stepping
/-!
Matches in continuous mode that are left alone: each run is a turn by the rules, and after a pause
the next one begins by itself, until the match is over.
-/

namespace MazeDuel.Turn

namespace Duel

open Deed

variable {d d' : Duel} {r : Accepted} {program : List Action} {id : Nat} {g : Setting}
  {s : Standing} {programs : Duo (List Action)} {n : Nat}

/-- Between two runs only the pause goes on, if it can be kept at all. -/
structure Pausing (g : Setting) (id : Nat) (d : Duel) : Prop extends Alone id d where
  nobody : d.awaited = none
  untimed : d.timer = none
  pause : ∀ t ∈ d.schedule.tasks, t.cancelled = false →
    g.timing.turnDelay.fitsReal ∧ ∃ result, t.job = .pause result
  there : g.timing.turnDelay.fitsReal → ∃ t ∈ d.schedule.tasks, t.id = id ∧ t.cancelled = false

/-- A run that fails leaves nobody behind. -/
theorem Fails.deserted (h : Fails r d d') (ho : Deserted d) (ha : d.awaited = none) :
    Deserted d' ∧ d'.awaited = none := by
  cases h with
  | @broke e fault hwhy hschedule hawaited hrunning hscripts hphase hstanding =>
    have hnobody : e.awaited = none := hawaited.trans ha
    rw [endTask_of_ne (by simp [hnobody])]
    refine ⟨fun t ht => ho t ?_, hnobody⟩
    rw [← hschedule]
    exact ht

/-- A run whose pauses can be kept and that fails leaves the match as the rules say. -/
theorem Fails.stands (h : Fails r d d') (hf : r.timing.stepDelay.fitsReal) :
    d'.standing = r.standing := by
  cases h with
  | @broke e fault hwhy hschedule hawaited hrunning hscripts hphase hstanding =>
    exact (beside_endTask e r.id (.failed fault)).standing.trans (hstanding hf)

/-- A run that comes to its end in continuous mode goes to its pause. -/
theorem Ends.pausing (h : Ends r d d') (ho : Deserted d) (ha : d.awaited = none)
    (hn : d.timer = none) (hset : d.phase ≠ .over → d.setting = r.setting)
    (hon : r.continuous = true) (hp : d'.phase ≠ .over) : Pausing r.setting r.id d' := by
  cases h with
  | @decided result journal hok hover hstanding =>
    refine absurd ?_ hp
    have hapart := (beside_endTask { d with journal, lastExecution := some result } r.id
      (.done (some result))).toApart
    exact hapart.phase.trans hover
  | passed handed hok hbusy hoff hstanding =>
    have hmode := congrArg Setting.continuous (hset (by rw [hbusy]; decide))
    cases (hoff.symm.trans hmode).trans hon
  | @paused _ result handed hok hbusy _ hstanding =>
    obtain ⟨deeds, arena, log, journal, rfl⟩ := handed
    have htiming : d.timing = r.timing := congrArg Setting.timing (hset (by rw [hbusy]; decide))
    have hcalled {t : Task Job} (ht : t ∈ d.schedule.tasks) (hlive : t.cancelled = false) :
        False := by
      cases hlive.symm.trans (ho t ht).2
    unfold Duel.rest
    split
    · rename_i hf
      have htasks (t : Task Job) (ht : t ∈ (d.schedule.rest r.id (.pause result)
          d.timing.turnDelay.toFloat).tasks) :
          t = { id := r.id, job := .pause result } ∨ t ∈ d.schedule.tasks :=
        (Schedule.mem_tasks_rest _ _ _ _ t).mp ht
      refine ⟨⟨⟨fun k hk => ?_, fun t ht => ?_⟩, fun t ht => ?_⟩, ha, hn, fun t ht hlive => ?_,
        fun _ => ⟨_, (Schedule.mem_tasks_rest _ _ _ _ _).mpr (Or.inl rfl), rfl, rfl⟩⟩
      · cases ha.symm.trans hk
      · rcases htasks t ht with rfl | ht
        · nofun
        · exact (ho t ht).1
      · rcases htasks t ht with rfl | ht
        · exact Or.inl rfl
        · exact Or.inr (ho t ht).2
      · refine ⟨?_, (htasks t ht).elim (fun heq => ⟨_, congrArg Task.job heq⟩) fun ht =>
          (hcalled ht hlive).elim⟩
        show r.timing.turnDelay.fitsReal
        rw [← htiming]
        exact hf
    · rename_i hlong
      have hlong' : ¬ r.timing.turnDelay.fitsReal := by
        rw [← htiming]
        exact hlong
      rw [endTask_of_ne (by simp [Duel.handed, Duel.remember, ha])]
      refine ⟨⟨⟨fun k hk => ?_, fun t ht => (ho t ht).1⟩, fun t ht => Or.inr (ho t ht).2⟩, ha, hn,
        fun t ht hlive => (hcalled ht hlive).elim, fun hf => absurd hf hlong'⟩
      cases ha.symm.trans hk

/-- A run is on its way in a setting, and nobody waits for it. -/
def Ahead (g : Setting) (s : Standing) (d : Duel) : Prop :=
  ∃ r program, Underway r program d ∧ Alone r.id d ∧ d.awaited = none ∧ r.setting = g ∧
    r.standing = s ∧ d.phase = .executing

theorem Ahead.busy (h : Ahead g s d) : d.phase = .executing := by
  obtain ⟨_, _, -, -, -, -, -, hbusy⟩ := h
  exact hbusy

/-- A run has failed, and nobody is left. If its pauses could be kept, then the rules have it so. -/
structure Stuck (g : Setting) (s : Standing) (d : Duel) : Prop extends Still d where
  busy : d.phase = .executing
  off : Deserted d
  nobody : d.awaited = none
  why : g.timing.stepDelay.fitsReal → s.phase = .executing

/-- How a match that is left alone in continuous mode goes on after some runs. Without pauses that
can be kept there is no second one. -/
inductive Playing (g : Setting) (s : Standing) (programs : Duo (List Action)) (n : Nat)
    (d : Duel) : Prop where
  | running (ahead : Ahead g (s.turns programs (n + 1)) d) (lasts : s.Lasts programs (n + 1))
      (kept : 0 < n → g.timing.turnDelay.fitsReal)
  | between {id : Nat} (settled : Settled g (s.turns programs n) d) (lasts : s.Lasts programs n)
      (kept : 1 < n → g.timing.turnDelay.fitsReal) (pausing : d.phase ≠ .over → Pausing g id d)
  | stuck (stuck : Stuck g (s.turns programs (n + 1)) d)

/-- A run that finds the match over has nothing more to do with how it stands. -/
theorem Underway.settled (h : Underway r program d) (hp : d.phase = .over) :
    Settled g r.standing d := by
  obtain ⟨job, executed, -, -, href⟩ := h.there
  rw [Standing.run_over (s := d.standing) hp, Standing.conclude_over (by exact hp)] at href
  exact ⟨h.toStill, congrArg Prod.snd href, h.proper, fun hgoes => absurd hp hgoes⟩

/-- A pause goes on while others leave the queue. -/
theorem Pausing.kept (h : Pausing g id d) (hawaited : d'.awaited = d.awaited)
    (htimer : d'.timer = d.timer) (hsub : ∀ t ∈ d'.schedule.tasks, t ∈ d.schedule.tasks)
    (hlive : ∀ t ∈ d.schedule.tasks, t.cancelled = false → t ∈ d'.schedule.tasks) :
    Pausing g id d' where
  awaited k hk := h.awaited k (hawaited.symm.trans hk)
  callers t ht := h.callers t (hsub t ht)
  others t ht := h.others t (hsub t ht)
  nobody := hawaited.trans h.nobody
  untimed := htimer.trans h.untimed
  pause t ht := h.pause t (hsub t ht)
  there hf := by
    obtain ⟨t, ht, hid, hgoes⟩ := h.there hf
    exact ⟨t, hlive t ht hgoes, hid, hgoes⟩

/-- In continuous mode the player to move begins a run as soon as the turn has begun. -/
theorem Poised.begins (h : Poised d) (hsolo : Solo d) (hp : d.phase = .idle)
    (hs : d.started = true) (hon : d.continuous = true) (ha : d.arena.Proper)
    (hread : Reads d.scripts programs) :
    d.autoExecute.awaited = none ∧
      ∀ {d'}, (∃ running outcomes, d' = { d.autoExecute with running, outcomes }) → Still d' →
        Ahead d.setting (d.standing.turn programs) d' := by
  obtain ⟨message, hexecute⟩ := execute_accepted hs (Or.inl hp)
  let noted : Duel := { d.note .debug message with phase := .executing }
  have hauto : d.autoExecute = noted.accept d.current := by
    unfold autoExecute
    rw [hon, hs, hp]
    exact congrArg Prod.snd hexecute
  have hnoted : Poised noted := ⟨h.awaited, h.meek⟩
  have halone := hnoted.accept ⟨hsolo.nodup, hsolo.known⟩ d.current
  have hnobody := (awaited_accept noted d.current).trans hnoted.awaited
  rw [hauto]
  refine ⟨hnobody, ?_⟩
  rintro d' ⟨running, outcomes, rfl⟩ hstill
  refine ⟨d.bid (programs.get d.current), programs.get d.current, ?_,
    ⟨⟨halone.awaited, halone.callers⟩, halone.others⟩, hnobody, rfl, rfl, rfl⟩
  exact underway_accepted (hsolo.free (Or.inl hp)) hs ha
    (hread.program? d.current) message (apart_beside rfl) hstill
    ((Schedule.mem_tasks_spawn _ _ _).mpr (Or.inl rfl))

/-- With everybody called off a turn in continuous mode begins with nothing but its run. -/
theorem Deserted.begins (h : Deserted d) (hsolo : Solo d) (ha : d.awaited = none)
    (hn : d.timer = none) (hp : d.phase = .idle) (hs : d.started = true)
    (hon : d.continuous = true) (hproper : d.arena.Proper) (hread : Reads d.scripts programs)
    {outcome : Outcome} (hd : d' = { d.beginTurn.endTask id outcome with running := none })
    (hstill : Still d') : Ahead d.setting (d.standing.turn programs) d' := by
  have hbegin : d.beginTurn = d.startTimer.autoExecute := by
    unfold beginTurn
    exact if_neg (by simp [isBusy, hp])
  obtain ⟨hnobody, hahead⟩ :=
    (h.startTimer ha hn).begins hsolo.startTimer hp hs hon hproper hread
  rw [hbegin, endTask_of_ne (by simp [hnobody])] at hd
  exact hahead ⟨none, _, hd⟩ hstill

end Duel

namespace Coordinator

open Duel Deed

variable {M : Type} {l : Listener M} {tell : Notification → Coordinator M → Coordinator M}
  {c c' : Coordinator M} {r : Accepted} {program : List Action} {seen : M → List Duel} {id n : Nat}
  {g : Setting} {s : Standing} {programs : Duo (List Action)} {t : Task Job}
  {ready : List (Task Job)}

/-- A task that comes back from its pause begins the turn and ends. -/
theorem step?_pause (hr : c.duel.schedule.ready = t :: ready) (hlive : t.cancelled = false)
    {result : ExecutionResult} (hj : t.job = .pause result) (hstep : c.step? tell = some c') :
    let woken := (c.duel.taken t ready).remember (.woke t.id c.duel.turnNumber c.duel.phase)
    c'.duel = { woken.beginTurn.endTask t.id (.done (some result)) with running := none } := by
  obtain ⟨t', ready', hr', -, rfl⟩ := step?_taken tell hstep
  cases hr.symm.trans hr'
  rw [if_neg (by simp [hlive]), hj]
  rfl

/-- The end of a pause, which can be kept, begins the next run. -/
theorem pausing_wakes (hon : g.continuous = true) (hread : Reads g.scripts programs)
    (hs : Settled g s c.duel) (hp : c.duel.phase ≠ .over) (h : Pausing g id c.duel)
    (hr : c.duel.schedule.ready = t :: ready) (hlive : t.cancelled = false)
    (hstill : Still c'.duel) (hstep : c.step? tell = some c') :
    g.timing.turnDelay.fitsReal ∧ Ahead g (s.turn programs) c'.duel := by
  obtain ⟨hidle, hstarted, rfl⟩ := hs.going hp
  obtain ⟨hfits, result, hj⟩ := h.pause t (tasks_of_ready hr) hlive
  have hid : t.id = id := (h.others t (tasks_of_ready hr)).resolve_right (by simp [hlive])
  let woken : Duel := (c.duel.taken t ready).remember (.woke t.id c.duel.turnNumber c.duel.phase)
  have hsolo : Solo woken := (hs.toSolo.taken hs.still hr).irrelevant rfl rfl rfl rfl rfl rfl
  have hoff : Deserted woken := h.toAlone.taken hs.toStill hr hid
  have hahead := hoff.begins hsolo h.nobody h.untimed hidle hstarted hon hs.proper hread
    (step?_pause hr hlive hj hstep) hstill
  rw [← hs.standing]
  exact ⟨hfits, hahead⟩

/-- How often a run comes to its end in a history: how often the execution of a script is left. -/
def runsEnded (l : Listener M) (c : Coordinator M) : List Happening → Nat
  | [] => 0
  | x :: hs =>
    (if c.duel.phase = .executing ∧ (c.happen l x).duel.phase ≠ .executing then 1 else 0) +
      (c.happen l x).runsEnded l hs

theorem runsEnded_append (hs hs' : List Happening) :
    c.runsEnded l (hs ++ hs') = c.runsEnded l hs + (c.after l hs).runsEnded l hs' := by
  induction hs generalizing c with
  | nil => exact (Nat.zero_add _).symm
  | cons x hs ih =>
    simp only [List.cons_append, runsEnded, after_cons, ih]
    omega

/-- What happens while a run is on its way leaves it so, or ends it. -/
theorem ahead_happen (hl : Mute seen l) (hon : g.continuous = true) {s' : Standing}
    (h : Ahead g s' c.duel) {x : Happening} (hx : x.isRequest = false) :
    let d := (c.happen l x).duel
    Ahead g s' d ∨ (∃ id, Settled g s' d ∧ (d.phase ≠ .over → Pausing g id d)) ∨ Stuck g s' d := by
  intro d
  obtain ⟨r, program, hway, halone, hnobody, rfl, rfl, hbusy⟩ := h
  have hstill : Still d := still_happen hway.toStill x
  have hproper : d.arena.Proper := proper_happen hl hway.toStill hway.proper x
  rcases alone_happen (passive_tell hl) hway halone hx with
    ⟨later, hlater, hkept, hsame⟩ | ⟨t, ready, hr, hid, hlast⟩
  · rcases hlater.busy with hbusy' | hover
    · exact Or.inl ⟨r, later, hlater, hkept, hsame.trans hnobody, rfl, rfl, hbusy'⟩
    · exact Or.inr (Or.inl ⟨r.id, hlater.settled hover, fun hp => absurd hover hp⟩)
  · right
    have hoff := halone.taken hway.toStill hr hid
    rcases hlast with hfails | hends
    · obtain ⟨hcalled, hleft⟩ := hfails.deserted hoff hnobody
      rcases hfails.settled hstill hproper with hbusy' | ⟨hover, hsettled⟩
      · refine Or.inr ⟨hstill, hbusy', hcalled, hleft, fun hf => ?_⟩
        rw [← hfails.stands hf]
        exact hbusy'
      · exact Or.inl ⟨r.id, hsettled, fun hp => absurd hover hp⟩
    · exact Or.inl ⟨r.id, hends.settled hstill hproper hway.started hway.setting,
        hends.pausing hoff hnobody hway.untimed hway.setting hon⟩

/-- A pause goes on until its task makes its step, and that begins the next run. -/
theorem pausing_happen (hon : g.continuous = true) (hread : Reads g.scripts programs)
    (hs : Settled g s c.duel) (hp : c.duel.phase ≠ .over)
    (h : Pausing g id c.duel) {x : Happening} (hx : x.isRequest = false) :
    let d := (c.happen l x).duel
    g.timing.turnDelay.fitsReal ∧ Ahead g (s.turn programs) d ∨
      Settled g s d ∧ d.phase ≠ .over ∧ Pausing g id d := by
  intro d
  have hstill : Still d := still_happen hs.toStill x
  have hgoes (hapart : Apart c.duel d) (hpausing : Pausing g id d) :
      Settled g s d ∧ d.phase ≠ .over ∧ Pausing g id d :=
    ⟨hs.apart hapart hstill, hapart.phase ▸ hp, hpausing⟩
  cases x with
  | request q => cases hx
  | clock now => exact Or.inr (hgoes (apart_beside rfl) (h.kept rfl rfl (fun _ ht => ht)
      fun _ ht _ => ht))
  | wake =>
    right
    cases hw : c.duel.schedule.wake? with
    | none =>
      have hsame : d = c.duel := by simp [d, happen, wake?, hw]
      rw [hsame]
      exact ⟨hs, hp, h⟩
    | some schedule =>
      have hduel : d = { c.duel with schedule } := by simp [d, happen, wake?, hw, update]
      have htasks := Schedule.tasks_wake? hw
      rw [hduel] at hgoes ⊢
      exact hgoes (apart_beside rfl) (h.kept rfl rfl (fun t ht => (htasks t).mp ht)
        fun t ht _ => (htasks t).mpr ht)
  | step =>
    cases hstep : c.step? l.tell with
    | none =>
      have hsame : d = c.duel := by simp [d, happen, hstep]
      rw [hsame]
      exact Or.inr ⟨hs, hp, h⟩
    | some c' =>
      have hduel : d = c'.duel := congrArg duel (happen_step hstep)
      obtain ⟨t, ready, hr, -⟩ := step?_taken l.tell hstep
      rw [hduel] at hstill hgoes ⊢
      cases hcancelled : t.cancelled with
      | false => exact Or.inl (pausing_wakes hon hread hs hp h hr hcancelled hstill hstep)
      | true =>
        right
        have hdropped := step?_dropped hr hcancelled (by simp [h.nobody]) hstep
        rw [hdropped] at hgoes ⊢
        refine hgoes (apart_beside rfl) (h.kept rfl rfl (fun u hu => mem_tasks_taken hr hu)
          fun u hu hlive => ?_)
        simp only [Schedule.tasks, hr, List.cons_append, List.mem_cons] at hu
        refine hu.resolve_left fun heq => ?_
        rw [heq, hcancelled] at hlive
        cases hlive

/-- Nothing that happens by itself changes how a match stands that is over. -/
theorem settled_happen_over (hl : Mute seen l) (h : Settled g s c.duel)
    (ho : c.duel.phase = .over) {x : Happening} (hx : x.isRequest = false) :
    Settled g s (c.happen l x).duel ∧ (c.happen l x).duel.phase = .over := by
  have hstanding : (c.happen l x).duel.standing = c.duel.standing := by
    cases x with
    | request q => cases hx
    | clock now => rfl
    | wake =>
      unfold happen wake?
      cases c.duel.schedule.wake? <;> rfl
    | step =>
      unfold happen
      cases hstep : c.step? l.tell with
      | none => rfl
      | some c' => exact standing_step?_over ho hstep
  have hover : (c.happen l x).duel.phase = .over := (congrArg Standing.phase hstanding).trans ho
  exact ⟨⟨still_happen h.toStill x, hstanding.trans h.standing,
    proper_happen hl h.toStill h.proper x, fun hp => absurd hover hp⟩, hover⟩

/-- When a run has failed, a script is said to be executed for ever. -/
theorem stuck_happen (h : Stuck g s c.duel) {x : Happening} (hx : x.isRequest = false) :
    Stuck g s (c.happen l x).duel := by
  have hstill : Still (c.happen l x).duel := still_happen h.toStill x
  cases x with
  | request q => cases hx
  | clock now => exact ⟨hstill, h.busy, h.off, h.nobody, h.why⟩
  | wake =>
    cases hw : c.duel.schedule.wake? with
    | none =>
      have hsame : c.happen l .wake = c := by simp [happen, wake?, hw]
      rw [hsame]
      exact h
    | some schedule =>
      have hduel : (c.happen l .wake).duel = { c.duel with schedule } := by
        simp [happen, wake?, hw, update]
      rw [hduel] at hstill ⊢
      exact ⟨hstill, h.busy, fun t ht => h.off t ((Schedule.tasks_wake? hw t).mp ht), h.nobody,
        h.why⟩
  | step =>
    cases hstep : c.step? l.tell with
    | none =>
      have hsame : c.happen l .step = c := by simp [happen, hstep]
      rw [hsame]
      exact h
    | some c' =>
      have hduel : (c.happen l .step).duel = c'.duel := congrArg duel (happen_step hstep)
      obtain ⟨t, ready, hr, -⟩ := step?_taken l.tell hstep
      have hdropped := step?_dropped hr (h.off t (tasks_of_ready hr)).2 (by simp [h.nobody]) hstep
      rw [hduel, hdropped] at hstill ⊢
      exact ⟨hstill, h.busy, fun u hu => h.off u (mem_tasks_taken hr hu), h.nobody, h.why⟩

theorem playing_happen (hl : Mute seen l) (hon : g.continuous = true)
    (hread : Reads g.scripts programs) (h : Playing g s programs n c.duel) {x : Happening}
    (hx : x.isRequest = false) :
    Playing g s programs (n + c.runsEnded l [x]) (c.happen l x).duel := by
  unfold runsEnded runsEnded
  cases h with
  | running ahead lasts kept =>
    rcases ahead_happen hl hon ahead hx with hahead | ⟨id, hsettled, hpausing⟩ | hstuck
    · rw [if_neg (by simp [hahead.busy])]
      exact .running hahead lasts kept
    · rw [if_pos ⟨ahead.busy, hsettled.resting⟩]
      exact .between hsettled lasts (fun hn => kept (Nat.lt_of_succ_lt_succ hn)) hpausing
    · rw [if_neg (by simp [hstuck.busy])]
      exact .stuck hstuck
  | between settled lasts kept pausing =>
    rw [if_neg fun hp => settled.resting hp.1]
    by_cases hp : c.duel.phase = .over
    · obtain ⟨hsettled, hover⟩ := settled_happen_over hl settled hp hx
      have hrest : (c.happen l x).duel.phase ≠ .over → Pausing g 0 (c.happen l x).duel :=
        fun hgoes => absurd hover hgoes
      exact .between hsettled lasts kept hrest
    · rcases pausing_happen hon hread settled hp (pausing hp) hx with
        ⟨hfits, hahead⟩ | ⟨hsettled, hgoes⟩
      · refine .running hahead (lasts.succ ?_) fun _ => hfits
        rw [← settled.standing]
        exact (settled.going hp).1
      · exact .between hsettled lasts kept fun _ => hgoes.2
  | stuck stuck =>
    have hstuck := stuck_happen (l := l) stuck hx
    rw [if_neg (by simp [hstuck.busy])]
    exact .stuck hstuck

/-- A match that is left alone in continuous mode stands after every run as the rules say. -/
theorem playing_after (hl : Mute seen l) (hon : g.continuous = true)
    (hread : Reads g.scripts programs) (h : Playing g s programs n c.duel) {hs : List Happening}
    (hhs : ∀ x ∈ hs, x.isRequest = false) :
    Playing g s programs (n + c.runsEnded l hs) (c.after l hs).duel := by
  induction hs generalizing c n with
  | nil => exact h
  | cons x hs ih =>
    have hnext := playing_happen hl hon hread h (hhs x (List.mem_cons_self ..))
    have hlater := ih hnext fun y hy => hhs y (List.mem_cons_of_mem _ hy)
    rw [Nat.add_assoc, show c.happen l x = c.after l [x] from rfl, ← runsEnded_append] at hlater
    exact hlater

/-! ## The next run comes to its end -/

/-- A history that leaves the execution of a script has a beginning that ends the first run. -/
theorem exists_first_end (hs : List Happening) (hbusy : c.duel.phase = .executing)
    (hend : (c.after l hs).duel.phase ≠ .executing) :
    ∃ hs', hs' <+: hs ∧ c.runsEnded l hs' = 1 ∧ (c.after l hs').duel.phase ≠ .executing := by
  induction hs generalizing c with
  | nil => exact absurd hbusy hend
  | cons x hs ih =>
    by_cases hnext : (c.happen l x).duel.phase = .executing
    · obtain ⟨hs', hfirst, hcount, hleft⟩ := ih hnext hend
      refine ⟨x :: hs', List.cons_prefix_cons.mpr ⟨rfl, hfirst⟩, ?_, hleft⟩
      rw [runsEnded, if_neg (by simp [hnext]), hcount]
    · refine ⟨[x], List.cons_prefix_cons.mpr ⟨rfl, List.nil_prefix⟩, ?_, hnext⟩
      rw [runsEnded, if_pos ⟨hbusy, hnext⟩]
      rfl

/-- A history that comes to the execution of a script has a beginning that begins the first run. -/
theorem exists_first_begin (hs : List Happening) (hrest : c.duel.phase ≠ .executing)
    (hbusy : (c.after l hs).duel.phase = .executing) :
    ∃ hs', hs' <+: hs ∧ c.runsEnded l hs' = 0 ∧ (c.after l hs').duel.phase = .executing := by
  induction hs generalizing c with
  | nil => exact absurd hbusy hrest
  | cons x hs ih =>
    by_cases hnext : (c.happen l x).duel.phase = .executing
    · refine ⟨[x], List.cons_prefix_cons.mpr ⟨rfl, List.nil_prefix⟩, ?_, hnext⟩
      rw [runsEnded, if_neg (by simp [hrest])]
      rfl
    · obtain ⟨hs', hfirst, hcount, hcame⟩ := ih hnext hbusy
      refine ⟨x :: hs', List.cons_prefix_cons.mpr ⟨rfl, hfirst⟩, ?_, hcame⟩
      rw [runsEnded, if_neg (by simp [hrest]), hcount]

/-- A run that is on its way comes to its end, if its pauses can be kept and the rules have it end.
-/
theorem ahead_ends (hf : g.timing.stepDelay.fitsReal) {s' : Standing} (hl : Mute seen l)
    (hend : s'.phase ≠ .executing) (h : Ahead g s' c.duel) :
    ∃ hs, (∀ x ∈ hs, x = .step ∨ x = .wake) ∧ c.runsEnded l hs = 1 ∧
      (c.after l hs).duel.phase ≠ .executing := by
  obtain ⟨r, program, hway, halone, -, rfl, rfl, hbusy⟩ := h
  obtain ⟨hs, hsteps, later, t, ready, x', hlater, -, hr, -, hstep, hlast⟩ :=
    underway_last (passive_tell hl) hway halone.toUnhindered
  have hafter : c.after l (hs ++ [.step]) = x' := by
    rw [after_concat, happen_step hstep]
  have hstill : Still x'.duel := still_step? (tells_tell l) hlater.toStill hstep
  have hproper : x'.duel.arena.Proper := by
    have hkept := proper_happen hl hlater.toStill hlater.proper .step
    rwa [happen_step hstep] at hkept
  have hleft : x'.duel.phase ≠ .executing := by
    rcases hlast with hends | hfails
    · exact (hends.settled hstill hproper hlater.started hlater.setting).resting
    · exact fun hp => hend ((congrArg Standing.phase (hfails.stands hf)).symm.trans hp)
  obtain ⟨hs', hfirst, hcount, hrest⟩ :=
    exists_first_end (hs ++ [.step]) hbusy (by rw [hafter]; exact hleft)
  exact ⟨hs', fun x hx => steps_concat hsteps x (hfirst.subset hx), hcount, hrest⟩

/-- A pause that can be kept is waited for in the queue. -/
theorem waiting_pausing (hon : g.continuous = true) (hread : Reads g.scripts programs)
    (hf : g.timing.turnDelay.fitsReal) (s : Standing) (id : Nat) :
    Waiting l id fun x => Settled g s x.duel ∧ x.duel.phase ≠ .over ∧ Pausing g id x.duel where
  there h := by
    obtain ⟨t, ht, hid, -⟩ := h.2.2.there hf
    exact ⟨t, ht, hid⟩
  callers h := h.2.2.callers
  wakes := by
    intro c c' ⟨hs, hp, hpausing⟩ hwake
    have hphase : c'.duel.phase = c.duel.phase := by
      unfold wake? at hwake
      obtain ⟨schedule, -, rfl⟩ := Option.map_eq_some_iff.mp hwake
      rfl
    have hnext := pausing_happen (l := l) (x := .wake) hon hread hs hp hpausing rfl
    rw [happen_wake hwake] at hnext
    refine hnext.resolve_left fun ⟨_, hahead⟩ => ?_
    exact hs.resting (hphase.symm.trans hahead.busy)
  steps := by
    intro c c' t ready ⟨hs, hp, hpausing⟩ hr hid hstep
    have hcancelled := (hpausing.others t (tasks_of_ready hr)).resolve_left hid
    have hdropped := step?_dropped hr hcancelled (by simp [hpausing.nobody]) hstep
    have hnext := pausing_happen (l := l) (x := .step) hon hread hs hp hpausing rfl
    rw [happen_step hstep] at hnext
    refine ⟨hnext.resolve_left fun ⟨_, hahead⟩ => hs.resting ?_, ?_⟩
    · have hbusy := hahead.busy
      rw [hdropped] at hbusy
      exact hbusy
    · rw [hdropped]

/-- A pause that can be kept comes to its end, and then the next run is on its way. -/
theorem pausing_ends (hon : g.continuous = true) (hread : Reads g.scripts programs)
    (hf : g.timing.turnDelay.fitsReal) (hs : Settled g s c.duel) (hp : c.duel.phase ≠ .over)
    (h : Pausing g id c.duel) :
    ∃ hs, (∀ x ∈ hs, x = .step ∨ x = .wake) ∧ c.runsEnded l hs = 0 ∧
      (c.after l hs).duel.phase = .executing := by
  obtain ⟨hs', hsteps, ⟨hsettled, hgoes, hpausing⟩, t, ready, x', hr, hid, hstep⟩ :=
    (waiting_pausing (l := l) hon hread hf s id).turn ⟨hs, hp, h⟩
  have hlive : t.cancelled = false := by
    obtain ⟨u, hu, huid, hlive⟩ := hpausing.there hf
    have hsame := Schedule.eq_of_id_eq hsettled.toNumbered.asleep (tasks_of_ready hr) hu
      (hid.trans huid.symm)
    rw [hsame, hlive]
  have hstill : Still x'.duel := still_step? (tells_tell l) hsettled.toStill hstep
  obtain ⟨-, hahead⟩ := pausing_wakes hon hread hsettled hgoes hpausing hr hlive hstill hstep
  have hlast : c.after l (hs' ++ [.step]) = x' := by
    rw [after_concat, happen_step hstep]
  obtain ⟨hs'', hfirst, hcount, hbusy⟩ := exists_first_begin (l := l) (hs' ++ [.step])
    hs.resting (by rw [hlast]; exact hahead.busy)
  exact ⟨hs'', fun x hx => steps_concat hsteps x (hfirst.subset hx), hcount, hbusy⟩

theorem steps_append {hs hs' : List Happening} (h : ∀ x ∈ hs, x = .step ∨ x = .wake)
    (h' : ∀ x ∈ hs', x = .step ∨ x = .wake) : ∀ x ∈ hs ++ hs', x = .step ∨ x = .wake :=
  fun x hx => (List.mem_append.mp hx).elim (h x) (h' x)

/-- Between two runs a match comes to the end of the next one, if its pauses can be kept and the
rules have it end. -/
theorem between_ends (hl : Mute seen l) (hon : g.continuous = true)
    (hread : Reads g.scripts programs) (hf : g.timing.stepDelay.fitsReal)
    (hf' : g.timing.turnDelay.fitsReal) (hs : Settled g (s.turns programs n) c.duel)
    (hlasts : s.Lasts programs n) (hp : c.duel.phase ≠ .over) (h : Pausing g id c.duel)
    (hend : (s.turns programs (n + 1)).phase ≠ .executing) :
    ∃ hs, (∀ x ∈ hs, x = .step ∨ x = .wake) ∧ c.runsEnded l hs = 1 ∧
      (c.after l hs).duel.phase ≠ .executing := by
  obtain ⟨hs₁, hsteps, hcount, hbusy⟩ := pausing_ends (l := l) hon hread hf' hs hp h
  have hresumed := playing_after hl hon hread (.between hs hlasts (fun _ => hf') fun _ => h)
    (unasked_of_steps hsteps)
  rw [hcount] at hresumed
  cases hresumed with
  | between settled => exact absurd hbusy settled.resting
  | stuck stuck => exact absurd (stuck.why hf) hend
  | running ahead =>
    obtain ⟨hs₂, hsteps', hcount', hrest⟩ := ahead_ends (l := l) hf hl hend ahead
    refine ⟨hs₁ ++ hs₂, steps_append hsteps hsteps', ?_, ?_⟩
    · rw [runsEnded_append, hcount, hcount']
    · rw [after_append]
      exact hrest

/-- If its pauses can be kept, then a match that is left alone in continuous mode comes to the end
of every run that the rules have end. -/
theorem playing_reaches (hl : Mute seen l) (hon : g.continuous = true)
    (hread : Reads g.scripts programs) (hf : g.timing.stepDelay.fitsReal)
    (hf' : g.timing.turnDelay.fitsReal) (h : Ahead g (s.turns programs 1) c.duel) (n : Nat)
    (hlasts : s.Lasts programs (n + 1)) (hend : (s.turns programs (n + 1)).phase ≠ .executing) :
    ∃ hs, (∀ x ∈ hs, x = .step ∨ x = .wake) ∧ c.runsEnded l hs = n + 1 ∧
      (c.after l hs).duel.phase ≠ .executing := by
  have hbegun : Playing g s programs 0 c.duel :=
    .running h (fun m hm => hlasts m (Nat.lt_of_lt_of_le hm (Nat.succ_le_succ (Nat.zero_le n))))
      (fun _ => hf')
  induction n with
  | zero => exact ahead_ends hf hl hend h
  | succ n ih =>
    have hidle := hlasts (n + 1) (Nat.lt_succ_self _)
    obtain ⟨hs, hsteps, hcount, hrest⟩ :=
      ih (fun m hm => hlasts m (Nat.lt_succ_of_lt hm)) (by simp [hidle])
    have hplaying := playing_after hl hon hread hbegun (unasked_of_steps hsteps)
    rw [hcount, Nat.zero_add] at hplaying
    cases hplaying with
    | running ahead => exact absurd ahead.busy hrest
    | stuck stuck => exact absurd stuck.busy hrest
    | between settled lasts kept pausing =>
      have hp : (c.after l hs).duel.phase = .idle :=
        (congrArg Standing.phase settled.standing).trans hidle
      have hp : (c.after l hs).duel.phase ≠ .over := by simp [hp]
      obtain ⟨hs', hsteps', hcount', hrest'⟩ :=
        between_ends (l := l) hl hon hread hf hf' settled lasts hp (pausing hp) hend
      refine ⟨hs ++ hs', steps_append hsteps hsteps', ?_, ?_⟩
      · rw [runsEnded_append, hcount, hcount']
      · rw [after_append]
        exact hrest'

end Coordinator

end MazeDuel.Turn
