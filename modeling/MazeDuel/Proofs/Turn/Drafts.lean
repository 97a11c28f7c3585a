import MazeDuel.Proofs.Turn.Solo
import MazeDuel.Proofs.Turn.Timers
/-!
Scripts through a match: whose script is replaced and when, and that a run keeps to the script that
its player had at the moment when the run was accepted.
-/

namespace MazeDuel.Turn

namespace Deed

/-- The script of a player after some deeds, the latest first: the one given last, or the first of
all. -/
def draft (p : Player) (first : Json) : List Deed → Json
  | [] => first
  | scripted q script _ _ :: deeds => if p = q then script else draft p first deeds
  | _ :: deeds => draft p first deeds

/-- The actions that a run has begun, in order. -/
def begun (run : Nat) : List Deed → List Action
  | [] => []
  | began r a _ _ :: deeds => begun run deeds ++ if r = run then [a] else []
  | _ :: deeds => begun run deeds

/-- The run that a deed tells of. -/
def run? : Deed → Option Nat
  | accepted run _ _ _ => some run
  | began run _ _ _ => some run
  | closed run _ => some run
  | _ => none

/-- Whether a deed replaces a script. -/
def isScripted : Deed → Bool
  | scripted _ _ _ _ => true
  | _ => false

/-- A run was accepted while its player had some script; which deeds came later is known. -/
def AcceptedWith (first : Duo Json) (deeds : List Deed) (run : Nat) (p : Player) (script : Json)
    (later : List Deed) : Prop :=
  ∃ turn author earlier, deeds = later ++ accepted run p turn author :: earlier ∧
    draft p (first.get p) earlier = script

/-- Whether a run has kept to a script: what it has begun is a beginning of the program, and the
whole program if the run has come to its end. Of a script that cannot be read it begins nothing. -/
def Obeys (p : Player) (script : Json) (run : Nat) (later : List Deed) : Prop :=
  match (Script.parseGiven p script).value with
  | .error _ => begun run later = []
  | .ok program => begun run later <+: program ∧
      ∀ taken, closed run taken ∈ later → begun run later = program

variable {first : Duo Json} {deeds later : List Deed} {run : Nat} {p : Player} {script : Json}
  {x : Deed}

theorem draft_cons (hx : x.isScripted = false) (p : Player) (first : Json) (deeds : List Deed) :
    draft p first (x :: deeds) = draft p first deeds := by
  cases x with
  | scripted => cases hx
  | _ => rfl

theorem begun_cons (hx : x.run? ≠ some run) : begun run (x :: deeds) = begun run deeds := by
  cases x with
  | began r a phase current =>
    have hr : r ≠ run := fun h => hx (congrArg some h)
    simp [begun, hr]
  | _ => rfl

theorem begun_began (run : Nat) (a : Action) (phase : Phase) (current : Player)
    (deeds : List Deed) :
    begun run (began run a phase current :: deeds) = begun run deeds ++ [a] := by
  simp [begun]

/-- A deed is either the acceptance that is looked for, or came after it. -/
theorem AcceptedWith.cases (h : AcceptedWith first (x :: deeds) run p script later) :
    (later = [] ∧ (∃ turn author, x = accepted run p turn author) ∧
      draft p (first.get p) deeds = script) ∨
    ∃ later', later = x :: later' ∧ AcceptedWith first deeds run p script later' := by
  obtain ⟨turn, author, earlier, heq, hscript⟩ := h
  cases later with
  | nil =>
    cases heq
    exact Or.inl ⟨rfl, ⟨turn, author, rfl⟩, hscript⟩
  | cons y later =>
    obtain ⟨rfl, rfl⟩ := List.cons_eq_cons.mp heq
    exact Or.inr ⟨later, rfl, turn, author, earlier, rfl, hscript⟩

theorem AcceptedWith.mem (h : AcceptedWith first deeds run p script later) :
    ∃ x ∈ deeds, x.run? = some run := by
  obtain ⟨turn, author, earlier, rfl, -⟩ := h
  exact ⟨_, List.mem_append_right _ (List.mem_cons_self ..), rfl⟩

/-- Where the deed is not an acceptance, the run was accepted before it. -/
theorem AcceptedWith.of_cons (h : AcceptedWith first (x :: deeds) run p script later)
    (hx : ∀ turn author, x ≠ accepted run p turn author) :
    ∃ later', later = x :: later' ∧ AcceptedWith first deeds run p script later' := by
  refine h.cases.resolve_left ?_
  rintro ⟨-, ⟨turn, author, rfl⟩, -⟩
  exact hx turn author rfl

theorem Obeys.nil (p : Player) (script : Json) (run : Nat) : Obeys p script run [] := by
  unfold Obeys
  split
  · rfl
  · exact ⟨List.nil_prefix, fun _ h => absurd h List.not_mem_nil⟩

/-- What others do changes nothing about a run. -/
theorem Obeys.cons (h : Obeys p script run later) (hx : x.run? ≠ some run) :
    Obeys p script run (x :: later) := by
  unfold Obeys at h ⊢
  rw [begun_cons hx]
  split at h
  · exact h
  · refine ⟨h.1, fun taken hmem => ?_⟩
    refine h.2 taken ((List.mem_cons.mp hmem).resolve_left ?_)
    rintro rfl
    exact hx rfl

end Deed

namespace Duel

open Deed

/-- What a task of a run has still to do, if the run was accepted with some script: at first the
script is the one that its player has now, and later its program is what was begun and what is
left. -/
def Remains (d : Duel) (p : Player) (script : Json) (begun : List Action) : Job → Prop
  | .begin q => q = p ∧ d.scripts.get p = script ∧ begun = []
  | .act _ rest _ => (Script.parseGiven p script).value = .ok (begun ++ rest)
  | _ => True

/-- Whether a task keeps to the script that its run was accepted with. -/
def Keeps (d : Duel) (first : Duo Json) (id : Nat) (job : Job) : Prop :=
  ∀ p script later, AcceptedWith first d.deeds id p script later →
    d.Remains p script (begun id later) job

/-- What holds of the scripts of a match, also in the middle of a step. -/
structure Faithful (first : Duo Json) (d : Duel) : Prop where
  drafts : ∀ p, d.scripts.get p = draft p (first.get p) d.deeds
  rightful : ∀ p script phase current, .scripted p script phase current ∈ d.deeds →
    current = p ∧ (phase = .idle ∨ phase = .editing)
  known : ∀ x ∈ d.deeds, ∀ run, x.run? = some run → run < d.schedule.fresh
  obeys : ∀ run p script later, AcceptedWith first d.deeds run p script later →
    Obeys p script run later
  tasks : ∀ t ∈ d.schedule.tasks, d.Keeps first t.id t.job

variable {first : Duo Json} {d d' : Duel} {id : Nat} {job : Job}

theorem faithful_fresh (arena : Arena) (timing : Timing) (scripts : Duo Json) :
    Faithful scripts (fresh arena timing scripts) where
  drafts _ := rfl
  rightful := nofun
  known := nofun
  obeys run p script later h := by
    obtain ⟨x, hx, -⟩ := h.mem
    cases hx
  tasks := nofun

theorem keeps_of_player? (h : job.player? = none) (d : Duel) (first : Duo Json) (id : Nat) :
    d.Keeps first id job := by
  cases job with
  | begin => cases h
  | act => cases h
  | _ => exact fun _ _ _ _ => trivial

theorem Keeps.congr (h : d.Keeps first id job) (hscripts : d'.scripts = d.scripts)
    (hdeeds : d'.deeds = d.deeds) : d'.Keeps first id job := by
  intro p script later ha
  have hr := h p script later (hdeeds ▸ ha)
  cases job with
  | begin q => exact ⟨hr.1, hscripts ▸ hr.2.1, hr.2.2⟩
  | _ => exact hr

/-- What others do changes nothing about a task. -/
theorem Keeps.remember (h : d.Keeps first id job) {x : Deed} (hx : x.run? ≠ some id) :
    (d.remember x).Keeps first id job := by
  intro p script later ha
  obtain ⟨later', rfl, ha'⟩ := ha.of_cons fun turn author heq => hx (heq ▸ rfl)
  rw [begun_cons hx]
  have hr := h p script later' ha'
  cases job <;> exact hr

/-- The program of a task is what its run has begun and what it has still to do. -/
theorem Keeps.program (h : d.Keeps first id job) {p : Player} {script : Json} {later : List Deed}
    (ha : AcceptedWith first d.deeds id p script later) {q : Player} {rest : List Action}
    {executed : List String} (hp : d.program? job = some (q, rest, executed)) :
    (Script.parseGiven p script).value = .ok (begun id later ++ rest) := by
  have hr := h p script later ha
  cases job with
  | begin r =>
    obtain ⟨rfl, rfl, hnone⟩ := hr
    simp only [program?, Option.map_eq_some_iff, Prod.mk.injEq] at hp
    obtain ⟨actions, hread, -, rfl, -⟩ := hp
    rw [hnone, List.nil_append]
    cases hv : (Script.parseGiven r (d.scripts.get r)).value with
    | error fault => simp [hv, Except.toOption] at hread
    | ok program =>
      simp only [hv, Except.toOption, Option.some.injEq] at hread
      rw [hread]
  | act r left labels =>
    simp only [program?, Option.some.injEq, Prod.mk.injEq] at hp
    rw [← hp.2.1]
    exact hr
  | _ => cases hp

/-- Scripts and deeds stay, and nobody new executes a program. -/
theorem Faithful.beside (h : Faithful first d) (hscripts : d'.scripts = d.scripts)
    (hdeeds : d'.deeds = d.deeds) (hfresh : d.schedule.fresh ≤ d'.schedule.fresh)
    (ht : ∀ t ∈ d'.schedule.tasks, t.job.player? = none ∨
      ∃ u ∈ d.schedule.tasks, u.id = t.id ∧ u.job = t.job) : Faithful first d' where
  drafts p := by
    rw [hscripts, hdeeds]
    exact h.drafts p
  rightful := hdeeds ▸ h.rightful
  known x hx run hrun := Nat.lt_of_lt_of_le (h.known x (hdeeds ▸ hx) run hrun) hfresh
  obeys run p script later ha := h.obeys run p script later (hdeeds ▸ ha)
  tasks t hmem := by
    rcases ht t hmem with hnone | ⟨u, hu, hid, hj⟩
    · exact keeps_of_player? hnone d' first t.id
    · rw [← hid, ← hj]
      exact (h.tasks u hu).congr hscripts hdeeds

theorem Faithful.irrelevant (h : Faithful first d) (hscripts : d'.scripts = d.scripts)
    (hdeeds : d'.deeds = d.deeds) (hschedule : d'.schedule = d.schedule) : Faithful first d' :=
  h.beside hscripts hdeeds (Nat.le_of_eq (congrArg Schedule.fresh hschedule).symm)
    fun t ht => Or.inr ⟨t, hschedule ▸ ht, rfl, rfl⟩

theorem Faithful.cancelTimer (h : Faithful first d) : Faithful first d.cancelTimer :=
  h.beside rfl rfl (Nat.le_of_eq d.fresh_cancelTimer.symm) fun _ ht =>
    Or.inr (of_mem_cancelTimer ht)

theorem Faithful.rightful_remember (h : Faithful first d) {x : Deed} (hs : x.isScripted = false) :
    ∀ p script phase current, .scripted p script phase current ∈ (d.remember x).deeds →
      current = p ∧ (phase = .idle ∨ phase = .editing) := by
  intro p script phase current hmem
  refine h.rightful p script phase current ((List.mem_cons.mp hmem).resolve_left ?_)
  rintro rfl
  cases hs

/-- Deeds that tell neither of a run nor of a script. -/
theorem Faithful.remember (h : Faithful first d) {x : Deed} (hx : x.run? = none)
    (hs : x.isScripted = false) : Faithful first (d.remember x) where
  drafts p := (h.drafts p).trans (draft_cons hs p _ _).symm
  rightful := h.rightful_remember hs
  known y hy run hrun := by
    rcases List.mem_cons.mp hy with rfl | hy
    · cases hx.symm.trans hrun
    · exact h.known y hy run hrun
  obeys run p script later ha := by
    have hne : x.run? ≠ some run := by simp [hx]
    obtain ⟨later', rfl, ha'⟩ := ha.of_cons fun turn author heq => hne (heq ▸ rfl)
    exact (h.obeys run p script later' ha').cons hne
  tasks t ht := (h.tasks t ht).remember (by simp [hx])

theorem Faithful.spawn (h : Faithful first d) (job : Job) (hj : job.player? = none)
    (hscripts : d'.scripts = d.scripts) (hdeeds : d'.deeds = d.deeds)
    (hschedule : d'.schedule = (d.schedule.spawn job).2) : Faithful first d' := by
  refine h.beside hscripts hdeeds ?_ fun t ht => ?_
  · rw [hschedule]
    exact Nat.le_succ _
  · rw [hschedule] at ht
    rcases (Schedule.mem_tasks_spawn _ _ t).mp ht with rfl | ht
    · exact Or.inl hj
    · exact Or.inr ⟨t, ht, rfl, rfl⟩

theorem Faithful.startTimer (h : Faithful first d) : Faithful first d.startTimer := by
  have hc : Faithful first (d.cancelTimer.remember
      (.timed d.cancelTimer.schedule.fresh d.turnNumber d.running)) :=
    h.cancelTimer.remember rfl rfl
  exact hc.spawn .timer rfl rfl rfl rfl

/-- The player to move replaces their script while nobody executes a program. -/
theorem Faithful.script (h : Faithful first d) (ho : Solo d)
    (hp : d.phase = .idle ∨ d.phase = .editing) (script : Json) :
    Faithful first ({ d with scripts := d.scripts.set d.current script }.remember
      (.scripted d.current script d.phase d.current)) where
  drafts p := by
    show (d.scripts.set d.current script).get p = _
    rw [Duo.get_set, h.drafts p]
    rfl
  rightful q script' phase current hmem := by
    rcases List.mem_cons.mp hmem with heq | hmem
    · cases heq
      exact ⟨rfl, hp⟩
    · exact h.rightful q script' phase current hmem
  known x hx run hrun := by
    rcases List.mem_cons.mp hx with rfl | hx
    · cases hrun
    · exact h.known x hx run hrun
  obeys run p script' later ha := by
    obtain ⟨later', rfl, ha'⟩ := ha.of_cons nofun
    exact (h.obeys run p script' later' ha').cons nofun
  tasks t ht := by
    refine keeps_of_player? (Option.eq_none_iff_forall_ne_some.mpr fun p htp => ?_) _ _ _
    have hmem := ho.runs t ht p htp
    rw [ho.free hp] at hmem
    cases hmem

/-- A run that is accepted has the script that its player has now. -/
theorem Faithful.accept (h : Faithful first d) (ho : Solo d)
    (hp : d.phase = .idle ∨ d.phase = .editing) :
    Faithful first ({ d with phase := .executing }.accept d.current) := by
  have hc : Faithful first d.cancelTimer := h.cancelTimer
  have hnew {x : Deed} (hx : x ∈ d.cancelTimer.deeds) :
      x.run? ≠ some d.cancelTimer.schedule.fresh :=
    fun hrun => Nat.lt_irrefl _ (hc.known x hx _ hrun)
  refine ⟨h.drafts, ?_, ?_, ?_, ?_⟩
  · exact fun p script phase current hmem =>
      h.rightful p script phase current ((List.mem_cons.mp hmem).resolve_left nofun)
  · intro x hx run hrun
    rcases List.mem_cons.mp hx with rfl | hx
    · cases hrun
      exact Nat.lt_succ_self _
    · exact Nat.lt_succ_of_lt (hc.known x hx run hrun)
  · intro run p script later ha
    rcases ha.cases with ⟨rfl, -, -⟩ | ⟨later', rfl, ha'⟩
    · exact .nil p script run
    · -- a run that was accepted before has another number
      obtain ⟨x, hx, hrun⟩ := ha'.mem
      refine (hc.obeys run p script later' ha').cons fun heq => hnew hx ?_
      exact hrun.trans heq.symm
  · intro t ht
    rcases (Schedule.mem_tasks_spawn _ _ t).mp ht with rfl | ht
    · intro p script later ha
      rcases ha.cases with ⟨rfl, ⟨turn, author, heq⟩, hscript⟩ | ⟨later', rfl, ha'⟩
      · cases heq
        exact ⟨rfl, (h.drafts _).trans hscript, rfl⟩
      · obtain ⟨x, hx, hrun⟩ := ha'.mem
        exact absurd hrun (hnew hx)
    · refine keeps_of_player? (Option.eq_none_iff_forall_ne_some.mpr fun p htp => ?_) _ _ _
      have hmem := ho.cancelTimer.runs t ht p htp
      rw [ho.cancelTimer.free hp] at hmem
      cases hmem

theorem Faithful.move (hm : Move d d') (ho : Solo d) (h : Faithful first d) :
    Faithful first d' := by
  cases hm with
  | script script hp => exact h.script ho hp script
  | accept hs hp => exact h.accept ho hp
  | opening arena journal hs =>
    have hopened : Faithful first { d.opened with arena, journal } :=
      (h.remember (x := .opened d.phase) rfl rfl).irrelevant rfl rfl rfl
    exact hopened.startTimer
  | _ => exact h.irrelevant rfl rfl rfl

theorem Faithful.moves (hm : Moves d d') (ho : Solo d) (h : Faithful first d) :
    Faithful first d' := by
  have hboth : Solo d' ∧ Faithful first d' := by
    refine hm.keeps (P := fun e => Solo e ∧ Faithful first e) ?_ ?_ ?_ ⟨ho, h⟩
    · exact fun hm he => ⟨he.1.move hm, he.2.move hm he.1⟩
    · intro e winner reason journal hp hr he
      have hstruck : Moves e { e.struck winner reason journal with finished := true } :=
        (Moves.refl e).ended winner reason journal hp hr (.refl _)
      exact ⟨(he.1.moves hstruck).irrelevant rfl rfl rfl rfl rfl rfl,
        he.2.cancelTimer.irrelevant rfl rfl rfl⟩
    · exact fun he => ⟨he.1.irrelevant rfl rfl rfl rfl rfl rfl, he.2.irrelevant rfl rfl rfl⟩
  exact hboth.2

theorem Faithful.quiet (h : Faithful first d) (hq : Quiet d d') : Faithful first d' := by
  obtain ⟨_, _, _, _, rfl⟩ := hq
  exact h.irrelevant rfl rfl rfl

theorem Keeps.quiet (h : d.Keeps first id job) (hq : Quiet d d') : d'.Keeps first id job := by
  obtain ⟨_, _, _, _, rfl⟩ := hq
  exact h.congr rfl rfl

theorem Faithful.taken (h : Faithful first d) {t : Task Job} {ready : List (Task Job)}
    (hr : d.schedule.ready = t :: ready) : Faithful first (d.taken t ready) :=
  h.beside rfl rfl (Nat.le_refl _) fun u hu => Or.inr ⟨u, mem_tasks_taken hr hu, rfl, rfl⟩

theorem Faithful.stop (h : Faithful first d) : Faithful first { d with running := none } :=
  h.irrelevant rfl rfl rfl

theorem Faithful.endTask (h : Faithful first d) (id : Nat) (outcome : Outcome) :
    Faithful first (d.endTask id outcome) := by
  unfold Duel.endTask
  dsimp only
  split
  · exact h.spawn .caller rfl rfl rfl rfl
  · exact h.irrelevant rfl rfl rfl

theorem Faithful.rest (h : Faithful first d) {id : Nat} {job : Job} (hk : d.Keeps first id job)
    (delay : Quantity) : Faithful first (d.rest id job delay) := by
  unfold Duel.rest
  split
  · refine ⟨h.drafts, h.rightful, ?_, h.obeys, ?_⟩
    · exact fun x hx run hrun =>
        Nat.lt_of_lt_of_le (h.known x hx run hrun) (d.schedule.fresh_le_rest id job _)
    · intro t ht
      rcases (Schedule.mem_tasks_rest _ _ _ _ t).mp ht with rfl | ht
      · exact hk.congr rfl rfl
      · exact (h.tasks t ht).congr rfl rfl
  · exact h.endTask id _

theorem Faithful.passTurn (h : Faithful first d) : Faithful first d.passTurn :=
  h.irrelevant rfl rfl rfl

theorem Faithful.beginTurn (h : Faithful first d) (ho : Solo d) : Faithful first d.beginTurn := by
  rcases d.beginTurn_cases with ⟨-, heq⟩ | ⟨-, hm⟩
  · exact heq.symm ▸ h
  · exact h.startTimer.moves hm ho.startTimer

/-- A deed of the run whose task makes its step; the run keeps to its script with that. -/
theorem Faithful.own (h : Faithful first d) (hn : Numbered d) (hr : d.running = some id) {x : Deed}
    (hx : x.run? = some id) (hs : x.isScripted = false)
    (ha : ∀ p turn author, x ≠ .accepted id p turn author)
    (hobeys : ∀ p script later, AcceptedWith first d.deeds id p script later →
      Obeys p script id (x :: later)) : Faithful first (d.remember x) where
  drafts p := (h.drafts p).trans (draft_cons hs p _ _).symm
  rightful := h.rightful_remember hs
  known y hy run hrun := by
    rcases List.mem_cons.mp hy with rfl | hy
    · cases hx.symm.trans hrun
      exact hn.known id (mem_ids.mpr (Or.inl hr))
    · exact h.known y hy run hrun
  obeys run p script later hacc := by
    have hne : ∀ turn author, x ≠ .accepted run p turn author := by
      rintro turn author rfl
      cases hx
      exact ha p turn author rfl
    obtain ⟨later', rfl, hacc'⟩ := hacc.of_cons hne
    by_cases hid : run = id
    · subst hid
      exact hobeys p script later' hacc'
    · refine (h.obeys run p script later' hacc').cons fun heq => hid ?_
      exact Option.some.inj (heq.symm.trans hx)
  tasks t ht := by
    refine (h.tasks t ht).remember fun heq => ?_
    have hid : t.id = id := Option.some.inj (heq.symm.trans hx)
    exact hn.not_mem_of_running hr hid ht

/-- A run that begins the next action of its program keeps to it. -/
theorem obeys_began {p : Player} {script : Json} {later : List Deed} {a : Action}
    {rest : List Action} (h : Obeys p script id later)
    (hread : (Script.parseGiven p script).value = .ok (begun id later ++ a :: rest))
    (phase : Phase) (current : Player) :
    Obeys p script id (.began id a phase current :: later) := by
  unfold Obeys at h ⊢
  rw [hread] at h ⊢
  rw [begun_began]
  refine ⟨⟨rest, by simp⟩, fun taken hmem => ?_⟩
  -- a run that has come to its end has nothing left to begin
  have hend := h.2 taken ((List.mem_cons.mp hmem).resolve_left nofun)
  simp at hend

/-- A run that has nothing left to do comes to its end. -/
theorem obeys_closed {p : Player} {script : Json} {later : List Deed}
    (hread : (Script.parseGiven p script).value = .ok (begun id later)) (taken : Bool) :
    Obeys p script id (.closed id taken :: later) := by
  unfold Obeys
  rw [hread]
  exact ⟨List.prefix_refl _, fun _ _ => rfl⟩

theorem Faithful.began (h : Faithful first d) (ho : Sole id job d) (hk : d.Keeps first id job)
    {e : Duel} (hq : Quiet d e) {p : Player} {a : Action} {rest : List Action}
    {executed : List String} (hp : d.program? job = some (p, a :: rest, executed))
    (labels : List String) :
    Faithful first (e.remember (.began id a d.phase d.current)) ∧
      (e.remember (.began id a d.phase d.current)).Keeps first id (.act p rest labels) := by
  have hread {q : Player} {script : Json} {later : List Deed}
      (ha : AcceptedWith first e.deeds id q script later) :
      (Script.parseGiven q script).value = .ok (begun id later ++ a :: rest) :=
    hk.program (hq.deeds ▸ ha) hp
  refine ⟨?_, ?_⟩
  · refine (h.quiet hq).own (ho.toSolo.moves hq.moves).toNumbered
      (hq.moves.running.trans ho.busy) rfl rfl nofun fun q script later ha => ?_
    exact obeys_began ((h.quiet hq).obeys id q script later ha) (hread ha) _ _
  · intro q script later ha
    obtain ⟨later', rfl, ha'⟩ := ha.of_cons nofun
    show (Script.parseGiven q script).value = _
    rw [begun_began, hread ha']
    simp

theorem Faithful.closeRun (h : Faithful first d) (ho : Sole id job d) (hk : d.Keeps first id job)
    {e : Duel} (hq : Quiet d e) {p : Player} {executed : List String}
    (hp : d.program? job = some (p, [], executed)) (hover : d.phase ≠ .over) :
    Faithful first (e.closeRun id).passTurn ∧ Solo (e.closeRun id).passTurn := by
  obtain ⟨message, heq, hsolo⟩ := ho.closeRun hp hover hq
  rw [heq]
  let f : Duel := { e.note .debug message with phase := .idle }
  have hf : Faithful first f := (h.quiet hq).irrelevant rfl rfl rfl
  have he : Numbered e := (ho.toSolo.moves hq.moves).toNumbered
  have hclosed : Faithful first (f.remember (.closed id true)) := by
    refine hf.own ⟨he.nodup, he.known⟩ (hq.moves.running.trans ho.busy) rfl rfl nofun ?_
    intro q script later ha
    have hread := hk.program (hq.deeds ▸ ha) hp
    rw [List.append_nil] at hread
    exact obeys_closed hread true
  exact ⟨hclosed.passTurn, hsolo⟩

/-- A step keeps what holds of the scripts, with the task that makes it. -/
theorem Faithful.worked (h : Faithful first d) (ho : Sole id job d) (hk : d.Keeps first id job)
    (hw : Work id job d d') : Faithful first { d' with running := none } := by
  have hsolo : Solo d := ho.toSolo
  cases hw with
  | unread fault hp hq => exact ((h.quiet hq).endTask _ _).stop
  | @acted _ _ e d'' p a later executed hp hover hq hm =>
    let f := e.remember (.began id a d.phase d.current)
    have hf : Solo f := (hsolo.moves hq.moves).remember rfl
    obtain ⟨hbegan, hleft⟩ := h.began ho hk hq hp (executed ++ [a.label])
    obtain ⟨hbusy, -, -⟩ := ho.executing_of_mem (ho.player p (program?_own hp).1) hover
    have hb : f.isBusy = true := by
      have hphase : f.phase = .executing := hq.phase.trans hbusy
      simp [isBusy, hphase]
    -- what is left does not depend on the scripts any more, and listeners do no deeds meanwhile
    have hrest : d''.Keeps first id (.act p later (executed ++ [a.label])) := by
      intro q script later' ha
      exact hleft q script later' (hm.busy (hq.moves.started ho.started) hb ▸ ha)
    exact ((hbegan.moves hm hf).rest hrest _).stop
  | broke hp _ _ hq hm =>
    have hbegan := (h.began ho hk hq hp []).1
    exact ((hbegan.moves hm ((hsolo.moves hq.moves).remember rfl)).endTask _ _).stop
  | stopped result hp hover hq => exact ((h.quiet hq).endTask _ _).stop
  | @closed _ _ e d'' p executed result hp hover hq hm hc =>
    obtain ⟨hclosed, hs⟩ := h.closeRun ho hk hq hp hover
    exact (((hclosed.moves hm hs).beginTurn (hs.moves hm)).endTask _ _).stop
  | @paused _ _ e d'' p executed result hp hover hq hm hc =>
    obtain ⟨hclosed, hs⟩ := h.closeRun ho hk hq hp hover
    have hpaused : Faithful first (d''.remember (.paused id d''.turnNumber)) :=
      (hclosed.moves hm hs).remember rfl rfl
    exact (hpaused.rest (keeps_of_player? rfl _ _ _) _).stop
  | woke _ result =>
    have hwoke : Faithful first (d.remember (.woke id d.turnNumber d.phase)) :=
      h.remember rfl rfl
    exact ((hwoke.beginTurn (hsolo.remember rfl)).endTask _ _).stop
  | uncounted ht => exact (h.endTask _ _).stop
  | counted ht => exact (h.rest (keeps_of_player? rfl _ _ _) _).stop
  | ticked hp hq => exact ((h.quiet hq).rest (keeps_of_player? rfl _ _ _) _).stop
  | late hp hover hq => exact ((h.quiet hq).endTask _ _).stop
  | @expired _ e d'' passed total hp hi hq hm =>
    have hidle : Faithful first { d with phase := .idle } := h.irrelevant rfl rfl rfl
    have hs : Solo e.passTurn := hsolo.timedOut hi hq
    exact ((((hidle.quiet hq).passTurn.moves hm hs).beginTurn (hs.moves hm)).endTask _ _).stop

theorem Faithful.stepped (hstarted : d.started = true) (ho : Still d) (hs : Stepped d d')
    (h : Faithful first d) : Faithful first d' := by
  cases hs with
  | dropped hr hc => exact ((h.taken hr).endTask _ _).stop
  | @worked t ready d' hr hc hw =>
    refine (h.taken hr).worked (ho.sole ho.still hstarted hr) ?_ hw
    exact (h.tasks t (tasks_of_ready hr)).congr rfl rfl

theorem Faithful.visited {schedule : Schedule Job} {timer : Option Nat} (h : Faithful first d)
    (hv : Coordinator.Visited d schedule timer) (awaited : Option Nat) :
    Faithful first { d with schedule, awaited, timer } := by
  refine h.beside rfl rfl hv.fresh fun t ht => (hv.kept t ht).imp_left fun hj => ?_
  rw [hj]
  rfl

end Duel

namespace Coordinator

open Duel

variable {M : Type} {l : Listener M} {c : Coordinator M} {first : Duo Json}

theorem faithful_live (ho : Still c.duel) (h : Faithful first c.duel) (es : List Episode) :
    Faithful first (c.live l es).duel := by
  let P (x : Coordinator M) : Prop := Still x.duel ∧ Faithful first x.duel
  have hboth : P (c.live l es) := by
    refine live_keeps (P := P) (fun x e _ hx => ?_) ⟨ho, h⟩
    refine keeps_undergo (P := P) ?_ ?_ ?_ ?_ hx
    · intro y y' hs hy
      refine ⟨still_step? (tells_tell l) hy.1 hs, ?_⟩
      exact hy.2.stepped (started_of_step? hy.1.vacant hs) hy.1 (stepped_step? (tells_tell l) hs)
    · intro y y' hw hy
      refine ⟨still_wake? hy.1 hw, ?_⟩
      unfold wake? at hw
      obtain ⟨schedule, hwake, rfl⟩ := Option.map_eq_some_iff.mp hw
      refine hy.2.beside rfl rfl (Nat.le_of_eq (Schedule.fresh_wake? hwake).symm) fun t ht => ?_
      exact Or.inr ⟨t, (Schedule.tasks_wake? hwake t).mp ht, rfl, rfl⟩
    · exact fun _ awaited _ hv hy => ⟨hy.1.visited hv awaited, hy.2.visited hv awaited⟩
    · intro r _
      have hm := moves_request l r x
      exact ⟨hx.1.moves hm, hx.2.moves hm hx.1.toSolo⟩
  exact hboth.2

/-- Scripts after every history, in which the match may also be closed. A script is what was given
last for its player, and it was only ever replaced for the player to move, while that player might
edit. A run keeps to the script that its player had when the run was accepted, whatever came later:
it has begun the actions of that program in order, all of them if it has come to its end, and its
task is still to read that script or to act out the rest. -/
theorem runs_keep_script (l : Listener M) (arena : Arena) (timing : Timing) (scripts : Duo Json)
    (memory : M) (es : List Episode) :
    let d := ((fresh arena timing scripts memory).live l es).duel
    (∀ p, d.scripts.get p = Deed.draft p (scripts.get p) d.deeds) ∧
    (∀ p script phase current, .scripted p script phase current ∈ d.deeds →
      current = p ∧ (phase = .idle ∨ phase = .editing)) ∧
    ∀ run p script later, Deed.AcceptedWith scripts d.deeds run p script later →
      Deed.Obeys p script run later ∧
      ∀ t ∈ d.schedule.tasks, t.id = run → d.Remains p script (Deed.begun run later) t.job := by
  intro d
  have h : Faithful scripts d :=
    faithful_live (still_fresh arena timing scripts) (faithful_fresh arena timing scripts) es
  refine ⟨h.drafts, h.rightful, fun run p script later ha => ⟨h.obeys run p script later ha, ?_⟩⟩
  rintro t ht rfl
  exact h.tasks t ht p script later ha

/-- A script, a run of it, another script while the run is on its way, and the run's first step. -/
def lateScript : List Episode :=
  [.happening (.request .start), .happening (.request (.setScript .a (.text "MoveRight()"))),
    .happening (.request (.execute .a)),
    .happening (.request (.setScript .a (.text "MoveLeft()"))), .happening .step, .happening .step]

theorem late_script_ignored :
    let d := (fieldMatch.live .silent lateScript).duel
    let later := [.began 1 ⟨.a, .move .right⟩ .executing .a]
    Deed.AcceptedWith ⟨.null, .null⟩ d.deeds 1 .a (.text "MoveRight()") later ∧
      Deed.Obeys .a (.text "MoveRight()") 1 later := by
  intro d later
  have hdeeds : d.deeds = later ++ .accepted 1 .a 0 none ::
      [.scripted .a (.text "MoveRight()") .idle .a, .timed 0 0 none, .opened .idle] := by
    decide +kernel
  have haccepted : Deed.AcceptedWith ⟨.null, .null⟩ d.deeds 1 .a (.text "MoveRight()") later :=
    ⟨0, none, _, hdeeds, rfl⟩
  obtain ⟨-, -, h⟩ :=
    runs_keep_script .silent openField { turnDelay := .whole 1 } ⟨.null, .null⟩ () lateScript
  exact ⟨haccepted, (h 1 .a _ later haccepted).1⟩

end Coordinator

end MazeDuel.Turn
