import MazeDuel.Proofs.Turn.Passive
/-!
What becomes of the arena of a match. The step of a task leaves it to the actions of one player, to
the end of that player's turn, or to nothing but the beginning of another one; and listeners that do
not act on the world leave it alone but for that beginning.
-/

namespace MazeDuel

namespace Arena

/-- Whether the actions of a player keep something of an arena. -/
structure KeptBy (p : Player) (P : Arena → Prop) : Prop where
  move : ∀ {a} dir, P a → P (a.tryMove p dir).value.2
  radar : ∀ {a}, P a → P (a.radarFor p).value.2
  shot : ∀ {a} cell, P a → P (a.shootAt p cell).value.2
  pickUp : ∀ {a}, P a → P (a.pickUp p).value.2

/-- Whether the beginning of a turn keeps something of an arena. -/
def Begun (P : Arena → Prop) : Prop := ∀ a p, P a → P (a.promote p).value

/-- What the end of a player's turn makes of an arena, before the next turn begins. -/
def endTurn (a : Arena) (p : Player) : Arena :=
  ((a.recordTurnEnd p).value.clearActive p).value

end Arena

namespace Turn

namespace Duel

/-- The arena that a task leaves when all that it has still to do is to end a turn. -/
def closing (d : Duel) (job : Job) : Arena :=
  match d.program? job with
  | some (p, [], _) => if d.isOver then d.arena else d.arena.endTurn p
  | _ => d.arena

end Duel

namespace Coordinator

open Duel

variable {M : Type} {tell : Notification → Coordinator M → Coordinator M} {c : Coordinator M}
  {P : Arena → Prop}

/-- Telling that keeps something of the arena. -/
def Keeping (P : Arena → Prop) (tell : Notification → Coordinator M → Coordinator M) : Prop :=
  ∀ n c, P c.duel.arena → P (tell n c).duel.arena

theorem Keeping.endMatch (ht : Keeping P tell) (h : P c.duel.arena) (winner : Player)
    (reason : GameResult) : P (c.endMatch tell winner reason).duel.arena := by
  unfold Coordinator.endMatch
  rcases c.duel.fire_cases .endMatch with ⟨-, m, hf⟩ | ⟨phase, m, hn, hf⟩
  · simp only [onDuel, hf]
    exact h
  · simp only [onDuel, hf]
    exact ht _ _ h

theorem Keeping.shootAt (ht : Keeping P tell) {p : Player} (hP : Arena.KeptBy p P)
    (h : P c.duel.arena) (cell : Place) : P (c.shootAt tell p cell).2.duel.arena := by
  let fired : Coordinator M := (c.onDuel (·.onArena (·.shootAt p cell))).2
  have hfired : P fired.duel.arena := hP.shot cell h
  rcases c.shootAt_cases tell p cell with ⟨fault, -, heq⟩ | ⟨result, -, heq⟩
  · rw [heq]
    exact hfired
  · rw [heq]
    dsimp only
    split
    · exact ht.endMatch (ht _ _ hfired) _ _
    · exact ht _ _ hfired

theorem Keeping.onMoved (ht : Keeping P tell) {p : Player} (hP : Arena.KeptBy p P)
    (h : P c.duel.arena) (before : Fix) : P (c.onMoved tell p before).duel.arena := by
  have hexit {c : Coordinator M} (h : P c.duel.arena) :
      P (if c.duel.arena.atExit p then c.reportExited tell p else c).duel.arena := by
    split
    · exact ht.endMatch h _ _
    · exact h
  have htold : P (tell (.positionMoved p before) c).duel.arena := ht _ _ h
  have hpicked := hP.pickUp htold
  unfold Coordinator.onMoved
  dsimp only
  split
  · exact htold
  · refine hexit ?_
    split
    · exact ht _ _ hpicked
    · exact hpicked

/-- What the actions of a player keep, each action keeps with all that comes of it. -/
theorem Keeping.carryOut (ht : Keeping P tell) {p : Player} {a : Action} (hP : Arena.KeptBy p P)
    (hplayer : a.player = p) (h : P c.duel.arena) : P (c.carryOut tell p a).2.duel.arena := by
  subst hplayer
  obtain ⟨r, r', hcases⟩ := carryOut_cases tell c a.player a
  let invoked := Execution.invoke (surroundings tell) (c.update (·.record r)) a
  have hinvoked : P invoked.2.duel.arena := by
    show P (Execution.invoke (surroundings tell) (c.update (·.record r)) a).2.duel.arena
    unfold Execution.invoke
    cases a.command with
    | move dir => exact hP.move dir h
    | wait => exact h
    | shoot modifiers => exact ht.shootAt hP (hP.radar h) _
  rcases hcases with ⟨fault, -, heq⟩ | ⟨-, -, heq⟩ | ⟨-, -, heq⟩
  · rw [heq]
    exact hinvoked
  · rw [heq]
    exact hinvoked
  · rw [heq]
    exact ht.onMoved (c := invoked.2.update (·.record r')) hP hinvoked _

theorem Keeping.flipTurn (ht : Keeping P tell) (hb : Arena.Begun P) (h : P c.duel.arena) :
    P (c.flipTurn tell).duel.arena :=
  ht _ _ (hb _ _ h)

theorem Keeping.start (ht : Keeping P tell) (hb : Arena.Begun P) (h : P c.duel.arena) :
    P (c.start tell).duel.arena := by
  unfold Coordinator.start
  split
  · exact h
  · exact (aside_autoExecute _).keeps (ht _ _ (hb _ .a h))

/-- What is kept by the beginning of a turn, every request keeps that does not act on the world. -/
theorem Keeping.handle (ht : Keeping P tell) (hb : Arena.Begun P) {r : Request}
    (hr : r.actsOnWorld = true → ∀ p, Arena.KeptBy p P) (h : P c.duel.arena) :
    P (c.handle tell r).2.duel.arena := by
  by_cases hstart : r = .start
  · subst hstart
    exact ht.start hb h
  · cases hw : r.actsOnWorld with
    | false =>
      cases hr' : r.isReport with
      | false =>
        have hside := aside_handle tell (c := c) (Or.inr hstart) hw hr'
        exact hside.keeps h
      | true =>
        cases r with
        | lost p => exact ht.endMatch h _ _
        | exited p => exact ht.endMatch h _ _
        | _ => cases hr'
    | true =>
      cases r with
      | shootAt p cell =>
        rw [handle_shootAt]
        exact ht.shootAt (hr hw p) h cell
      | tryMove p dir => exact (hr hw p).move dir h
      | radarFor p => exact (hr hw p).radar h
      | _ => cases hw

/-- A listener that does not act on the world keeps what the beginning of a turn keeps. -/
theorem keeping_tell {l : Listener M} {seen : M → List Duel} (hl : Fair seen l)
    (hb : Arena.Begun P) : Keeping P l.tell := by
  have hdepth (depth : Nat) : Keeping P (l.tellAt depth) := by
    induction depth with
    | zero => exact fun n c h => h
    | succ depth ih =>
      intro n c h
      refine (hl n _ _).keeps (c := c.logEvent n) (P := fun x => P x.duel.arena)
        (fun x m _ h => h) (fun x r hr h => ih.handle hb ?_ h) h
      intro hw
      cases hr.symm.trans hw
  exact hdepth l.depth

theorem Keeping.finishRun (ht : Keeping P tell) (hb : Arena.Begun P) (id : Nat)
    (result : ExecutionResult) (h : P (if c.duel.isOver then c.duel.arena
      else c.duel.arena.endTurn result.player)) : P (c.finishRun tell id result).duel.arena := by
  unfold Coordinator.finishRun
  dsimp only
  split
  · rename_i ho
    have hside := ({ c.duel with lastExecution := some result }).aside_endTask id
      (.done (some result))
    rw [if_pos (show c.duel.isOver = true from ho)] at h
    exact hside.keeps h
  · rename_i ho
    rw [if_neg (show ¬ c.duel.isOver = true from ho)] at h
    let cleared : Duel := ({ c.duel with lastExecution := some result }.setArena
      (c.duel.arena.recordTurnEnd result.player)).setArena
        ((c.duel.arena.recordTurnEnd result.player).value.clearActive result.player)
    have hfired : Aside cleared (cleared.fire .finish).2 := aside_fire cleared (by decide)
    have hclosed : P (cleared.closeRun id).arena := by
      show P (cleared.fire .finish).2.arena
      exact hfired.keeps h
    have hflipped := ht.flipTurn (c := ⟨cleared.closeRun id, c.memory⟩) hb hclosed
    split
    · exact (aside_rest _ _ _ _).keeps hflipped
    · exact ((aside_beginTurn _).trans (aside_endTask _ _ _)).keeps hflipped

/-- The next step of a run leaves the arena to its player's actions or to the end of the turn. -/
theorem Keeping.act (ht : Keeping P tell) (hb : Arena.Begun P) (id : Nat) {p : Player}
    {rest : List Action} (executed : List String)
    (hact : rest ≠ [] → c.duel.phase ≠ .over → Arena.KeptBy p P) (hown : ∀ a ∈ rest, a.player = p)
    (h : P (if rest = [] ∧ c.duel.phase ≠ .over then c.duel.arena.endTurn p else c.duel.arena)) :
    P (c.act tell id p executed rest).duel.arena := by
  by_cases ho : c.duel.phase = .over
  · obtain ⟨journal, heq⟩ := act_over tell ho id p executed rest
    rw [if_neg (by simp [ho])] at h
    rw [heq]
    exact (aside_endTask _ _ _).keeps h
  · cases rest with
    | nil =>
      refine ht.finishRun hb id _ ?_
      rw [if_neg (by simpa [isOver] using ho)]
      simpa [ho] using h
    | cons a later =>
      rw [if_neg (by simp)] at h
      let began := c.update fun d => d.remember (.began id a d.phase d.current)
      have hdone : P (began.carryOut tell p a).2.duel.arena :=
        ht.carryOut (hact (List.cons_ne_nil _ _) ho) (hown a (List.mem_cons_self ..)) h
      rw [act_cons ho]
      split
      · exact (aside_endTask _ _ _).keeps hdone
      · exact (aside_rest _ _ _ _).keeps hdone

theorem Keeping.onTimeout (ht : Keeping P tell) (hb : Arena.Begun P) (h : P c.duel.arena) :
    P (c.onTimeout tell).duel.arena := by
  unfold Coordinator.onTimeout
  rcases c.duel.fire_cases .timeout with ⟨-, m, hf⟩ | ⟨phase, m, hn, hf⟩
  · simp only [onDuel, hf]
    exact h
  · simp only [onDuel, hf]
    exact (aside_beginTurn _).keeps (ht.flipTurn hb h)

/-- What the beginning of a turn keeps, the step of a task keeps, if its actions keep it and it
holds after the end of the turn that they may have come to. -/
theorem Keeping.runJob (ht : Keeping P tell) (hb : Arena.Begun P) {id : Nat} {job : Job}
    (hact : ∀ {p a later executed}, c.duel.program? job = some (p, a :: later, executed) →
      c.duel.phase ≠ .over → Arena.KeptBy p P)
    (hown : job.Own) (h : P (c.duel.closing job)) : P (c.runJob tell id job).duel.arena := by
  cases hp : c.duel.program? job with
  | some x =>
    obtain ⟨p, rest, executed⟩ := x
    obtain ⟨journal, heq⟩ := runJob_program tell id hp
    have hkept : rest ≠ [] → c.duel.phase ≠ .over → Arena.KeptBy p P := by
      cases rest with
      | nil => exact fun hne => absurd rfl hne
      | cons a later => exact fun _ => hact hp
    have hclosing : P (if rest = [] ∧ c.duel.phase ≠ .over then c.duel.arena.endTurn p
        else c.duel.arena) := by
      unfold closing at h
      cases rest with
      | nil => by_cases ho : c.duel.phase = .over <;> simpa [hp, isOver, ho] using h
      | cons a later => simpa [hp] using h
    rw [heq]
    exact ht.act (c := c.update ({ · with journal })) hb id executed hkept
      ((program?_own hp).2 hown) hclosing
  | none =>
    have hstays : P c.duel.arena := by simpa [closing, hp] using h
    cases job with
    | caller => exact hstays
    | begin p =>
      unfold Coordinator.runJob beginRun
      dsimp only
      split
      · exact (aside_endTask _ _ _).keeps hstays
      · rename_i actions hactions
        simp [program?, hactions, Except.toOption] at hp
    | act p rest executed => cases hp
    | pause result => exact ((aside_beginTurn _).trans (aside_endTask _ _ _)).keeps hstays
    | timer =>
      unfold Coordinator.runJob
      dsimp only
      split
      · exact (aside_endTask _ _ _).keeps hstays
      · exact (aside_rest _ _ _ _).keeps hstays
    | tick passed total =>
      let counted : Coordinator M := c.update fun d =>
        { d with remaining := d.timing.remaining passed }
      have hcounted : P counted.duel.arena := hstays
      unfold Coordinator.runJob
      dsimp only
      split
      · exact (aside_rest _ _ _ _).keeps hcounted
      · exact (aside_endTask _ _ _).keeps (ht.onTimeout hb hcounted)

end Coordinator

end Turn

end MazeDuel
