import MazeDuel.Proofs.Turn.Passive
/-!
What the rules of a match keep, everything keeps that happens to it: each step of a task is one of
the rules, and players change nothing else than the phase.
-/

namespace MazeDuel.Turn

namespace Coordinator

open Duel

/-- Whether the rules keep something, whatever players do beside them. -/
structure Lasting (P : Standing → Prop) : Prop where
  proper : ∀ {s}, P s → s.arena.Proper
  aside : ∀ {s phase}, (phase = .over ↔ s.phase = .over) → P s → P { s with phase }
  opening : ∀ {s}, s.phase ≠ .over → P s → P s.opening
  begun : ∀ {s}, P s → s.phase = .over → s.started = true
  act : ∀ {s} p command, s.started = true → s.phase ≠ .over → P s → P (s.act p command).2
  endTurn : ∀ {s} p, s.phase ≠ .over → P s → P (s.endTurn p)
  pass : ∀ {s} p, s.phase ≠ .over → P s → P (s.pass p)

variable {M : Type} {tell : Notification → Coordinator M → Coordinator M} {P : Standing → Prop}
  {c : Coordinator M}

theorem Lasting.keeps_aside (hP : Lasting P) {d d' : Duel} (ha : Aside d d') (h : P d.standing) :
    P d'.standing := by
  rw [ha.standing]
  exact hP.aside ha.ended h

/-- What the rules keep, the next step of a run keeps. -/
theorem Lasting.keeps_act (hP : Lasting P) (ht : Passive tell) {id : Nat} {p : Player}
    {rest : List Action} {executed : List String}
    (hrun : c.duel.phase ≠ .over →
      c.duel.phase = .executing ∧ p = c.duel.current ∧ c.duel.timer = none)
    (hs : c.duel.started = true) (hown : ∀ a ∈ rest, a.player = p) (h : P c.duel.standing) :
    P (c.act tell id p executed rest).duel.standing := by
  by_cases ho : c.duel.phase = .over
  · obtain ⟨journal, heq⟩ := act_over tell ho id p executed rest
    rw [heq]
    exact hP.keeps_aside (aside_beside.trans (aside_endTask _ _ _)) h
  · obtain ⟨hbusy, hcurrent, hn⟩ := hrun ho
    cases rest with
    | nil =>
      obtain ⟨arena, log, journal, hstanding, heq⟩ := finishRun_going ht hbusy id
        ⟨p, executed, 0⟩ hcurrent
      have hended := hP.endTurn p ho h
      rw [← hstanding] at hended
      rw [Coordinator.act, heq]
      split
      · exact hP.keeps_aside (aside_beside.trans (aside_rest _ _ _ _)) hended
      · exact hP.keeps_aside ((aside_beginTurn _).trans (aside_endTask _ _ _)) hended
    | cons a later =>
      let began := c.update fun d => d.remember (.began id a d.phase d.current)
      obtain ⟨-, hstanding⟩ := acts_carryOut (c := began) (p := p) (a := a) ht ho hn (hP.proper h)
        (hown a (List.mem_cons_self ..))
      have hdone := hP.act (s := began.duel.standing) p a.command hs ho h
      rw [← hstanding] at hdone
      rw [act_cons ho]
      split
      · exact hP.keeps_aside (aside_endTask _ _ _) hdone
      · exact hP.keeps_aside (aside_rest _ _ _ _) hdone

/-- What the rules keep, the step of a task keeps. -/
theorem Lasting.keeps_runJob (hP : Lasting P) (ht : Passive tell) {id : Nat} {job : Job}
    (he : Engaged id job c.duel) (h : P c.duel.standing) :
    P (c.runJob tell id job).duel.standing := by
  have hrun {p : Player} {rest : List Action} {executed : List String}
      (hp : c.duel.program? job = some (p, rest, executed)) (ho : c.duel.phase ≠ .over) :
      c.duel.phase = .executing ∧ p = c.duel.current ∧ c.duel.timer = none := by
    have hmem := he.mem_unfinished hp
    obtain ⟨hbusy, hcurrent, -⟩ := he.executing_of_mem hmem ho
    exact ⟨hbusy, hcurrent, (he.latest _ hmem).2.2⟩
  cases hp : c.duel.program? job with
  | some x =>
    obtain ⟨p, rest, executed⟩ := x
    obtain ⟨journal, heq⟩ := runJob_program tell id hp
    rw [heq]
    exact hP.keeps_act (c := c.update ({ · with journal })) ht (hrun hp) he.started
      ((program?_own hp).2 he.bound) h
  | none =>
    cases job with
    | caller => exact h
    | begin p =>
      unfold runJob beginRun
      dsimp only
      split
      · exact hP.keeps_aside (aside_beside.trans (aside_endTask _ _ _)) h
      · rename_i actions hactions
        simp [program?, hactions, Except.toOption] at hp
    | act p rest executed => cases hp
    | pause result =>
      have hwoke : Aside c.duel (c.duel.remember (.woke id c.duel.turnNumber c.duel.phase)) :=
        aside_beside
      exact hP.keeps_aside ((hwoke.trans (aside_beginTurn _)).trans (aside_endTask _ _ _)) h
    | timer =>
      unfold runJob
      dsimp only
      split
      · exact hP.keeps_aside (aside_endTask _ _ _) h
      · exact hP.keeps_aside (aside_rest _ _ _ _) h
    | tick passed total =>
      let counted := c.update fun d => { d with remaining := d.timing.remaining passed }
      have hcounted : P counted.duel.standing := h
      unfold runJob
      dsimp only
      split
      · exact hP.keeps_aside (aside_rest _ _ _ _) hcounted
      · refine hP.keeps_aside (aside_endTask _ _ _) ?_
        by_cases hp : counted.duel.phase = .executing ∨ counted.duel.phase = .over
        · obtain ⟨message, heq⟩ := onTimeout_busy tell hp
          rw [heq]
          exact hcounted
        · have hi : counted.duel.phase = .idle ∨ counted.duel.phase = .editing := by
            cases hphase : counted.duel.phase <;> simp_all
          have ho : counted.duel.phase ≠ .over := fun ho => hp (Or.inr ho)
          obtain ⟨arena, log, journal, hstanding, heq⟩ := onTimeout_going (c := counted) ht hi
          rw [heq]
          refine hP.keeps_aside (aside_beginTurn _) ?_
          rw [hstanding]
          exact hP.pass counted.duel.current ho hcounted

/-- What the rules keep, everything that happens keeps, as long as nobody from outside reports the
end of the match or acts on its world. -/
theorem Lasting.keeps_happen {l : Listener M} (hP : Lasting P) (ht : Passive l.tell)
    (ho : Resting c.duel) {x : Happening}
    (hx : ∀ r, x = .request r → r.actsOnWorld = false ∧ r.isReport = false)
    (h : P c.duel.standing) : P (c.happen l x).duel.standing := by
  cases x with
  | request r =>
    obtain ⟨hr, hr'⟩ := hx r rfl
    by_cases hstart : r = .start ∧ c.duel.started = false
    · obtain ⟨rfl, hs'⟩ := hstart
      obtain ⟨journal, journal', hstanding, heq⟩ := start_eq (c := c) ht hs'
      have hp : c.duel.phase ≠ .over := fun hp => by
        cases hs'.symm.trans (hP.begun h hp)
      have hopened := hP.opening hp h
      rw [← hstanding] at hopened
      show P (c.start l.tell).duel.standing
      rw [heq]
      exact hP.keeps_aside (aside_autoExecute _) hopened
    · refine hP.keeps_aside (aside_handle _ ?_ hr hr') h
      rw [not_and_or, Bool.not_eq_false] at hstart
      exact hstart.symm
  | step =>
    unfold happen
    cases hstep : c.step? l.tell with
    | none => exact h
    | some c' =>
      obtain ⟨t, ready, hr, -, rfl⟩ := step?_taken l.tell hstep
      let taken : Coordinator M := ⟨c.duel.taken t ready, c.memory⟩
      dsimp only [Option.getD_some]
      split
      · exact hP.keeps_aside ((aside_endTask _ _ _).trans aside_beside) h
      · rename_i hc
        have he : Engaged t.id t.job taken.duel := ho.engaged hr (Bool.eq_false_iff.mpr hc)
        exact hP.keeps_aside aside_beside (hP.keeps_runJob ht he h)
  | wake =>
    unfold happen wake?
    cases c.duel.schedule.wake? with
    | none => exact h
    | some schedule => exact h
  | clock now => exact h

/-- What the rules keep holds after every history in which nobody from outside reports the end of
the match or acts on its world. -/
theorem Lasting.keeps_after {l : Listener M} (hP : Lasting P) (ht : Passive l.tell)
    (ho : Resting c.duel) (hs : List Happening)
    (hhs : ∀ r, .request r ∈ hs → r.actsOnWorld = false ∧ r.isReport = false)
    (h : P c.duel.standing) : P (c.after l hs).duel.standing := by
  induction hs generalizing c with
  | nil => exact h
  | cons x hs ih =>
    refine ih (ho.goes (goes_happen l c x)) ?_ ?_
    · exact fun r hr => hhs r (List.mem_cons_of_mem _ hr)
    · refine hP.keeps_happen ht ho ?_ h
      rintro r rfl
      exact hhs r (List.mem_cons_self ..)

end Coordinator

end MazeDuel.Turn
