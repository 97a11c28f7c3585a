import Mathlib.Data.List.Chain
import MazeDuel.Proofs.World.Bodies
/-!
Trails: the fixes that a combatant has had one after the other. A fix leads to the next if the two
differ and a new place is one step ahead in the new facing; so it is with every move that is seen
from outside.
-/

namespace MazeDuel

namespace Grid

variable {g g' : Grid} {p q : Place}

theorem same_comm (hp : g.contains p = .ok true) (hq : g'.contains q = .ok true)
    (h : p.same q = true) : q.same p = true := by
  rw [same_congr hp hq h q]
  exact same_of_contains hq

end Grid

namespace Fix

variable {g g' : Grid} {f e e' : Fix}

theorem same_comm (he : g.contains e.position = .ok true) (he' : g'.contains e'.position = .ok true)
    (h : e.same e' = true) : e'.same e = true := by
  simp only [same, Bool.and_eq_true, beq_iff_eq] at h ⊢
  exact ⟨Grid.same_comm he he' h.1, h.2.symm⟩

/-- Equal fixes on grids are equal to the same fixes. -/
theorem same_congr (he : g.contains e.position = .ok true)
    (he' : g'.contains e'.position = .ok true) (h : e.same e' = true) (f : Fix) :
    f.same e = f.same e' := by
  simp only [same, Bool.and_eq_true, beq_iff_eq] at h
  rw [same, same, Grid.same_congr he he' h.1 f.position, h.2]

/-- One fix comes right after another: they differ, and who has left a place has made one step in
the facing that they have now. -/
structure Leads (f e : Fix) : Prop where
  differ : f.same e = false
  ahead : f.position.same e.position = false →
    ∃ next, f.position.step e.facing = .ok next ∧ next.same e.position = true

theorem Leads.congr (hlead : f.Leads e) (he : g.contains e.position = .ok true)
    (he' : g'.contains e'.position = .ok true) (h : e.same e' = true) : f.Leads e' := by
  have hplaces := h
  simp only [same, Bool.and_eq_true, beq_iff_eq] at hplaces
  obtain ⟨hposition, hfacing⟩ := hplaces
  constructor
  · rw [← same_congr he he' h f]
    exact hlead.differ
  · intro hleft
    rw [← Grid.same_congr he he' hposition f.position] at hleft
    obtain ⟨next, hnext, hsame⟩ := hlead.ahead hleft
    refine ⟨next, ?_, ?_⟩
    · rw [← hfacing]
      exact hnext
    · rw [← Grid.same_congr he he' hposition next]
      exact hsame

/-- The fixes of a combatant, oldest first: those they have left, from the first one on, and the one
they have now. -/
structure Trail (first : Fix) (left : List Fix) (live : Fix) : Prop where
  first : ∃ f, (left ++ [live]).head? = some f ∧ first.same f = true
  chain : (left ++ [live]).IsChain Leads

theorem trail_start {first : Fix} (h : first.same first = true) : Trail first [] first :=
  ⟨⟨first, rfl, h⟩, List.isChain_singleton first⟩

/-- A fix that is told on leaving it is followed by the new one. -/
theorem Trail.told {first live next : Fix} {left : List Fix} (h : Trail first left live)
    (hlead : live.Leads next) : Trail first (left ++ [live]) next := by
  obtain ⟨f, hf, hfirst⟩ := h.first
  constructor
  · refine ⟨f, ?_, hfirst⟩
    rw [List.head?_append, hf]
    rfl
  · apply h.chain.append (List.isChain_singleton next)
    intro x hx y hy
    rw [List.getLast?_concat] at hx
    cases hx
    cases hy
    exact hlead

/-- A fix may be exchanged for an equal one. -/
theorem Trail.congr {first live live' : Fix} {left : List Fix} (h : Trail first left live)
    (he : g.contains live.position = .ok true) (he' : g'.contains live'.position = .ok true)
    (hsame : live.same live' = true) : Trail first left live' := by
  obtain ⟨f, hf, hfirst⟩ := h.first
  obtain ⟨hleft, -, hlast⟩ := List.isChain_append.mp h.chain
  constructor
  · cases left with
    | nil =>
      cases hf
      refine ⟨live', rfl, ?_⟩
      rw [← same_congr he he' hsame first]
      exact hfirst
    | cons e left => exact ⟨f, hf, hfirst⟩
  · apply hleft.append (List.isChain_singleton live')
    intro x hx y hy
    cases hy
    exact (hlast x hx live rfl).congr he he' hsame

end Fix

namespace Combatant

/-- Where a move leads: it turns the combatant, and leaves them where they are or a step ahead. -/
theorem fix_tryMove (c : Combatant) (grid : Grid) (dir : MoveDir) :
    (c.tryMove grid dir).value.2.facing = dir.facing ∧
      ((c.tryMove grid dir).value.2.pos = c.pos ∨
        c.pos.step dir.facing = .ok (c.tryMove grid dir).value.2.pos) := by
  unfold tryMove
  dsimp only
  cases hlook : c.look grid dir.facing with
  | error fault => exact ⟨rfl, .inl rfl⟩
  | ok step =>
    obtain rfl | ⟨target, hstep, -, ⟨rfl, -⟩ | ⟨rfl, -⟩⟩ := look_cases hlook
    · exact ⟨rfl, .inl rfl⟩
    · exact ⟨rfl, .inr hstep⟩
    · exact ⟨rfl, .inr hstep⟩

end Combatant

namespace Arena

theorem combatant_tryMove_ne (a : Arena) {p q : Player} (dir : MoveDir) (h : q ≠ p) :
    (a.tryMove p dir).value.2.combatant q = a.combatant q := by
  rw [tryMove_eq, combatant_setCombatant, if_neg h]

/-- A move that changes the fix of its player leads from the old one to the new one. -/
theorem leads_tryMove {a : Arena} (h : a.Grounded) (p : Player) (dir : MoveDir)
    (hmoved : ¬ ((a.tryMove p dir).value.2.combatant p).fix.same (a.combatant p).fix = true) :
    (a.combatant p).fix.Leads ((a.tryMove p dir).value.2.combatant p).fix := by
  have hground := grounded_tryMove h p dir
  have hafter : (a.tryMove p dir).value.2.combatant p =
      ((a.combatant p).tryMove a.grid dir).value.2 := by
    rw [tryMove_eq, combatant_setCombatant, if_pos rfl]
  obtain ⟨hfacing, hplace⟩ := (a.combatant p).fix_tryMove a.grid dir
  rw [← hafter] at hfacing hplace
  have hnow := Grid.same_of_contains (hground p)
  constructor
  · apply Bool.eq_false_iff.mpr
    intro hsame
    exact hmoved (Fix.same_comm (e := (a.combatant p).fix) (h p) (hground p) hsame)
  · intro hleft
    rcases hplace with hstays | hsteps
    · have hsame : (a.position p).same (a.position p) = true := Grid.same_of_contains (h p)
      have hleft' : (a.position p).same (a.position p) = false := by
        rw [← hleft]
        exact congrArg (a.position p).same hstays.symm
      rw [hsame] at hleft'
      cases hleft'
    · refine ⟨_, ?_, hnow⟩
      show (a.combatant p).pos.step ((a.tryMove p dir).value.2.combatant p).facing = _
      rw [hfacing]
      exact hsteps

end Arena

end MazeDuel
