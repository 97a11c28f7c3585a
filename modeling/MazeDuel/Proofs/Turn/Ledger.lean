import MazeDuel.Proofs.Turn.Alike
import MazeDuel.Proofs.Turn.Upheld
/-!
A ledger beside a match: it has what nobody is told, which pickups were used and which turns ran out
of time. It is kept next to the memory of the listener, so that it has also what the listener's own
requests use. Nothing but the listener looks at its memory, so forgetting the ledger gives the match
as it would have been without.
-/

namespace MazeDuel.Turn

namespace Coordinator

variable {M N : Type} {f : N → M} {c : Coordinator N} {c' : Coordinator M}

/-- The same match, with something else made of the memory. -/
def mapMemory (f : N → M) (c : Coordinator N) : Coordinator M := ⟨c.duel, f c.memory⟩

@[simp] theorem mapMemory_duel (f : N → M) (c : Coordinator N) : (c.mapMemory f).duel = c.duel :=
  rfl

/-- The same records, and what is made of the memory. -/
def mapping (f : N → M) : Likeness N M where
  holds journal n journal' m := journal' = journal ∧ m = f n
  more := by
    rintro journal n _ _ records ⟨rfl, rfl⟩
    exact ⟨rfl, rfl⟩

theorem alike_mapping : Alike (mapping f) c c' ↔ c' = c.mapMemory f := by
  constructor
  · rintro ⟨_, hduel, rfl, hmemory⟩
    rcases c' with ⟨d', m⟩
    subst hduel hmemory
    rfl
  · rintro rfl
    exact ⟨c.duel.journal, rfl, rfl, rfl⟩

end Coordinator

/-- What the log of a match does not tell: which pickups were used, the latest first, and which
turns ran out of time. -/
structure Ledger where
  uses : List (Player × Powerup) := []
  expired : List Nat := []

namespace Duel

/-- The pickups that are used by what happens: by the action that a run begins, or by a request that
acts on the world. -/
def usedIn (d : Duel) : Happening → List (Player × Powerup)
  | .step =>
    match d.schedule.ready with
    | [] => []
    | t :: _ =>
      if t.cancelled || d.isOver then []
      else match d.program? t.job with
        | some (p, a :: _, _) => d.arena.usedIn p a.command
        | _ => []
  | .request (.tryMove p dir) => d.arena.usedIn p (.move dir)
  | .request (.radarFor p) => d.arena.usedIn p (.shoot [])
  | _ => []

/-- Whether a turn runs out of time by what happens: its timer makes a step after its last tick,
while the player to move may ask for something. -/
def expires (d : Duel) : Happening → Bool
  | .step =>
    match d.schedule.ready with
    | [] => false
    | t :: _ => !t.cancelled && t.job.isLastTick && !d.isBusy
  | _ => false

end Duel

/-- The ledger with an entry for what is about to happen to a match. -/
def Ledger.next (ledger : Ledger) (d : Duel) (x : Happening) : Ledger where
  uses := d.usedIn x ++ ledger.uses
  expired := if d.expires x then d.turnNumber :: ledger.expired else ledger.expired

variable {M : Type}

/-- The same plan with a ledger, which has an entry for each request before it is made. -/
def Plan.noting : Plan M → Plan (M × Ledger)
  | .stop => .stop
  | .look next => .look fun d m => (next d m.1).noting
  | .keep m next => .look fun _ m' => .keep (m, m'.2) next.noting
  | .ask r next => .look fun d m =>
    .keep (m.1, m.2.next d (.request r)) (.ask r fun reply => (next reply).noting)

def Listener.noting (l : Listener M) : Listener (M × Ledger) :=
  ⟨fun n => (l.plan n).noting, l.depth⟩

namespace Coordinator

open Duel

/-- The match without its ledger. -/
def forget : Coordinator (M × Ledger) → Coordinator M := mapMemory Prod.fst

/-- The match with an entry for what is about to happen to it. -/
def noted (c : Coordinator (M × Ledger)) (x : Happening) : Coordinator (M × Ledger) :=
  { c with memory := (c.memory.1, c.memory.2.next c.duel x) }

/-- A history of a match that has a ledger. Things happen to it, and somebody who waits for it comes
and goes. -/
inductive Booked (l : Listener M) (c₀ : Coordinator M) : Coordinator (M × Ledger) → Prop where
  | start : Booked l c₀ ⟨c₀.duel, c₀.memory, {}⟩
  | happening {c : Coordinator (M × Ledger)} (x : Happening) : Booked l c₀ c →
      Booked l c₀ ((c.noted x).happen l.noting x)
  | visit {c : Coordinator (M × Ledger)} (schedule : Schedule Job) (awaited timer : Option Nat) :
      Visited c.duel schedule timer → Booked l c₀ c →
      Booked l c₀ (c.update ({ · with schedule, awaited, timer }))

variable {l : Listener M} {c₀ : Coordinator M}

/-- A listener that keeps a ledger asks for the same as without. -/
theorem follows_noting (l : Listener M) : Follows (mapping Prod.fst) l.noting.tell l.tell := by
  have hdepth (depth : Nat) :
      Follows (mapping Prod.fst) (l.noting.tellAt depth) (l.tellAt depth) := by
    induction depth with
    | zero => exact fun n c c' h => h.logEvent n
    | succ depth ih =>
      have hplan (plan : Plan M) (c : Coordinator (M × Ledger)) :
          Alike (mapping Prod.fst) (plan.noting.perform (handle (l.noting.tellAt depth)) c)
            (plan.perform (handle (l.tellAt depth)) c.forget) := by
        induction plan generalizing c with
        | stop => exact alike_mapping.mpr rfl
        | look next ihnext => exact ihnext _ _ c
        | keep m next ihnext => exact ihnext _
        | ask r next ihnext =>
          let noted := c.noted (.request r)
          have hsame : Alike (mapping Prod.fst) noted c.forget := alike_mapping.mpr rfl
          obtain ⟨reply, x, x', hx, hx', hnext⟩ := ih.handle hsame r
          show Alike _ ((next (noted.handle _ r).1).noting.perform _ (noted.handle _ r).2)
            ((next (c.forget.handle _ r).1).perform _ (c.forget.handle _ r).2)
          rw [hx, hx', alike_mapping.mp hnext]
          exact ihnext _ _
      intro n c c' h
      obtain rfl := alike_mapping.mp h
      exact hplan (l.plan n) (c.logEvent n)
  exact hdepth l.depth

/-- What requests uphold as they are entered, telling a listener that keeps a ledger upholds. -/
theorem upholds_noting (l : Listener M) {P : Ledger → Standing → Prop}
    (hP : ∀ ledger, Upheld (P ledger))
    (hasked : ∀ ledger (d : Duel) r, P ledger d.standing →
      P (ledger.next d (.request r)) (d.asked r)) :
    Upholds (fun m => P m.2) l.noting.tell := by
  have hdepth (depth : Nat) : Upholds (fun m => P m.2) (l.noting.tellAt depth) := by
    induction depth with
    | zero => exact fun n c h => h
    | succ depth ih =>
      have hplan (plan : Plan M) (c : Coordinator (M × Ledger)) (h : c.Stands fun m => P m.2) :
          (plan.noting.perform (handle (l.noting.tellAt depth)) c).Stands fun m => P m.2 := by
        induction plan generalizing c with
        | stop => exact h
        | look next ihnext => exact ihnext _ _ c h
        | keep m next ihnext => exact ihnext _ h
        | ask r next ihnext =>
          refine ihnext _ _ (ih.handle (c := c.noted (.request r)) (tells_tellAt _ depth)
            (fun m => hP m.2) ?_)
          exact hasked c.memory.2 c.duel r h
      exact fun n c h => hplan (l.plan n) (c.logEvent n) h
  exact hdepth l.depth

theorem usedIn_step {d : Duel} (hidle : ∀ p, ¬ d.Acting p) : d.usedIn .step = [] := by
  unfold usedIn
  dsimp only
  split
  · rfl
  · rename_i t ready hr
    split
    · rfl
    · rename_i hgoes
      rw [Bool.or_eq_true, not_or, Bool.not_eq_true, Bool.not_eq_true] at hgoes
      split
      · rename_i p a later executed hp
        have ho : d.phase ≠ .over := by simpa [Duel.isOver] using hgoes.2
        exact absurd ⟨ho, t, ready, a, later, executed, hr, hgoes.1, hp⟩ (hidle p)
      · rfl

theorem Booked.still {c : Coordinator (M × Ledger)} (hc : Booked l c₀ c) (h : Still c₀.duel) :
    Still c.duel := by
  induction hc with
  | start => exact h
  | happening x _ ih => exact still_happen (c := Coordinator.noted _ x) ih x
  | visit schedule awaited timer hv _ ih => exact ih.visited hv awaited

/-- Every history of a match can be had with a ledger. -/
theorem booked_live (l : Listener M) (c₀ : Coordinator M) (es : List Episode) :
    ∃ c, Booked l c₀ c ∧ c.forget = c₀.live l es := by
  have hnext {c : Coordinator (M × Ledger)} (x : Happening) (hc : Booked l c₀ c) :
      ∃ c', Booked l c₀ c' ∧ c'.forget = c.forget.happen l x :=
    have hsame : Alike (mapping Prod.fst) (c.noted x) c.forget := alike_mapping.mpr rfl
    ⟨_, hc.happening x, (alike_mapping.mp ((follows_noting l).happen hsame x)).symm⟩
  refine live_keeps (P := fun x => ∃ c, Booked l c₀ c ∧ c.forget = x) ?_ ⟨_, .start, rfl⟩
  intro x e _ hx
  refine keeps_undergo (P := fun x => ∃ c, Booked l c₀ c ∧ c.forget = x) ?_ ?_ ?_ ?_ hx
  · rintro _ x' hstep ⟨c, hc, rfl⟩
    exact happen_step hstep ▸ hnext .step hc
  · rintro _ x' hwake ⟨c, hc, rfl⟩
    exact happen_wake hwake ▸ hnext .wake hc
  · rintro _ schedule awaited timer hv ⟨c, hc, rfl⟩
    exact ⟨_, hc.visit schedule awaited timer hv, rfl⟩
  · rintro r -
    obtain ⟨c, hc, rfl⟩ := hx
    exact hnext (.request r) hc

end Coordinator

end MazeDuel.Turn
