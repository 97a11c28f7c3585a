import Mathlib.Algebra.Group.Int.Defs
import MazeDuel.Turn.Execution
/-!
Courses: what a run of a program in an arena comes to, if nothing else happens there. It carries out
the actions up to the first answer that abandons the rest, and tells of each of them that changed
the place or the facing of its player.
-/

namespace MazeDuel

open Turn

namespace Arena

/-- What an action does to an arena, and whether it fails. -/
def doing (a : Arena) (x : Action) : Except Fault Unit × Arena :=
  match x.command with
  | .move dir => (.ok (), (a.tryMove x.player dir).value.2)
  | .wait => (.ok (), a)
  | .shoot modifiers =>
    let (fix, seen) := (a.radarFor x.player).value
    let (result, hurt) := (seen.shootAt x.player (Execution.target fix modifiers)).value
    (result.map fun _ => (), hurt)

/-- The arena after the first actions of a program. -/
def done (a : Arena) (program : List Action) (count : Nat) : Arena :=
  (program.take count).foldl (fun a x => (a.doing x).2) a

/-- Whether an action of a program can be carried out where the actions before it lead. -/
def Succeeds (a : Arena) (program : List Action) (index : Nat) : Prop :=
  ∀ x ∈ program[index]?, ((a.done program index).doing x).1 = .ok ()

/-- The fix of a player before an action of a program, if the action changes it. -/
def left? (a : Arena) (p : Player) (program : List Action) (index : Nat) : Option Fix :=
  let before := ((a.done program index).combatant p).fix
  let after := ((a.done program (index + 1)).combatant p).fix
  if after.same before then none else some before

theorem left?_cons (a : Arena) (p : Player) (x : Action) (rest : List Action) (index : Nat) :
    a.left? p (x :: rest) (index + 1) = (a.doing x).2.left? p rest index := rfl

end Arena

namespace Turn.Execution

theorem map_toList_append (changed : Option Fix) (time : Float) (later : List (Fix × Float)) :
    ((changed.map fun fix => (fix, time)).toList ++ later).map Prod.fst =
      changed.toList ++ later.map Prod.fst := by
  cases changed <;> rfl

theorem Course.after_eq_ok {W : Type} {later : Course W} {label : String}
    {left : List (Fix × Float)} {result : ExecutionResult} :
    (later.after label left).result = .ok result ↔ ∃ result', later.result = .ok result' ∧
      result = { result' with executed := label :: result'.executed } := by
  unfold Course.after
  cases later.result <;> simp [Except.map, eq_comm]

/-- What a run of a program in an arena gives that is abandoned before its action `k`: a result, if
every action before can be carried out and the pause is one for a clock. It did the actions before
that one then, in their order. -/
structure Covers (p : Player) (delay : Quantity) (a : Arena) (program : List Action) (k : Nat)
    (course : Course (Logged Arena)) : Prop where
  returns : (∃ result, course.result = .ok result) ↔
    (k = 0 ∨ delay.fitsReal = true) ∧ ∀ i < k, a.Succeeds program i
  given : ∀ result, course.result = .ok result →
    result = ⟨p, (program.take k).map Action.label, program.length - k⟩ ∧
    course.world.value = a.done program k ∧
    course.moves.map Prod.fst = (List.range k).filterMap (a.left? p program)

section

variable {p : Player} {delay : Quantity} {a : Arena} {x : Action} {rest : List Action} {k : Nat}

theorem succeeds_cons (hfirst : (a.doing x).1 = .ok ()) :
    (∀ i < k + 1, a.Succeeds (x :: rest) i) ↔ ∀ i < k, (a.doing x).2.Succeeds rest i := by
  refine ⟨fun h i hi => h (i + 1) (Nat.succ_lt_succ hi), fun h i hi => ?_⟩
  cases i with
  | zero =>
    rintro _ ⟨⟩
    exact hfirst
  | succ i => exact h i (Nat.lt_of_succ_lt_succ hi)

/-- After its first action a run goes on with the others. -/
theorem Covers.after {later : Course (Logged Arena)} (h : Covers p delay (a.doing x).2 rest k later)
    (hfirst : (a.doing x).1 = .ok ()) (hfits : delay.fitsReal = true) (time : Float) :
    Covers p delay a (x :: rest) (k + 1) (later.after x.label
      ((a.left? p (x :: rest) 0).map fun fix => (fix, time)).toList) where
  returns := by
    have hreturns := h.returns
    simp only [hfits, or_true, true_and] at hreturns ⊢
    rw [succeeds_cons hfirst, ← hreturns]
    simp only [Course.after_eq_ok]
    exact ⟨fun ⟨_, result, hok, _⟩ => ⟨result, hok⟩, fun ⟨result, hok⟩ => ⟨_, result, hok, rfl⟩⟩
  given result hok := by
    obtain ⟨_, hlater, rfl⟩ := Course.after_eq_ok.mp hok
    obtain ⟨rfl, hdone, hmoves⟩ := h.given _ hlater
    refine ⟨?_, hdone, ?_⟩
    · rw [List.take_succ_cons, List.map_cons, List.length_cons, Nat.add_sub_add_right]
    · have hrest : a.left? p (x :: rest) ∘ Nat.succ = (a.doing x).2.left? p rest :=
        funext (a.left?_cons p x rest)
      show (_ ++ Course.moves _).map Prod.fst = _
      rw [map_toList_append, hmoves, List.range_succ_eq_map, List.filterMap_cons,
        List.filterMap_map, hrest]
      cases a.left? p (x :: rest) 0 <;> rfl

end

end Turn.Execution

end MazeDuel
