import MazeDuel.Action
/-!
Aims: where the modifiers of a shot lead. The way from the place on the radar to the aimed one
depends on the facing there and on the modifiers alone: from another place it is the same way, and
from a facing turned by a quarter it is the way turned by a quarter.
-/

namespace MazeDuel

namespace Place

/-- Whether a place has two whole numbers, and they are those of a cell; a truth value counts as one
or zero. -/
def Whole (p : Place) (c : Cell) : Prop :=
  ∃ x y, p.values = [x, y] ∧ x.toInt = .ok c.x ∧ y.toInt = .ok c.y

variable {p : Place} {c : Cell}

theorem whole_cell (c : Cell) : (cell c).Whole c := ⟨_, _, rfl, rfl, rfl⟩

theorem Whole.eq_cell {d : Cell} (h : (cell d).Whole c) : d = c := by
  obtain ⟨x, y, hvalues, hx, hy⟩ := h
  obtain ⟨hx', hy'⟩ : x = .whole d.x ∧ y = .whole d.y := by
    cases hvalues
    exact ⟨rfl, rfl⟩
  subst hx' hy'
  cases c
  cases d
  cases hx
  cases hy
  rfl

theorem shift_of_toInt {value : Json} {n : Int} (h : value.toInt = .ok n) (k : Int) :
    shift value (.whole k) = .ok (.whole (n + k)) := by
  cases value <;> cases h <;> rfl

/-- A step from a place of whole numbers leads to a cell. -/
theorem Whole.step (h : p.Whole c) (f : Facing) : p.step f = .ok (cell (f.step c)) := by
  cases p with
  | cell d =>
    rw [h.eq_cell]
    rfl
  | row values =>
    obtain ⟨x, y, hvalues, hx, hy⟩ := h
    obtain rfl : values = [x, y] := hvalues
    have hnext : f.ahead 1 c = f.step c := f.ahead_one c
    show shiftRow f (.whole 1) [x, y] = _
    simp only [shiftRow, Quantity.mul_whole, shift_of_toInt hx, shift_of_toInt hy]
    rw [← hnext]
    rfl

end Place

namespace Cell

def plus (c d : Cell) : Cell := ⟨c.x + d.x, c.y + d.y⟩

/-- A way turned by a quarter, clockwise. -/
def right (d : Cell) : Cell := ⟨d.y, -d.x⟩

/-- The number of steps that a way takes at least. -/
def manhattan (d : Cell) : Nat := d.x.natAbs + d.y.natAbs

theorem plus_zero (c : Cell) : c.plus ⟨0, 0⟩ = c := by
  simp [plus]

end Cell

namespace Facing

theorem step_plus (f : Facing) (c d : Cell) : f.step (c.plus d) = c.plus (f.step d) := by
  simp only [step, Cell.plus, Int.add_assoc]

theorem right_step (f : Facing) (d : Cell) : f.right.step d.right = (f.step d).right := by
  cases f <;> simp [step, delta, right, Cell.right] <;> omega

/-- Who makes a step is one step nearer or farther. -/
theorem manhattan_step (f : Facing) (d : Cell) :
    (f.step d).manhattan ≤ d.manhattan + 1 ∧
      (f.step d).manhattan % 2 = (d.manhattan + 1) % 2 := by
  cases f <;> simp only [step, delta, Cell.manhattan] <;> omega

end Facing

theorem MoveDir.relativeTo_right (dir : MoveDir) (f : Facing) :
    dir.relativeTo f.right = (dir.relativeTo f).right := by
  cases dir <;> cases f <;> rfl

namespace Modifier

/-- A stance seen from somewhere else. -/
def moved (c : Cell) (stance : Cell × Facing) : Cell × Facing := (c.plus stance.1, stance.2)

/-- A stance turned by a quarter about the origin, clockwise. -/
def turned (stance : Cell × Facing) : Cell × Facing := (stance.1.right, stance.2.right)

/-- How many of some modifiers make a step. -/
def steps (ms : List Modifier) : Nat := ms.countP fun m => m.dir?.isSome

theorem steps_cons (m : Modifier) (ms : List Modifier) :
    steps (m :: ms) = steps ms + if m.dir?.isSome then 1 else 0 :=
  List.countP_cons

theorem apply_moved (c : Cell) (stance : Cell × Facing) (m : Modifier) :
    m.apply (moved c stance) = moved c (m.apply stance) := by
  cases m with
  | turnLeft => rfl
  | turnRight => rfl
  | move dir => exact Prod.ext (Facing.step_plus _ _ _) rfl

theorem apply_turned (stance : Cell × Facing) (m : Modifier) :
    m.apply (turned stance) = turned (m.apply stance) := by
  cases m with
  | turnLeft =>
    have hturns : stance.2.right.left = stance.2.left.right := by simp
    exact Prod.ext rfl hturns
  | turnRight => rfl
  | move dir =>
    refine Prod.ext ?_ rfl
    show (dir.relativeTo stance.2.right).step stance.1.right = _
    rw [MoveDir.relativeTo_right, Facing.right_step]
    rfl

end Modifier

open Modifier

theorem applyModifiers_moved (c : Cell) (stance : Cell × Facing) (ms : List Modifier) :
    applyModifiers (moved c stance) ms = moved c (applyModifiers stance ms) :=
  List.foldl_hom (moved c) (fun stance m => apply_moved c stance m)

theorem applyModifiers_turned (stance : Cell × Facing) (ms : List Modifier) :
    applyModifiers (turned stance) ms = turned (applyModifiers stance ms) :=
  List.foldl_hom turned apply_turned

/-- Some modifiers lead no farther than their steps, and as far up to an even number. -/
theorem manhattan_applyModifiers (c : Cell) (f : Facing) (ms : List Modifier) :
    (applyModifiers (c, f) ms).1.manhattan ≤ c.manhattan + steps ms ∧
      (applyModifiers (c, f) ms).1.manhattan % 2 = (c.manhattan + steps ms) % 2 := by
  induction ms generalizing c f with
  | nil => exact ⟨Nat.le_refl _, rfl⟩
  | cons m ms ih =>
    rw [applyModifiers_cons, steps_cons]
    cases m with
    | turnLeft => exact ih c f.left
    | turnRight => exact ih c f.right
    | move dir =>
      have hrest := ih ((dir.relativeTo f).step c) f
      have hstep := (dir.relativeTo f).manhattan_step c
      have hone : (if ((Modifier.move dir).dir?).isSome then 1 else 0) = 1 := rfl
      have hmove : (Modifier.move dir).apply (c, f) = ((dir.relativeTo f).step c, f) := rfl
      rw [hone, hmove]
      omega

theorem aim_append (start : Place × Facing) (ms ms' : List Modifier) :
    aim start (ms ++ ms') = aim start ms >>= fun stance => aim stance ms' := by
  induction ms generalizing start with
  | nil => rfl
  | cons m ms ih =>
    cases m with
    | turnLeft => exact ih _
    | turnRight => exact ih _
    | move dir =>
      simp only [List.cons_append, aim]
      cases start.1.step (dir.relativeTo start.2) with
      | error fault => rfl
      | ok next => exact ih _

/-- From a place of whole numbers the aim goes as from the cell that they are. -/
theorem aim_whole {p : Place} {c : Cell} (h : p.Whole c) (f : Facing) (ms : List Modifier) :
    ∃ q, aim (p, f) ms = .ok (q, (applyModifiers (c, f) ms).2) ∧
      q.Whole (applyModifiers (c, f) ms).1 := by
  induction ms generalizing f with
  | nil => exact ⟨p, rfl, h⟩
  | cons m ms ih =>
    cases m with
    | turnLeft => exact ih f.left
    | turnRight => exact ih f.right
    | move dir =>
      refine ⟨_, ?_, Place.whole_cell _⟩
      rw [aim, h.step]
      exact aim_cell _ f ms

/-- Where a shot is aimed. From the facing and the modifiers there are a way and a last facing, and
from any place of whole numbers the aim goes this way and comes to this facing; with the first
facing turned by a quarter, the way and the last facing are turned too. More modifiers go on from
where the first ones lead. And the way is no longer than its steps, and as long up to an even
number. -/
theorem aim_relative (f : Facing) (ms : List Modifier) :
    ∃ (way : Cell) (last : Facing),
      (∀ p c, p.Whole c → ∃ q, aim (p, f) ms = .ok (q, last) ∧ q.Whole (c.plus way)) ∧
      (∀ p c, p.Whole c →
        ∃ q, aim (p, f.right) ms = .ok (q, last.right) ∧ q.Whole (c.plus way.right)) ∧
      (∀ p ms', aim (p, f) (ms ++ ms') = aim (p, f) ms >>= fun stance => aim stance ms') ∧
      way.manhattan ≤ steps ms ∧ way.manhattan % 2 = steps ms % 2 := by
  have hfrom (c : Cell) (f : Facing) :
      applyModifiers (c, f) ms = moved c (applyModifiers (⟨0, 0⟩, f) ms) := by
    rw [← applyModifiers_moved, moved, Cell.plus_zero]
  have hright : applyModifiers (⟨0, 0⟩, f.right) ms =
      turned (applyModifiers (⟨0, 0⟩, f) ms) := applyModifiers_turned (⟨0, 0⟩, f) ms
  have hlength := manhattan_applyModifiers ⟨0, 0⟩ f ms
  refine ⟨(applyModifiers (⟨0, 0⟩, f) ms).1, (applyModifiers (⟨0, 0⟩, f) ms).2, ?_, ?_,
    fun p ms' => aim_append (p, f) ms ms', ?_⟩
  · intro p c h
    have haim := aim_whole h f ms
    rw [hfrom c f] at haim
    exact haim
  · intro p c h
    have haim := aim_whole h f.right ms
    rw [hfrom c f.right, hright] at haim
    exact haim
  · simpa [Cell.manhattan] using hlength

/-- Two steps to the right of who faces north, and one back: one step to the east in the end, and
with the facing turned one to the south. -/
theorem aim_relative_flank :
    let ms := [.turnRight, .move .up, .move .up, .turnLeft, .move .left]
    let p : Place := .row [.bool true, .whole 2]
    p.Whole ⟨1, 2⟩ ∧ ∃ (way : Cell) (last : Facing), way = ⟨1, 0⟩ ∧ last = .north ∧
      (∃ q, aim (p, .north) ms = .ok (q, last) ∧ q.Whole (Cell.plus ⟨1, 2⟩ way)) ∧
      (∃ q, aim (p, .east) ms = .ok (q, last.right) ∧ q.Whole (Cell.plus ⟨1, 2⟩ way.right)) ∧
      way.manhattan ≤ steps ms ∧ way.manhattan % 2 = steps ms % 2 := by
  intro ms p
  have hwhole : p.Whole ⟨1, 2⟩ := ⟨_, _, rfl, rfl, rfl⟩
  obtain ⟨way, last, hfrom, hturned, -, hlength⟩ := aim_relative .north ms
  obtain ⟨q, haim, hq⟩ := hfrom (.cell ⟨0, 0⟩) ⟨0, 0⟩ (Place.whole_cell _)
  cases haim
  have hway : way = ⟨1, 0⟩ := by
    have hend : (⟨1, 0⟩ : Cell) = Cell.plus ⟨0, 0⟩ way := hq.eq_cell
    cases way
    simpa [Cell.plus, eq_comm] using hend
  exact ⟨hwhole, way, _, hway, rfl, hfrom p _ hwhole, hturned p _ hwhole, hlength⟩

end MazeDuel
