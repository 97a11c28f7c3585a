import MazeDuel.Grid.Edits
import MazeDuel.Proofs.Number.Order
import MazeDuel.Proofs.World.Passages
/-!
What edits leave of a grid. On a grid that is coherent nothing fails after the first write, and
every edit, made or not, leaves it coherent.
-/

namespace MazeDuel

namespace Grid

namespace InPlace

variable {g : Grid}

theorem on_noteWall (g : Grid) (c : Cell) (side : Facing) (up : Bool) : (noteWall c side up).on g =
    if g.walls.contains c then (.ok ⟨⟩, g.noteWall c side up)
    else (.error (.unknownPlace c), g) := by
  rw [Std.TreeMap.contains_eq_isSome_getElem?, noteWall, on_bind, on_get]
  cases hc : g.walls[c]? <;> simp [Grid.noteWall, hc]

/-- The far side of an edge is noted if the near one is, so the second write never fails. -/
theorem on_setWall (h : g.Charted) (c : Cell) (side : Facing) (up : Bool) :
    (setWall c side up).on g = g.settle (g.setWall c side up) := by
  rw [setWall, on_bind, on_noteWall, Grid.setWall]
  by_cases hc : g.walls.contains c = true
  · obtain ⟨walls, hnear, hcharted, -⟩ := exists_noteWall h (by rw [← h c, hc]) side up
    rw [if_pos hc, if_pos hc, hnear]
    simp only [on_bind, on_get]
    by_cases hin : g.inBounds (side.step c) = true
    · have hfar : walls.contains (side.step c) = true := (hcharted (side.step c)).trans hin
      have hin' : inBounds { g with walls := walls } (side.step c) = true := hin
      rw [if_pos hin', if_pos hin, on_noteWall, if_pos hfar]
      rfl
    · have hin' : ¬ inBounds { g with walls := walls } (side.step c) = true := hin
      rw [if_neg hin', if_neg hin]
      rfl
  · rw [if_neg hc, if_neg hc]
    rfl

theorem on_carveBetween (h : g.Charted) (a b : Cell) :
    (carveBetween a b).on g = g.settle (g.carveBetween a b) := by
  rw [carveBetween, Grid.carveBetween]
  cases Facing.all.find? fun f => f.step a == b with
  | some side => exact on_setWall h a side false
  | none => rfl

theorem on_setExit (g : Grid) (c : Cell) : (setExit c).on g = g.settle (g.setExit c) := by
  rw [setExit, on_bind, on_get, Grid.setExit]
  cases hc : g.inBounds c <;> simp [hc, settle]

theorem on_placePowerup (g : Grid) (c : Cell) (kind : Powerup) :
    (placePowerup c kind).on g = g.settle (g.placePowerup c kind) := by
  rw [placePowerup, on_bind, on_get, Grid.placePowerup]
  cases hc : g.inBounds c <;> simp [hc, settle]

end InPlace

/-- On a charted grid an edit that fails has written nothing. -/
theorem Edit.on_inPlace {g : Grid} (h : g.Charted) (e : Edit) :
    e.inPlace.on g = g.settle (e.apply g) := by
  cases e with
  | addWall c side => exact InPlace.on_setWall h c side true
  | removeWall c side => exact InPlace.on_setWall h c side false
  | carveBetween a b => exact InPlace.on_carveBetween h a b
  | setExit c => exact InPlace.on_setExit g c
  | placePowerup c kind => exact InPlace.on_placePowerup g c kind
  | takePowerup c => rfl

/-- A grid whose notes agree with each other: walls are noted of just the cells in bounds and the
same from both sides of an edge, and the exit and all pickups lie on cells in bounds. -/
structure Coherent (g : Grid) : Prop where
  charted : g.Charted
  agree : ∀ c side, g.inBounds c = true → g.inBounds (side.step c) = true →
    g.hasWall c side = g.hasWall (side.step c) side.opposite
  exit : ∀ p, g.exit = some p → ∃ c, p = .cell c ∧ g.inBounds c = true
  powerups : ∀ c, g.powerups.contains c = true → g.inBounds c = true
  noLooseWalls : g.oddments.walls = {}
  noLoosePowerups : g.oddments.powerups = {}

/-- A new grid is coherent: closed, every edge is walled from both sides, and else none is. -/
theorem coherent_build (width height : Nat) (closed : Bool) (oddments : Oddments)
    (hwalls : oddments.walls = {}) (hpowerups : oddments.powerups = {}) :
    Coherent { build width height closed with oddments := oddments } where
  charted := charted_build width height closed
  agree c side hc hnext := by
    have hback :
        (build width height closed).inBounds (side.opposite.step (side.step c)) = true := by
      rw [Facing.step_opposite]
      exact hc
    have hnear := hasWall_build width height closed hc side
    have hfar := hasWall_build width height closed hnext side.opposite
    have hnext : (build width height closed).inBounds (side.step c) = true := hnext
    rw [hnext] at hnear
    rw [hback] at hfar
    exact hnear.trans hfar.symm
  exit p hp := nomatch hp
  powerups c hc := by
    have hempty : (∅ : Std.TreeMap Cell Powerup).contains c = false :=
      Std.TreeMap.contains_emptyc
    have hc : (∅ : Std.TreeMap Cell Powerup).contains c = true := hc
    rw [hempty] at hc
    cases hc
  noLooseWalls := hwalls
  noLoosePowerups := hpowerups

/-- A whole number that is not found below a bound is no less. -/
theorem le_of_toInt {value : Json} {q : Quantity} {n bound : Int} (hq : value.toQuantity = .ok q)
    (hn : value.toInt = .ok n) (hlow : ¬ q.below bound = true) : bound ≤ n := by
  have hint : q.toInt? = some n := by
    cases value <;> cases hq <;> cases hn <;> rfl
  rw [Quantity.below_iff hint] at hlow
  omega

/-- A grid is made of sizes of at least one, and a size that was given as a truth value is one. -/
theorem exists_build_of_make {width height : Json} {closed : Bool} {g : Grid}
    (h : make width height closed = .ok g) : ∃ (w k : Nat) (widthIsFlag heightIsFlag : Bool),
      1 ≤ w ∧ 1 ≤ k ∧ (widthIsFlag = true → w = 1) ∧ (heightIsFlag = true → k = 1) ∧
      g = { build w k closed with oddments := { widthIsFlag, heightIsFlag } } := by
  have hone {flag : Bool} {n : Int} (hn : (Json.bool flag).toInt = .ok n) (hpos : 1 ≤ n) :
      n.toNat = 1 := by
    cases hn
    cases flag
    · cases hpos
    · rfl
  obtain ⟨q, hq, h⟩ := exists_ok_of_bind h
  split at h
  · cases h
  · next hwide =>
    obtain ⟨q', hq', h⟩ := exists_ok_of_bind h
    split at h
    · cases h
    · next hhigh =>
      obtain ⟨m, hm, h⟩ := exists_ok_of_bind h
      obtain ⟨n, hn, h⟩ := exists_ok_of_bind h
      have hwide := le_of_toInt hq hm hwide
      have hhigh := le_of_toInt hq' hn hhigh
      refine ⟨m.toNat, n.toNat, _, _, by omega, by omega, fun hflag => ?_, fun hflag => ?_,
        (Except.ok.inj h).symm⟩
      · match width, hflag with
        | .bool flag, _ => exact hone hm hwide
      · match height, hflag with
        | .bool flag, _ => exact hone hn hhigh

theorem coherent_make {width height : Json} {closed : Bool} {g : Grid}
    (h : make width height closed = .ok g) : g.Coherent := by
  obtain ⟨w, k, _, _, -, -, -, -, rfl⟩ := exists_build_of_make h
  exact coherent_build w k closed _ rfl rfl

variable {g : Grid}

theorem Coherent.setWall (h : g.Coherent) {c : Cell} (hc : g.inBounds c = true) (side : Facing)
    (up : Bool) :
    ∃ walls, g.setWall c side up = .ok { g with walls := walls } ∧
      Coherent { g with walls := walls } := by
  obtain ⟨walls, hset, hcharted, hhas⟩ := exists_setWall h.charted hc side up
  refine ⟨walls, hset, { h with charted := hcharted, agree := ?_ }⟩
  intro d other hd hnext
  have hedge : ((other.step d = c ∧ other.opposite = side) ∨
      (other.step d = side.step c ∧ other.opposite = side.opposite)) ↔
        (d = c ∧ other = side) ∨ (d = side.step c ∧ other = side.opposite) := Facing.same_edge
  rw [hhas d other hd, hhas (other.step d) other.opposite hnext, h.agree d other hd hnext]
  simp only [hedge]

theorem Coherent.setExit (h : g.Coherent) {c : Cell} (hc : g.inBounds c = true) :
    Coherent { g with exit := some (.cell c) } :=
  { h with exit := fun _ hp => ⟨c, (Option.some.inj hp).symm, hc⟩ }

theorem Coherent.placePowerup (h : g.Coherent) {c : Cell} (hc : g.inBounds c = true)
    (kind : Powerup) : Coherent { g with powerups := g.powerups.insert c kind } := by
  refine { h with powerups := fun d hd => ?_ }
  have hd : (compare c d == .eq || g.powerups.contains d) = true :=
    Std.TreeMap.contains_insert.symm.trans hd
  rcases Bool.or_eq_true_iff.mp hd with hsame | hthere
  · rw [← Std.compare_eq_iff_eq.mp (beq_iff_eq.mp hsame)]
    exact hc
  · exact h.powerups d hthere

theorem Coherent.takePowerup (h : g.Coherent) (c : Cell) :
    Coherent { g with powerups := g.powerups.erase c } := by
  refine { h with powerups := fun d hd => ?_ }
  have hd : (!(compare c d == .eq) && g.powerups.contains d) = true :=
    Std.TreeMap.contains_erase.symm.trans hd
  exact h.powerups d (Bool.and_eq_true_iff.mp hd).2

namespace Edit

/-- An edit whose cells fit is made. It changes neither the size nor that the grid is coherent. -/
theorem exists_apply (h : g.Coherent) {e : Edit} (he : e.Fits g) :
    ∃ g', e.apply g = .ok g' ∧ g'.Coherent ∧ g'.width = g.width ∧ g'.height = g.height := by
  cases e with
  | addWall c side =>
    obtain ⟨walls, hset, hwalls⟩ := h.setWall he side true
    exact ⟨_, hset, hwalls, rfl, rfl⟩
  | removeWall c side =>
    obtain ⟨walls, hset, hwalls⟩ := h.setWall he side false
    exact ⟨_, hset, hwalls, rfl, rfl⟩
  | carveBetween a b =>
    obtain ⟨ha, side, rfl⟩ := he
    obtain ⟨walls, hset, hwalls⟩ := h.setWall ha side false
    exact ⟨_, (carveBetween_step g a side).trans hset, hwalls, rfl, rfl⟩
  | setExit c => exact ⟨_, if_pos he, h.setExit he, rfl, rfl⟩
  | placePowerup c kind => exact ⟨_, if_pos he, h.placePowerup he kind, rfl, rfl⟩
  | takePowerup c => exact ⟨_, rfl, h.takePowerup c, rfl, rfl⟩

theorem setWall_refused (h : g.Charted) {c : Cell} (hc : ¬ g.inBounds c = true) (side : Facing)
    (up : Bool) : g.setWall c side up = .error (.unknownPlace c) := by
  rw [Grid.setWall, h c, if_neg hc]

theorem exists_fault (h : g.Charted) {e : Edit} (he : ¬ e.Fits g) :
    ∃ fault, e.apply g = .error fault := by
  cases e with
  | addWall c side => exact ⟨_, setWall_refused h he side true⟩
  | removeWall c side => exact ⟨_, setWall_refused h he side false⟩
  | carveBetween a b =>
    by_cases hmeet : ∃ side : Facing, side.step a = b
    · obtain ⟨side, rfl⟩ := hmeet
      have ha : ¬ g.inBounds a = true := fun ha => he ⟨ha, side, rfl⟩
      exact ⟨_, (carveBetween_step g a side).trans (setWall_refused h ha side false)⟩
    · have hnone : Facing.all.find? (fun f => f.step a == b) = none := by
        rw [List.find?_eq_none]
        intro side _ hside
        exact hmeet ⟨side, beq_iff_eq.mp hside⟩
      exact ⟨.notAdjacent a b, by rw [apply, Grid.carveBetween, hnone]⟩
  | setExit c => exact ⟨_, if_neg he⟩
  | placePowerup c kind => exact ⟨_, if_neg he⟩
  | takePowerup c => exact absurd trivial he

/-- After an edit a coherent grid has its old size and is coherent, whether the edit was made or
not. -/
theorem coherent_on (h : g.Coherent) (e : Edit) :
    (e.inPlace.on g).2.Coherent ∧ (e.inPlace.on g).2.width = g.width ∧
      (e.inPlace.on g).2.height = g.height := by
  rw [on_inPlace h.charted e]
  by_cases he : e.Fits g
  · obtain ⟨g', happly, hcoherent, hwidth, hheight⟩ := exists_apply h he
    rw [happly]
    exact ⟨hcoherent, hwidth, hheight⟩
  · obtain ⟨fault, happly⟩ := exists_fault h.charted he
    rw [happly]
    exact ⟨h, rfl, rfl⟩

end Edit

theorem Coherent.edited (h : g.Coherent) (edits : List Edit) :
    (g.edited edits).Coherent ∧ (g.edited edits).width = g.width ∧
      (g.edited edits).height = g.height := by
  induction edits generalizing g with
  | nil => exact ⟨h, rfl, rfl⟩
  | cons e edits ih =>
    obtain ⟨hnext, hwidth, hheight⟩ := Edit.coherent_on h e
    obtain ⟨hlast, hwidth', hheight'⟩ := ih hnext
    exact ⟨hlast, hwidth'.trans hwidth, hheight'.trans hheight⟩

/-- Whatever is asked of a new grid, and whichever of it fails, the grid stays coherent and keeps
its size; the cells outside have every side walled. An edit whose cells do not fit fails and leaves
the grid as it was; any other is made as a whole. -/
theorem coherent_of_edits {width height : Json} {closed : Bool} {g : Grid}
    (h : make width height closed = .ok g) (edits : List Edit) :
    (g.edited edits).Coherent ∧
      (g.edited edits).width = g.width ∧ (g.edited edits).height = g.height ∧
      (∀ c side, (g.edited edits).inBounds c = false → (g.edited edits).hasWall c side = true) ∧
      ∀ e : Edit,
        (e.Fits (g.edited edits) → ∃ g', e.apply (g.edited edits) = .ok g' ∧
          e.inPlace.on (g.edited edits) = (.ok ⟨⟩, g')) ∧
        (¬ e.Fits (g.edited edits) → ∃ fault, e.apply (g.edited edits) = .error fault ∧
          e.inPlace.on (g.edited edits) = (.error fault, g.edited edits)) := by
  obtain ⟨hcoherent, hwidth, hheight⟩ := (coherent_make h).edited edits
  refine ⟨hcoherent, hwidth, hheight, ?_, fun e => ⟨fun he => ?_, fun he => ?_⟩⟩
  · exact fun c side hc => hcoherent.charted.hasWall_outside hc side
  · obtain ⟨g', happly, -⟩ := Edit.exists_apply hcoherent he
    refine ⟨g', happly, ?_⟩
    rw [Edit.on_inPlace hcoherent.charted, happly]
    rfl
  · obtain ⟨fault, happly⟩ := Edit.exists_fault hcoherent.charted he
    refine ⟨fault, happly, ?_⟩
    rw [Edit.on_inPlace hcoherent.charted, happly]
    rfl

/-- In a closed square a border wall comes down, a passage is carved, a carving between cells that
do not meet fails and an exit is set; then no wall can be put up outside. -/
theorem coherent_of_edits_square :
    make (.whole 2) (.whole 2) true = .ok (build 2 2 true) ∧
      let g := (build 2 2 true).edited [.removeWall ⟨0, 0⟩ .south, .carveBetween ⟨0, 0⟩ ⟨1, 0⟩,
        .carveBetween ⟨0, 0⟩ ⟨1, 1⟩, .setExit ⟨0, 0⟩]
      g.Coherent ∧ g.width = 2 ∧ g.height = 2 ∧
        ∃ fault, (Edit.addWall ⟨2, 0⟩ .west).inPlace.on g = (.error fault, g) := by
  refine ⟨rfl, ?_⟩
  intro g
  have hmade : make (.whole 2) (.whole 2) true = .ok (build 2 2 true) := rfl
  obtain ⟨hcoherent, hwidth, hheight, -, hedit⟩ := coherent_of_edits hmade _
  have houtside : ¬ (Edit.addWall ⟨2, 0⟩ .west).Fits g := by
    have hwidth : g.width = 2 := hwidth
    simp [Edit.Fits, inBounds, hwidth]
  obtain ⟨fault, -, hfault⟩ := (hedit _).2 houtside
  exact ⟨hcoherent, hwidth, hheight, fault, hfault⟩

end Grid

end MazeDuel
