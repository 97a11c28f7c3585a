import MazeDuel.Arena
import MazeDuel.Proofs.Number.Floats
/-!
Footing: both combatants of an arena stand on its grid, however their places were given, and no move
or shot changes that. A place on the grid is equal to itself, so a player who has not moved is seen
not to have moved.
-/

namespace MazeDuel

theorem Grid.same_of_within {size : Nat} {value : Json} (h : within size value = .ok true) :
    value.same value = true := by
  unfold within Json.toQuantity at h
  cases hq : Quantity.ofJson? value with
  | none => simp [hq, bind, Except.bind] at h
  | some q =>
    simp only [hq, bind, Except.bind, pure, Except.pure, Except.ok.injEq, Bool.and_eq_true] at h
    have hsame : q.same q = true := Quantity.same_self h.1
    cases value <;> simp_all [Quantity.ofJson?, Json.same]

/-- Of a place on the grid both values have been found to be within its size. -/
theorem Grid.within_of_contains {g : Grid} {x y : Json} (h : g.contains (.row [x, y]) = .ok true) :
    within g.width x = .ok true ∧ within g.height y = .ok true := by
  obtain ⟨inside, hx, h⟩ := exists_ok_of_bind h
  cases inside with
  | false => cases h
  | true => exact ⟨hx, h⟩

/-- A place on the grid is equal to itself. -/
theorem Grid.same_of_contains {g : Grid} {p : Place} (h : g.contains p = .ok true) :
    p.same p = true := by
  unfold Place.same
  cases hc : p.cell? with
  | some c => simp
  | none =>
    match p, h with
    | .cell c, _ => cases hc
    | .row [x, y], h =>
      obtain ⟨hx, hy⟩ := within_of_contains h
      simp [Place.values, Json.sameAll, same_of_within hx, same_of_within hy]

/-- What a look ahead comes to: no step is made, or the place ahead is on the grid, and the step
goes there either through a wall, which takes an active phase, or where there is none. -/
theorem Combatant.look_cases {c : Combatant} {grid : Grid} {side : Facing} {step : Step}
    (h : c.look grid side = .ok step) :
    step = .blocked ∨ ∃ target, c.pos.step side = .ok target ∧ grid.contains target = .ok true ∧
      (step = .throughWall target ∧ grid.hasWallAt c.pos side = true ∧
          c.active.phase.isPresent = true ∨
        step = .moved target ∧ grid.hasWallAt c.pos side = false) := by
  obtain ⟨target, htarget, h⟩ := exists_ok_of_bind h
  obtain ⟨here, hhere, h⟩ := exists_ok_of_bind h
  obtain ⟨rfl, -⟩ := Place.isKey_of_asKey hhere
  obtain ⟨inside, hinside, h⟩ := exists_ok_of_bind h
  cases h
  split
  · rename_i hwall
    split
    · rename_i hphase
      rw [Bool.and_eq_true] at hphase
      exact .inr ⟨target, htarget, hinside.trans (congrArg _ hphase.2),
        .inl ⟨rfl, hwall, hphase.1⟩⟩
    · exact .inl rfl
  · rename_i hopen
    split
    · exact .inl rfl
    · rename_i hfree
      rw [Bool.or_eq_true, not_or, Bool.not_eq_true', Bool.not_eq_false] at hfree
      exact .inr ⟨target, htarget, hinside.trans (congrArg _ hfree.1),
        .inr ⟨rfl, Bool.eq_false_iff.mpr hopen⟩⟩

namespace Arena

/-- Nobody has moved or turned, on a grid of the same size. -/
structure SameFixes (a a' : Arena) : Prop where
  width : a'.grid.width = a.grid.width
  height : a'.grid.height = a.grid.height
  fix : ∀ p, (a'.combatant p).fix = (a.combatant p).fix

theorem SameFixes.trans {a a' a'' : Arena} (h : SameFixes a a') (h' : SameFixes a' a'') :
    SameFixes a a'' :=
  ⟨h'.width.trans h.width, h'.height.trans h.height, fun p => (h'.fix p).trans (h.fix p)⟩

theorem combatant_setCombatant (a : Arena) (p q : Player) (c : Combatant) :
    (a.setCombatant p c).combatant q = if q = p then c else a.combatant q :=
  a.combatants.get_set p q c

theorem sameFixes_setCombatant {a : Arena} {p : Player} {c : Combatant}
    (h : c.fix = (a.combatant p).fix) : SameFixes a (a.setCombatant p c) := by
  refine ⟨rfl, rfl, fun q => ?_⟩
  rw [combatant_setCombatant]
  split
  · rename_i heq
    rw [h, heq]
  · rfl

theorem sameFixes_radarFor (a : Arena) (p : Player) : SameFixes a (a.radarFor p).value.2 := by
  refine sameFixes_setCombatant ?_
  unfold Radar.query Radar.live Combatant.consumeTrueRadar
  split <;> rfl

/-- A shot takes health and nothing else. -/
theorem sameFixes_shootAt (a : Arena) (p : Player) (cell : Place) :
    SameFixes a (a.shootAt p cell).value.2 := by
  obtain ⟨result, target, heq, hshot⟩ := a.shootAt_eq p cell
  have htarget : target = { a.opponent p with health := target.health } := hshot.target_eq
  have hfix : target.fix = (a.combatant p.other).fix := by
    rw [htarget]
    rfl
  rw [heq]
  exact sameFixes_setCombatant hfix

theorem sameFixes_recordTurnEnd (a : Arena) (p : Player) :
    SameFixes a (a.recordTurnEnd p).value :=
  ⟨rfl, rfl, fun _ => rfl⟩

theorem sameFixes_promote (a : Arena) (p : Player) : SameFixes a (a.promote p).value :=
  sameFixes_setCombatant rfl

theorem sameFixes_clearActive (a : Arena) (p : Player) : SameFixes a (a.clearActive p).value := by
  refine sameFixes_setCombatant ?_
  unfold Combatant.clearActive
  split <;> rfl

theorem sameFixes_pickUp (a : Arena) (p : Player) : SameFixes a (a.pickUp p).value.2 := by
  have hsize : (a.grid.takePowerupAt (a.position p)).2.width = a.grid.width ∧
      (a.grid.takePowerupAt (a.position p)).2.height = a.grid.height := by
    unfold Grid.takePowerupAt
    split <;> exact ⟨rfl, rfl⟩
  unfold pickUp
  split
  · exact ⟨rfl, rfl, fun _ => rfl⟩
  · rename_i powerup grid hg
    rw [hg] at hsize
    have hgrid : SameFixes a { a with grid := grid } := ⟨hsize.1, hsize.2, fun _ => rfl⟩
    exact hgrid.trans (sameFixes_setCombatant rfl)

/-- Where nothing lies there is nothing to pick up. -/
theorem pickUp_none {a : Arena} {p : Player} (h : (a.pickUp p).value.1 = none) :
    (a.pickUp p).value.2 = a := by
  unfold pickUp at h ⊢
  split
  · rfl
  · rename_i hg
    rw [hg] at h
    cases h

/-- Both combatants stand on the grid. -/
def Grounded (a : Arena) : Prop := ∀ p, a.grid.contains (a.position p) = .ok true

theorem contains_congr {g g' : Grid} (hw : g'.width = g.width) (hh : g'.height = g.height)
    (p : Place) : g'.contains p = g.contains p := by
  unfold Grid.contains
  split <;> simp [Grid.inBounds, hw, hh]

theorem Grounded.sameFixes {a a' : Arena} (h : Grounded a) (hs : SameFixes a a') :
    Grounded a' := by
  intro p
  rw [contains_congr hs.width hs.height,
    show a'.position p = a.position p from congrArg Fix.position (hs.fix p)]
  exact h p

/-- What an arena is made of. -/
theorem make_eq {grid : Grid} {a b : Combatant} {damage : Quantity} {arena : Arena}
    (h : make grid a b damage = .ok arena) :
    arena = ⟨grid, ⟨a, b⟩, ⟨Fixes.fresh a.fix, Fixes.fresh b.fix⟩, damage⟩ ∧ a.player = .a ∧
      b.player = .b ∧ grid.contains a.pos = .ok true ∧ grid.contains b.pos = .ok true := by
  unfold make at h
  simp only [bind, Except.bind, pure, Except.pure, throw, throwThe, MonadExceptOf.throw] at h
  split at h
  · cases h
  · rename_i horder
    simp only [not_or, Decidable.not_not] at horder
    cases ha : grid.contains a.pos with
    | error fault => simp [ha] at h
    | ok inside =>
      cases hb : grid.contains b.pos with
      | error fault => cases inside <;> simp [ha, hb] at h
      | ok inside' =>
        cases inside <;> cases inside' <;> simp [ha, hb] at h
        exact ⟨h.symm, horder.1, horder.2, rfl, rfl⟩

/-- Every arena that can be made has both combatants on its grid. -/
theorem grounded_make {grid : Grid} {a b : Combatant} {damage : Quantity} {arena : Arena}
    (h : make grid a b damage = .ok arena) : Grounded arena := by
  obtain ⟨rfl, -, -, ha, hb⟩ := make_eq h
  intro p
  cases p
  · exact ha
  · exact hb

/-- A step leads to a place on the grid, or nowhere. -/
theorem contains_after {c : Combatant} {grid : Grid} {side : Facing} {step : Combatant.Step}
    (hl : c.look grid side = .ok step) (h : grid.contains c.pos = .ok true) :
    grid.contains (c.after step).pos = .ok true := by
  obtain rfl | ⟨target, -, hinside, ⟨rfl, -⟩ | ⟨rfl, -⟩⟩ := Combatant.look_cases hl
  · exact h
  · exact hinside
  · exact hinside

theorem grounded_tryMove {a : Arena} (h : Grounded a) (p : Player) (dir : MoveDir) :
    Grounded (a.tryMove p dir).value.2 := by
  have hmoved : a.grid.contains ((a.combatant p).tryMove a.grid dir).value.2.pos = .ok true := by
    unfold Combatant.tryMove
    dsimp only
    split
    · exact h p
    · exact contains_after (c := { a.combatant p with facing := dir.facing }) ‹_› (h p)
  have heq : (a.tryMove p dir).value.2 =
      a.setCombatant p ((a.combatant p).tryMove a.grid dir).value.2 := by
    unfold tryMove
    simp only [Logged.value_bind]
    split <;> rfl
  intro q
  rw [heq]
  show a.grid.contains ((a.setCombatant p _).combatant q).pos = _
  rw [combatant_setCombatant]
  split
  · exact hmoved
  · exact h q

/-- Whoever stands on the grid and has not moved or turned has the same fix as before. -/
theorem Grounded.same_fix {a : Arena} (h : Grounded a) (p : Player) :
    (a.combatant p).fix.same (a.combatant p).fix = true := by
  have hplace : (a.position p).same (a.position p) = true := Grid.same_of_contains (h p)
  unfold Fix.same
  rw [Bool.and_eq_true]
  exact ⟨hplace, beq_self_eq_true _⟩

end Arena

end MazeDuel
