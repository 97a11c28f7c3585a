import MazeDuel.Proofs.Number.Order
import MazeDuel.Proofs.World.Footing
/-!
Bodies: where the combatants of an arena stand, what health they have and whose they are, and what
each operation of the arena does to them.
-/

namespace MazeDuel

/-! ## Equal places -/

theorem Json.same_eq {a b : Json} {m n : Quantity} (ha : Quantity.ofJson? a = some m)
    (hb : Quantity.ofJson? b = some n) : a.same b = m.same n := by
  cases a <;> cases b <;> simp_all [Quantity.ofJson?, Json.same]

theorem Json.same_congr {a b c : Json} {m n : Quantity} (ha : Quantity.ofJson? a = some m)
    (hb : Quantity.ofJson? b = some n) (h : m.same n) : c.same a = c.same b := by
  have hsame (k : Quantity) : k.same m = k.same n := by
    rw [Bool.eq_iff_iff]
    exact ⟨fun hk => Quantity.same_trans hk h,
      fun hk => Quantity.same_trans hk (Quantity.same_symm h)⟩
  cases c <;> cases a <;> cases b <;> simp_all [Quantity.ofJson?, Json.same]

theorem Place.isKey_of_numbers {p : Place} {x y : Json} {m n : Quantity} (h : p.values = [x, y])
    (hx : Quantity.ofJson? x = some m) (hy : Quantity.ofJson? y = some n) : p.isKey = true := by
  rw [Place.isKey, h]
  cases x <;> cases hx <;> cases y <;> cases hy <;> rfl

/-- A place that is equal to a cell has two numbers that are those of the cell. -/
theorem Place.numbers_of_cell? {p : Place} {c : Cell} (h : p.cell? = some c) :
    ∃ x y m n, p.values = [x, y] ∧ Quantity.ofJson? x = some m ∧ Quantity.ofJson? y = some n ∧
      m.integral? = some c.x ∧ n.integral? = some c.y := by
  have hcoordinate {value : Json} {k : Int} (h : coordinate? value = some k) :
      ∃ q, Quantity.ofJson? value = some q ∧ q.integral? = some k := Option.bind_eq_some_iff.mp h
  match p, h with
  | .cell d, h =>
    cases h
    exact ⟨_, _, _, _, rfl, rfl, rfl, rfl, rfl⟩
  | .row [x, y], h =>
    obtain ⟨k, hx, h⟩ := Option.bind_eq_some_iff.mp h
    obtain ⟨l, hy, h⟩ := Option.bind_eq_some_iff.mp h
    cases h
    obtain ⟨m, hm, hk⟩ := hcoordinate hx
    obtain ⟨n, hn, hl⟩ := hcoordinate hy
    exact ⟨x, y, m, n, rfl, hm, hn, hk, hl⟩

theorem Quantity.same_of_integral? {m n : Quantity} {k : Int} (hm : m.integral? = some k)
    (hn : n.integral? = some k) : m.same n = true :=
  same_iff.mpr ⟨_, integral?_eq_some.mp hm, integral?_eq_some.mp hn⟩

theorem Json.number_of_same {x y : Json} {m : Quantity} (hx : Quantity.ofJson? x = some m)
    (h : x.same y = true) : ∃ n, Quantity.ofJson? y = some n ∧ m.same n = true := by
  cases hy : Quantity.ofJson? y with
  | some n => exact ⟨n, rfl, Json.same_eq hx hy ▸ h⟩
  | none => cases x <;> cases y <;> simp_all [Quantity.ofJson?, Json.same]

/-- What is equal to a place with two numbers has two numbers equal to those. -/
theorem Place.numbers_of_same {p q : Place} {x y : Json} {m n : Quantity}
    (hp : p.values = [x, y]) (hm : Quantity.ofJson? x = some m) (hn : Quantity.ofJson? y = some n)
    (h : p.same q = true) : ∃ x' y' m' n', q.values = [x', y'] ∧ Quantity.ofJson? x' = some m' ∧
      Quantity.ofJson? y' = some n' ∧ m.same m' = true ∧ n.same n' = true := by
  unfold Place.same at h
  split at h
  · next c d hpc hqc =>
    obtain ⟨a, b, k, l, hv, hk, hl, hkx, hly⟩ := numbers_of_cell? hpc
    obtain ⟨a', b', k', l', hv', hk', hl', hkx', hly'⟩ := numbers_of_cell? hqc
    obtain rfl := eq_of_beq h
    rw [hp, List.cons.injEq, List.cons.injEq] at hv
    obtain ⟨rfl, rfl, -⟩ := hv
    cases hm.symm.trans hk
    cases hn.symm.trans hl
    exact ⟨a', b', k', l', hv', hk', hl', Quantity.same_of_integral? hkx hkx',
      Quantity.same_of_integral? hly hly'⟩
  · rw [hp] at h
    match hq : q.values, h with
    | [x', y'], h =>
      simp only [Json.sameAll, Bool.and_true, Bool.and_eq_true] at h
      obtain ⟨m', hm', hsame⟩ := Json.number_of_same hm h.1
      obtain ⟨n', hn', hsame'⟩ := Json.number_of_same hn h.2
      exact ⟨x', y', m', n', rfl, hm', hn', hsame, hsame'⟩
    | [], h => cases h
    | [_], h => simp [Json.sameAll] at h
    | _ :: _ :: _ :: _, h => simp [Json.sameAll] at h
  · cases h

namespace Grid

theorem contains_of_values {g : Grid} {p : Place} {x y : Json} (h : p.values = [x, y]) :
    g.contains p = do if ← within g.width x then within g.height y else return false := by
  match p, h with
  | .cell c, h =>
    cases h
    show Except.ok (g.inBounds c) = _
    simp only [within, Json.toQuantity, Quantity.ofJson?, inBounds, bind, Except.bind, pure,
      Except.pure, Quantity.le_whole, Quantity.lt_whole]
    split
    · next hx => simp only [Int.ofNat_eq_natCast] at hx ⊢; rw [hx, Bool.true_and]
    · next hx =>
      simp only [Int.ofNat_eq_natCast, Bool.not_eq_true] at hx ⊢
      rw [hx, Bool.false_and, Bool.false_and]
  | .row _, h =>
    cases h
    rfl

theorem number_of_within {size : Nat} {value : Json} (h : within size value = .ok true) :
    ∃ q, Quantity.ofJson? value = some q := by
  unfold within Json.toQuantity at h
  cases hq : Quantity.ofJson? value with
  | none => simp [hq, bind, Except.bind] at h
  | some q => exact ⟨q, rfl⟩

/-- A place on a grid has two numbers. -/
theorem numbers_of_contains {g : Grid} {p : Place} (h : g.contains p = .ok true) :
    ∃ x y m n, p.values = [x, y] ∧ Quantity.ofJson? x = some m ∧ Quantity.ofJson? y = some n := by
  match p, h with
  | .cell c, _ => exact ⟨_, _, _, _, rfl, rfl, rfl⟩
  | .row [x, y], h =>
    obtain ⟨hx, hy⟩ := within_of_contains h
    obtain ⟨m, hm⟩ := number_of_within hx
    obtain ⟨n, hn⟩ := number_of_within hy
    exact ⟨x, y, m, n, rfl, hm, hn⟩

/-- Equal places on grids are equal to the same places. -/
theorem same_congr {g g' : Grid} {p q : Place} (hp : g.contains p = .ok true)
    (hq : g'.contains q = .ok true) (h : p.same q) (e : Place) : e.same p = e.same q := by
  obtain ⟨x, y, m, n, hpv, hm, hn⟩ := numbers_of_contains hp
  obtain ⟨x', y', m', n', hqv, hm', hn'⟩ := numbers_of_contains hq
  unfold Place.same at h ⊢
  cases hpc : p.cell? with
  | some c =>
    cases hqc : q.cell? with
    | some c' =>
      simp only [hpc, hqc, beq_iff_eq] at h
      subst h
      cases e.cell? <;> rfl
    | none => simp [hpc, hqc] at h
  | none =>
    cases hqc : q.cell? with
    | some c' => simp [hpc, hqc] at h
    | none =>
      simp only [hpc, hqc, hpv, hqv, Json.sameAll, Bool.and_true, Bool.and_eq_true] at h
      cases e.cell? with
      | some c => rfl
      | none =>
        rw [Json.same_eq hm hm', Json.same_eq hn hn'] at h
        rw [hpv, hqv]
        rcases e.values with _ | ⟨a, _ | ⟨b, _ | ⟨_, _⟩⟩⟩
        · rfl
        · simp [Json.sameAll]
        · simp [Json.sameAll, Json.same_congr hm hm' h.1, Json.same_congr hn hn' h.2]
        · simp [Json.sameAll]

theorem within_of_same {size : Nat} {x y : Json} {m n : Quantity}
    (hx : Quantity.ofJson? x = some m) (hy : Quantity.ofJson? y = some n) (h : m.same n = true)
    (hwithin : within size x = .ok true) : within size y = .ok true := by
  obtain ⟨line, hm, hn⟩ := Quantity.same_iff.mp h
  simp only [within, Json.toQuantity, hx, hy] at hwithin ⊢
  have hplace : m.place = n.place := hm.trans hn.symm
  have hlt (k : Quantity) : n.lt k = m.lt k := by
    simp only [Quantity.lt, Quantity.compare?_eq, hplace]
  have hle (k : Quantity) : k.le n = k.le m := by
    simp only [Quantity.le, Quantity.lt, Quantity.compare?_eq, hplace]
  show Except.ok ((Quantity.whole 0).le n && n.lt _) = _
  rw [hlt, hle]
  exact hwithin

/-- What is equal to a place on the grid lies on the grid. -/
theorem contains_of_same {g : Grid} {p q : Place} (hp : g.contains p = .ok true)
    (h : p.same q = true) : g.contains q = .ok true := by
  obtain ⟨x, y, m, n, hpv, hm, hn⟩ := numbers_of_contains hp
  obtain ⟨x', y', m', n', hqv, hm', hn', hsame, hsame'⟩ := Place.numbers_of_same hpv hm hn h
  rw [contains_of_values hpv] at hp
  rw [contains_of_values hqv]
  obtain ⟨inside, hx, hy⟩ := exists_ok_of_bind hp
  cases inside with
  | false => cases hy
  | true => exact bind_eq_ok (within_of_same hm hm' hsame hx) (within_of_same hn hn' hsame' hy)

theorem exitAt_congr {g g' : Grid} {p q : Place} (hp : g.contains p = .ok true)
    (hq : g'.contains q = .ok true) (h : p.same q) (k : Grid) : k.exitAt p = k.exitAt q := by
  unfold exitAt
  congr 1
  funext e
  exact same_congr hp hq h e

theorem takePowerupAt_frame (g : Grid) (p : Place) :
    (g.takePowerupAt p).2.width = g.width ∧ (g.takePowerupAt p).2.height = g.height ∧
      (g.takePowerupAt p).2.exit = g.exit := by
  unfold takePowerupAt
  split <;> exact ⟨rfl, rfl, rfl⟩

end Grid

/-! ## Health -/

theorem Quantity.compare?_of_lt {n : Int} {q : Quantity} (h : (Quantity.whole n).lt q) :
    q.compare? (.whole n) = some .gt := by
  simp only [lt, beq_iff_eq] at h
  unfold compare? at h ⊢
  cases q with
  | real x =>
    have hx : Number.compareWhole n x = some .lt := h
    show (Number.compareWhole n x).map Ordering.swap = some .gt
    rw [hx]
    rfl
  | whole m =>
    have hm : compare n m = .lt := Option.some.inj h
    show some (compare m n) = some .gt
    rw [Int.compare_eq_gt.mpr (Int.compare_eq_lt.mp hm)]
  | flag b =>
    have hm : compare n (if b then 1 else 0) = .lt := Option.some.inj h
    show some (compare (if b then 1 else 0) n) = some .gt
    rw [Int.compare_eq_gt.mpr (Int.compare_eq_lt.mp hm)]

/-- A whole quantity has a text if its digits are not too many. -/
theorem Quantity.hasText_of_toInt? {q : Quantity} {n : Int} (h : q.toInt? = some n) :
    q.hasText = decide (n.natAbs < Json.tooLong) := by
  cases q with
  | real x => cases h
  | whole m =>
    cases h
    rfl
  | flag b =>
    have hsmall : n.natAbs < Json.tooLong := by
      cases b <;> cases h <;> decide +kernel
    exact (decide_eq_true hsmall).symm

/-- What is left above zero of a quantity with a text has a text too. -/
theorem Quantity.hasText_sub {q amount : Quantity} (hq : q.hasText = true)
    (hamount : amount.below 0 = false) (hleft : (Quantity.whole 0).lt (q.sub amount)) :
    (q.sub amount).hasText = true := by
  have hwhole {m n : Int} (hm : q.toInt? = some m) (hn : amount.toInt? = some n) :
      (q.sub amount).hasText = true := by
    have hsub : q.sub amount = .whole (m - n) := by simp [sub, combine, hm, hn]
    rw [hsub, lt_whole, decide_eq_true_eq] at hleft
    have hsmall : m.natAbs < Json.tooLong := by
      simpa [hasText_of_toInt? hm] using hq
    have hpositive : 0 ≤ n := by
      rw [below, lt_of_toInt? hn (n := 0) rfl, decide_eq_false_iff_not] at hamount
      omega
    rw [hsub]
    exact decide_eq_true (by omega)
  rcases q.toInt?_cases with ⟨m, hm⟩ | ⟨x, rfl⟩
  · rcases amount.toInt?_cases with ⟨n, hn⟩ | ⟨y, rfl⟩
    · exact hwhole hm hn
    · cases q <;> rfl
  · rfl

namespace Combatant

/-- Health that is above zero, or is zero itself. -/
def Measured (c : Combatant) : Prop := (Quantity.whole 0).lt c.health ∨ c.health = .whole 0

theorem measured_setHealth (c : Combatant) (health : Quantity) : (c.setHealth health).Measured := by
  unfold Measured setHealth Quantity.max
  dsimp only
  split
  · exact Or.inl ‹_›
  · exact Or.inr rfl

theorem defeated_of_positive {c : Combatant} (h : (Quantity.whole 0).lt c.health) :
    c.defeated = false := by
  have hcompare := Quantity.compare?_of_lt h
  simp [defeated, Quantity.atMost, Quantity.le, Quantity.lt, hcompare]

/-- Whoever is defeated has health zero. -/
theorem Measured.defeated_iff {c : Combatant} (h : c.Measured) :
    c.defeated = true ↔ c.health.same (.whole 0) = true := by
  rcases h with h | h
  · have hcompare := Quantity.compare?_of_lt h
    simp [defeated_of_positive h, Quantity.same, hcompare]
  · simp [defeated, Quantity.atMost, h]

/-- Zero has a text, so health without one is above zero. -/
theorem Measured.defeated_of_hasText {c : Combatant} (h : c.Measured)
    (htext : c.health.hasText = false) : c.defeated = false := by
  rcases h with h | h
  · exact defeated_of_positive h
  · rw [h] at htext
    exact absurd htext (by decide +kernel)

/-- Damage leaves health that has a text, if the health had one before and the most that there can
be has one. -/
theorem hasText_applyDamage {c : Combatant} {amount : Quantity} (hmost : c.maxHealth.hasText = true)
    (hleft : c.health.hasText = true) (hamount : amount.below 0 = false) :
    (c.applyDamage amount).health.hasText = true := by
  show ((Quantity.whole 0).max (c.maxHealth.min (c.health.sub amount))).hasText = true
  have hmin (hpositive : (Quantity.whole 0).lt (c.maxHealth.min (c.health.sub amount))) :
      (c.maxHealth.min (c.health.sub amount)).hasText = true := by
    unfold Quantity.min at hpositive ⊢
    by_cases hless : (c.health.sub amount).lt c.maxHealth = true
    · rw [if_pos hless] at hpositive ⊢
      exact Quantity.hasText_sub hleft hamount hpositive
    · rw [if_neg hless]
      exact hmost
  rw [Quantity.max]
  split
  · exact hmin ‹_›
  · decide +kernel

/-- A move takes no health and changes no sides. -/
theorem tryMove_frame (c : Combatant) (grid : Grid) (dir : MoveDir) :
    (c.tryMove grid dir).value.2.health = c.health ∧
      (c.tryMove grid dir).value.2.player = c.player ∧
      (c.tryMove grid dir).value.2.maxHealth = c.maxHealth := by
  unfold tryMove
  dsimp only
  split
  · exact ⟨rfl, rfl, rfl⟩
  · rename_i step _
    cases step <;> exact ⟨rfl, rfl, rfl⟩

end Combatant

theorem Player.eq_other {p q : Player} (h : q ≠ p) : q = p.other := by
  cases p <;> cases q <;> first | rfl | exact absurd rfl h

namespace Arena

/-- Both combatants stand on the grid, each in the place of its own player. -/
structure Proper (a : Arena) : Prop where
  grounded : a.Grounded
  owner : ∀ p, (a.combatant p).player = p

/-- Nobody has moved, turned or been hurt, and the exit is where it was. -/
structure SameBodies (a a' : Arena) : Prop extends SameFixes a a' where
  exit : a'.grid.exit = a.grid.exit
  damage : a'.damage = a.damage
  health : ∀ p, (a'.combatant p).health = (a.combatant p).health
  maxHealth : ∀ p, (a'.combatant p).maxHealth = (a.combatant p).maxHealth
  owner : ∀ p, (a'.combatant p).player = (a.combatant p).player

theorem SameBodies.refl (a : Arena) : SameBodies a a :=
  ⟨⟨rfl, rfl, fun _ => rfl⟩, rfl, rfl, fun _ => rfl, fun _ => rfl, fun _ => rfl⟩

theorem SameBodies.trans {a a' a'' : Arena} (h : SameBodies a a') (h' : SameBodies a' a'') :
    SameBodies a a'' :=
  ⟨h.toSameFixes.trans h'.toSameFixes, h'.exit.trans h.exit, h'.damage.trans h.damage,
    fun p => (h'.health p).trans (h.health p), fun p => (h'.maxHealth p).trans (h.maxHealth p),
    fun p => (h'.owner p).trans (h.owner p)⟩

theorem Proper.sameBodies {a a' : Arena} (h : Proper a) (hs : SameBodies a a') : Proper a' :=
  ⟨h.grounded.sameFixes hs.toSameFixes, fun p => (hs.owner p).trans (h.owner p)⟩

theorem SameBodies.defeated {a a' : Arena} (h : SameBodies a a') (p : Player) :
    (a'.combatant p).defeated = (a.combatant p).defeated :=
  congrArg (Quantity.atMost 0) (h.health p)

theorem SameBodies.atExit {a a' : Arena} (h : SameBodies a a') (p : Player) :
    a'.atExit p = a.atExit p := by
  have hposition : a'.position p = a.position p := congrArg Fix.position (h.fix p)
  unfold Arena.atExit Grid.exitAt
  rw [hposition, h.exit]

/-- What a new combatant has in common with the old one, everybody has in common with before. -/
theorem setCombatant_congr {β : Type} {a : Arena} {p : Player} {c : Combatant} (f : Combatant → β)
    (h : f c = f (a.combatant p)) (q : Player) :
    f ((a.setCombatant p c).combatant q) = f (a.combatant q) := by
  rw [combatant_setCombatant]
  split
  · next heq => rw [h, heq]
  · rfl

theorem sameBodies_setCombatant {a : Arena} {p : Player} {c : Combatant}
    (hf : c.fix = (a.combatant p).fix) (hh : c.health = (a.combatant p).health)
    (hm : c.maxHealth = (a.combatant p).maxHealth) (ho : c.player = (a.combatant p).player) :
    SameBodies a (a.setCombatant p c) :=
  ⟨sameFixes_setCombatant hf, rfl, rfl, setCombatant_congr Combatant.health hh,
    setCombatant_congr Combatant.maxHealth hm, setCombatant_congr Combatant.player ho⟩

theorem sameBodies_radarFor (a : Arena) (p : Player) : SameBodies a (a.radarFor p).value.2 := by
  have hquery : ∀ known opponent, let c := (Radar.query known (a.combatant p) opponent).value.2
      c.fix = (a.combatant p).fix ∧ c.health = (a.combatant p).health ∧
        c.maxHealth = (a.combatant p).maxHealth ∧ c.player = (a.combatant p).player := by
    intro known opponent
    unfold Radar.query Radar.live Combatant.consumeTrueRadar
    split <;> exact ⟨rfl, rfl, rfl, rfl⟩
  obtain ⟨hf, hh, hm, ho⟩ := hquery (a.fixes.get p.other) (a.opponent p)
  exact sameBodies_setCombatant hf hh hm ho

theorem sameBodies_recordTurnEnd (a : Arena) (p : Player) :
    SameBodies a (a.recordTurnEnd p).value :=
  ⟨sameFixes_recordTurnEnd a p, rfl, rfl, fun _ => rfl, fun _ => rfl, fun _ => rfl⟩

theorem sameBodies_promote (a : Arena) (p : Player) : SameBodies a (a.promote p).value :=
  sameBodies_setCombatant rfl rfl rfl rfl

theorem sameBodies_clearActive (a : Arena) (p : Player) :
    SameBodies a (a.clearActive p).value := by
  refine sameBodies_setCombatant ?_ ?_ ?_ ?_ <;> unfold Combatant.clearActive <;> split <;> rfl

theorem sameBodies_pickUp (a : Arena) (p : Player) : SameBodies a (a.pickUp p).value.2 := by
  have hframe := a.grid.takePowerupAt_frame (a.position p)
  unfold pickUp
  split
  · exact .refl a
  · rename_i powerup grid hg
    rw [hg] at hframe
    have hgrid : SameBodies a { a with grid := grid } :=
      ⟨⟨hframe.1, hframe.2.1, fun _ => rfl⟩, hframe.2.2, rfl, fun _ => rfl, fun _ => rfl,
        fun _ => rfl⟩
    exact hgrid.trans (sameBodies_setCombatant rfl rfl rfl rfl)

theorem tryMove_eq (a : Arena) (p : Player) (dir : MoveDir) :
    (a.tryMove p dir).value.2 =
      a.setCombatant p ((a.combatant p).tryMove a.grid dir).value.2 := by
  unfold tryMove
  simp only [Logged.value_bind]
  split <;> rfl

/-- A move changes at most where its player stands, and that player's pickups. -/
theorem tryMove_frame (a : Arena) (p : Player) (dir : MoveDir) :
    let a' := (a.tryMove p dir).value.2
    a'.grid = a.grid ∧ a'.fixes = a.fixes ∧ a'.combatant p.other = a.combatant p.other ∧
      (∀ q, (a'.combatant q).health = (a.combatant q).health) ∧
      ∀ q, (a'.combatant q).player = (a.combatant q).player := by
  intro a'
  obtain ⟨hh, ho, -⟩ := (a.combatant p).tryMove_frame a.grid dir
  have heq : a' = a.setCombatant p ((a.combatant p).tryMove a.grid dir).value.2 :=
    a.tryMove_eq p dir
  rw [heq]
  refine ⟨rfl, rfl, ?_, setCombatant_congr Combatant.health hh,
    setCombatant_congr Combatant.player ho⟩
  rw [combatant_setCombatant, if_neg p.other_ne]

theorem maxHealth_tryMove (a : Arena) (p : Player) (dir : MoveDir) (q : Player) :
    ((a.tryMove p dir).value.2.combatant q).maxHealth = (a.combatant q).maxHealth := by
  rw [tryMove_eq]
  exact setCombatant_congr Combatant.maxHealth ((a.combatant p).tryMove_frame a.grid dir).2.2 q

theorem proper_tryMove {a : Arena} (h : Proper a) (p : Player) (dir : MoveDir) :
    Proper (a.tryMove p dir).value.2 :=
  ⟨grounded_tryMove h.grounded p dir,
    fun q => ((a.tryMove_frame p dir).2.2.2.2 q).trans (h.owner q)⟩

/-- A shot changes at most the health of the other player. -/
theorem shootAt_frame (a : Arena) (p : Player) (cell : Place) :
    let a' := (a.shootAt p cell).value.2
    a'.grid = a.grid ∧ a'.fixes = a.fixes ∧ a'.combatant p = a.combatant p ∧
      ∀ q, (a'.combatant q).player = (a.combatant q).player := by
  intro a'
  obtain ⟨result, target, heq, hshot⟩ := a.shootAt_eq p cell
  have htarget : target = { a.opponent p with health := target.health } := hshot.target_eq
  have ha' : a' = a.setCombatant p.other target := congrArg Prod.snd heq
  rw [ha']
  have hplayer : target.player = (a.combatant p.other).player :=
    (congrArg Combatant.player htarget).trans rfl
  refine ⟨rfl, rfl, ?_, setCombatant_congr Combatant.player hplayer⟩
  rw [combatant_setCombatant, if_neg p.other_ne.symm]

theorem maxHealth_shootAt (a : Arena) (p : Player) (cell : Place) (q : Player) :
    ((a.shootAt p cell).value.2.combatant q).maxHealth = (a.combatant q).maxHealth := by
  obtain ⟨result, target, heq, hshot⟩ := a.shootAt_eq p cell
  have hmax : target.maxHealth = (a.combatant p.other).maxHealth :=
    (congrArg Combatant.maxHealth hshot.target_eq).trans rfl
  rw [heq]
  exact setCombatant_congr Combatant.maxHealth hmax q

theorem proper_shootAt {a : Arena} (h : Proper a) (p : Player) (cell : Place) :
    Proper (a.shootAt p cell).value.2 :=
  ⟨h.grounded.sameFixes (sameFixes_shootAt a p cell),
    fun q => ((a.shootAt_frame p cell).2.2.2 q).trans (h.owner q)⟩

theorem measured_shootAt {a : Arena} (h : ∀ q, (a.combatant q).Measured) (p : Player)
    (cell : Place) (q : Player) : ((a.shootAt p cell).value.2.combatant q).Measured := by
  have hafter : (Shot.targetAfter a.damage (a.opponent p) cell).Measured := by
    unfold Shot.targetAfter
    split
    · exact Combatant.measured_setHealth _ _
    · exact h p.other
  obtain ⟨result, target, heq, hshot⟩ := a.shootAt_eq p cell
  have htarget : target.Measured := by
    cases hshot with
    | stopped => exact h p.other
    | untold => exact hafter
    | told => exact hafter
  rw [heq, combatant_setCombatant]
  split
  · exact htarget
  · exact h q

/-- Whoever is hit stands on the grid, so that the aimed place can be named. -/
theorem legible_of_hits {a : Arena} (h : Grounded a) {p : Player} {cell : Place}
    (hhits : Shot.hits (a.opponent p) cell = true) : a.legible cell = true := by
  rw [Shot.hits, Bool.and_eq_true] at hhits
  rw [legible, Grid.contains_of_same (h p.other) hhits.1]
  exact Bool.or_true _

/-- A shot that fails leaves everybody alive who was so before. -/
theorem defeated_of_shootAt_error {a : Arena} (h : Grounded a) {p : Player} {cell : Place}
    {fault : Fault} (hfault : (a.shootAt p cell).value.1 = .error fault)
    (halive : (a.opponent p).defeated = false) :
    ((a.shootAt p cell).value.2.opponent p).defeated = false := by
  obtain ⟨result, target, heq, hshot⟩ := a.shootAt_eq p cell
  rw [heq] at hfault ⊢
  have hget : (a.setCombatant p.other target).opponent p = target := a.combatants.get_set_self _ _
  rw [hget]
  cases hshot with
  | stopped => exact halive
  | told => cases hfault
  | untold _ htext =>
    unfold Shot.hasText at htext
    by_cases hhits : Shot.hits (a.opponent p) cell = true
    · rw [legible_of_hits h hhits, if_pos hhits, Bool.true_and] at htext
      have hafter : (Shot.targetAfter a.damage (a.opponent p) cell).Measured := by
        rw [Shot.targetAfter, if_pos hhits]
        exact Combatant.measured_setHealth _ _
      exact hafter.defeated_of_hasText htext
    · rw [Shot.targetAfter, if_neg hhits]
      exact halive

/-- Whether the health of a player can be told, now and after every hit. -/
structure Tellable (a : Arena) (p : Player) : Prop where
  most : (a.combatant p).maxHealth.hasText = true
  left : (a.combatant p).health.hasText = true
  damage : a.damage.below 0 = false

theorem Tellable.sameBodies {a a' : Arena} {p : Player} (h : Tellable a p) (hs : SameBodies a a') :
    Tellable a' p :=
  ⟨(congrArg Quantity.hasText (hs.maxHealth p)).trans h.most,
    (congrArg Quantity.hasText (hs.health p)).trans h.left,
    (congrArg (Quantity.below 0) hs.damage).trans h.damage⟩

theorem Tellable.tryMove {a : Arena} {p : Player} (h : Tellable a p) (q : Player) (dir : MoveDir) :
    Tellable (a.tryMove q dir).value.2 p := by
  obtain ⟨-, -, -, hhealth, -⟩ := a.tryMove_frame q dir
  have hdamage : (a.tryMove q dir).value.2.damage = a.damage := by
    rw [tryMove_eq]
    rfl
  exact ⟨(congrArg Quantity.hasText (a.maxHealth_tryMove q dir p)).trans h.most,
    (congrArg Quantity.hasText (hhealth p)).trans h.left,
    (congrArg (Quantity.below 0) hdamage).trans h.damage⟩

theorem Tellable.targetAfter {a : Arena} {p : Player} (h : Tellable a p.other) (cell : Place) :
    (Shot.targetAfter a.damage (a.opponent p) cell).health.hasText = true := by
  unfold Shot.targetAfter
  split
  · exact Combatant.hasText_applyDamage h.most h.left h.damage
  · exact h.left

theorem Tellable.shootAt {a : Arena} {q : Player} (h : Tellable a q) (p : Player) (cell : Place) :
    Tellable (a.shootAt p cell).value.2 q := by
  have hmost := (congrArg Quantity.hasText (a.maxHealth_shootAt p cell q)).trans h.most
  refine ⟨hmost, ?_, h.damage⟩
  obtain ⟨result, target, heq, hshot⟩ := a.shootAt_eq p cell
  rw [heq, combatant_setCombatant]
  split
  · next hq =>
    subst hq
    cases hshot with
    | stopped => exact h.left
    | untold => exact h.targetAfter cell
    | told => exact h.targetAfter cell
  · exact h.left

/-- A shot at somebody whose health can be told leaves everything as it was if it fails. -/
theorem shootAt_error_eq {a : Arena} (h : Grounded a) {p : Player} {cell : Place}
    (htold : Tellable a p.other) {fault : Fault}
    (hfault : (a.shootAt p cell).value.1 = .error fault) : (a.shootAt p cell).value.2 = a := by
  obtain ⟨result, target, heq, hshot⟩ := a.shootAt_eq p cell
  rw [heq] at hfault ⊢
  have hsame : a.setCombatant p.other (a.opponent p) = a :=
    congrArg (fun c => { a with combatants := c }) (a.combatants.set_get p.other)
  cases hshot with
  | stopped => exact hsame
  | told => cases hfault
  | untold _ htext =>
    by_cases hhits : Shot.hits (a.opponent p) cell = true
    · rw [Shot.hasText, legible_of_hits h hhits, if_pos hhits, htold.targetAfter cell] at htext
      cases htext
    · rw [Shot.targetAfter, if_neg hhits]
      exact hsame

/-- Every arena that can be made is proper. -/
theorem proper_make {grid : Grid} {a b : Combatant} {damage : Quantity} {arena : Arena}
    (h : make grid a b damage = .ok arena) : Proper arena := by
  refine ⟨grounded_make h, ?_⟩
  obtain ⟨rfl, ha, hb, -⟩ := make_eq h
  intro p
  cases p
  · exact ha
  · exact hb

end Arena

end MazeDuel
