import MazeDuel.Proofs.World.Bodies
/-!
Wounds: the health of two combatants while they shoot at each other, at any cells, and move about as
they like. While the numbers are whole and every shot gives a result, what is left of it depends on
nothing but the number of hits.
-/

namespace MazeDuel

/-- What is left of some health after hits that take the same amount each. -/
def healthLeft (start : Int) (amount hits : Nat) : Int := max 0 (start - amount * hits)

theorem healthLeft_zero {start : Int} (h : 0 ≤ start) (amount : Nat) :
    healthLeft start amount 0 = start := by
  rw [healthLeft, Nat.cast_zero, mul_zero, sub_zero, max_eq_right h]

theorem healthLeft_nonneg (start : Int) (amount hits : Nat) : 0 ≤ healthLeft start amount hits :=
  le_max_left _ _

theorem healthLeft_le {start : Int} (h : 0 ≤ start) (amount hits : Nat) :
    healthLeft start amount hits ≤ start := by
  have htaken : (0 : Int) ≤ amount * hits := by positivity
  exact max_le h (by omega)

/-- One more hit, on health that is kept between zero and its highest value. -/
theorem healthLeft_succ {start top : Int} (hstart : 0 ≤ start) (htop : start ≤ top)
    (amount hits : Nat) :
    max 0 (min top (healthLeft start amount hits - amount)) =
      healthLeft start amount (hits + 1) := by
  have htaken : (0 : Int) ≤ amount * hits := by positivity
  have hnext : (amount : Int) * (hits + 1 : Nat) = amount * hits + amount := by
    rw [Nat.cast_succ, mul_add, mul_one]
  simp only [healthLeft, hnext]
  omega

namespace Combatant

variable {c : Combatant} {top : Int}

/-- A new combatant is as it was given, with health between zero and its highest value. -/
theorem check_eq {given : Combatant} {health : Int} (h : given.check = .ok c)
    (htop : given.maxHealth.toInt? = some top) (hhealth : given.health.toInt? = some health) :
    0 < top ∧ c = { given with health := c.health } ∧
      c.health.toInt? = some (max 0 (min health top)) := by
  unfold check at h
  split at h
  · cases h
  · next hpositive =>
    cases h
    rw [Quantity.atMost_iff htop, not_le] at hpositive
    exact ⟨hpositive, rfl, Quantity.toInt?_max rfl (Quantity.toInt?_min hhealth htop)⟩

/-- A combatant with a highest health, who began with some health and was hit some times. -/
structure Hurt (c : Combatant) (maxHealth : Quantity) (start : Int) (amount hits : Nat) : Prop where
  maxHealth : c.maxHealth = maxHealth
  health : c.health.toInt? = some (healthLeft start amount hits)

/-- Who stands on the cell is hit, unless there is no health left. -/
theorem hits_iff {health : Int} (h : c.health.toInt? = some health) (cell : Place) :
    Shot.hits c cell = true ↔ c.pos.same cell = true ∧ 0 < health := by
  rw [Shot.hits, Bool.and_eq_true, Bool.not_eq_true', defeated, Bool.eq_false_iff, ne_eq,
    Quantity.atMost_iff h, not_le]

variable {maxHealth damage : Quantity} {start : Int} {amount hits : Nat}

theorem Hurt.targetAfter (h : c.Hurt maxHealth start amount hits)
    (hdamage : damage.toInt? = some (amount : Int)) (hmax : maxHealth.toInt? = some top)
    (hstart : 0 ≤ start) (htop : start ≤ top) (cell : Place) :
    (Shot.targetAfter damage c cell).Hurt maxHealth start amount
      (hits + if Shot.hits c cell then 1 else 0) := by
  unfold Shot.targetAfter
  split
  · have hsub := Quantity.toInt?_sub h.health hdamage
    have hmin := Quantity.toInt?_min (h.maxHealth ▸ hmax) hsub
    have hleft := Quantity.toInt?_max (a := .whole 0) rfl hmin
    rw [healthLeft_succ hstart htop] at hleft
    exact ⟨h.maxHealth, hleft⟩
  · exact h

end Combatant

/-- What can befall two combatants: a shot by one of them, a step of one of them on some grid, and a
place given to one of them. -/
inductive Incident where
  | shot (shooter : Player) (cell : Place)
  | step (who : Player) (grid : Grid) (dir : MoveDir)
  | put (who : Player) (place : Place)

/-- Two combatants, and the results of the shots so far, each with who was shot at. -/
structure Exchange where
  pair : Duo Combatant
  results : List (Player × ShotResult) := []

namespace Exchange

def shot (e : Exchange) (damage : Quantity) (shooter : Player) (cell : Place) :
    Except Fault ShotResult × Combatant :=
  (Shot.resolve Place.hasText damage (e.pair.get shooter) (e.pair.get shooter.other) cell).value

/-- What is left after an incident, if it was not a shot that failed. -/
def after (damage : Quantity) (e : Exchange) : Incident → Except Fault Exchange
  | .shot shooter cell =>
    let (result, target) := e.shot damage shooter cell
    result.map fun told =>
      ⟨e.pair.set shooter.other target, e.results ++ [(shooter.other, told)]⟩
  | .step who grid dir =>
    .ok { e with pair := e.pair.modify who fun c => (c.tryMove grid dir).value.2 }
  | .put who place => .ok { e with pair := e.pair.modify who fun c => { c with pos := place } }

def hitsOn (e : Exchange) (p : Player) : Nat :=
  e.results.countP fun entry => decide (entry.1 = p) && entry.2.hit

variable {damage : Quantity} {maxHealth : Player → Quantity} {start top : Player → Int}
  {amount : Nat} {e next : Exchange}

/-- A shot gives a result if its damage can be taken and its text can be written. -/
theorem after_shot_iff {shooter : Player} {cell : Place} :
    e.after damage (.shot shooter cell) = .ok next ↔
      let target := e.pair.get shooter.other
      (Shot.hits target cell = true → target.health.combines damage = true) ∧
        Shot.hasText Place.hasText damage target cell = true ∧
        next = ⟨e.pair.set shooter.other (Shot.targetAfter damage target cell),
          e.results ++ [(shooter.other, Shot.result damage (e.pair.get shooter) target cell)]⟩ := by
  let target := e.pair.get shooter.other
  have hshot : Shot.Resolved Place.hasText damage (e.pair.get shooter) target cell
      (e.shot damage shooter cell) := Shot.resolved _ _ _ _ _
  have heq : e.after damage (.shot shooter cell) = (e.shot damage shooter cell).1.map fun told =>
      ⟨e.pair.set shooter.other (e.shot damage shooter cell).2,
        e.results ++ [(shooter.other, told)]⟩ := rfl
  rw [heq]
  generalize e.shot damage shooter cell = x at hshot ⊢
  cases hshot with
  | stopped hhits hcombines =>
    exact ⟨fun h => (by cases h), fun h => absurd (h.1 hhits) (by rw [hcombines]; decide)⟩
  | untold _ htext => exact ⟨fun h => (by cases h), fun h => absurd h.2.1 (by rw [htext]; decide)⟩
  | told hcombines htext =>
    exact ⟨fun h => ⟨hcombines, htext, (Except.ok.inj h).symm⟩,
      fun h => congrArg Except.ok h.2.2.symm⟩

theorem hitsOn_append (e : Exchange) (pair : Duo Combatant) (target p : Player)
    (told : ShotResult) : hitsOn ⟨pair, e.results ++ [(target, told)]⟩ p =
      e.hitsOn p + if p = target ∧ told.hit = true then 1 else 0 := by
  simp only [hitsOn, List.countP_append, List.countP_singleton, Bool.and_eq_true,
    decide_eq_true_eq, eq_comm (a := p)]

/-- Each combatant is hurt by as many hits as were scored on it. -/
def Accounted (maxHealth : Player → Quantity) (start : Player → Int) (amount : Nat) (e : Exchange) :
    Prop :=
  ∀ p, (e.pair.get p).Hurt (maxHealth p) (start p) amount (e.hitsOn p)

/-- New combatants have no more than their highest health, and no hits on them. -/
theorem accounted_new {given built : Duo Combatant} {health : Player → Int}
    (hbuilt : ∀ p, (given.get p).check = .ok (built.get p))
    (htop : ∀ p, (given.get p).maxHealth.toInt? = some (top p))
    (hhealth : ∀ p, (given.get p).health.toInt? = some (health p)) (amount : Nat) :
    (∀ p, max 0 (min (health p) (top p)) ≤ top p) ∧
      Accounted (fun p => (given.get p).maxHealth) (fun p => max 0 (min (health p) (top p))) amount
        ⟨built, []⟩ := by
  refine ⟨fun p => ?_, fun p => ?_⟩ <;>
    obtain ⟨hpositive, heq, hclamped⟩ := Combatant.check_eq (hbuilt p) (htop p) (hhealth p)
  · exact max_le hpositive.le (min_le_right _ _)
  · have hmax : (built.get p).maxHealth = (given.get p).maxHealth := by rw [heq]
    have hnone := healthLeft_zero (le_max_left 0 (min (health p) (top p))) amount
    exact ⟨hmax, hclamped.trans (congrArg some hnone.symm)⟩

/-- What leaves the health of a combatant alone leaves the accounts right. -/
theorem Accounted.modify (h : e.Accounted maxHealth start amount) (who : Player)
    {f : Combatant → Combatant}
    (hf : ∀ c, (f c).health = c.health ∧ (f c).maxHealth = c.maxHealth) :
    Accounted maxHealth start amount { e with pair := e.pair.modify who f } := by
  intro p
  obtain ⟨hhealth, hmax⟩ := hf (e.pair.get p)
  have hget : (e.pair.modify who f).get p =
      if p = who then f (e.pair.get who) else e.pair.get p := e.pair.get_set who p _
  rw [hget]
  split
  · next hp =>
    subst hp
    exact ⟨hmax.trans (h p).maxHealth, (congrArg Quantity.toInt? hhealth).trans (h p).health⟩
  · exact h p

/-- Whatever befalls one of them, the accounts stay right. -/
theorem Accounted.after (h : e.Accounted maxHealth start amount)
    (hdamage : damage.toInt? = some (amount : Int))
    (hmax : ∀ p, (maxHealth p).toInt? = some (top p)) (hstart : ∀ p, 0 ≤ start p)
    (htop : ∀ p, start p ≤ top p) {incident : Incident}
    (hnext : e.after damage incident = .ok next) :
    next.Accounted maxHealth start amount := by
  cases incident with
  | shot shooter cell =>
    obtain ⟨-, -, rfl⟩ := after_shot_iff.mp hnext
    intro p
    have htold : (Shot.result damage (e.pair.get shooter) (e.pair.get shooter.other) cell).hit =
      Shot.hits (e.pair.get shooter.other) cell := rfl
    rw [hitsOn_append, htold, Duo.get_set]
    by_cases hp : p = shooter.other
    · subst hp
      simpa using (h shooter.other).targetAfter hdamage (hmax _) (hstart _) (htop _) cell
    · simpa [hp] using h p
  | step who grid dir =>
    cases hnext
    refine h.modify who fun c => ?_
    obtain ⟨hhealth, -, hmax⟩ := c.tryMove_frame grid dir
    exact ⟨hhealth, hmax⟩
  | put who place =>
    cases hnext
    exact h.modify who fun _ => ⟨rfl, rfl⟩

theorem Accounted.afterAll (h : e.Accounted maxHealth start amount)
    (hdamage : damage.toInt? = some (amount : Int))
    (hmax : ∀ p, (maxHealth p).toInt? = some (top p)) (hstart : ∀ p, 0 ≤ start p)
    (htop : ∀ p, start p ≤ top p) {incidents : List Incident}
    (hnow : incidents.foldlM (Exchange.after damage) e = .ok next) :
    next.Accounted maxHealth start amount := by
  induction incidents generalizing e with
  | nil =>
    cases hnow
    exact h
  | cons incident incidents ih =>
    obtain ⟨between, hfirst, hrest⟩ := exists_ok_of_bind hnow
    exact ih (h.after hdamage hmax hstart htop hfirst) hrest

/-- A shot whose numbers are whole gives a result if the numbers in its text are not too long: those
of the aimed place, and the health that is left by a hit or those of the place that was missed. -/
theorem hasText_iff {target : Combatant} {left top : Int} (hleft : target.health.toInt? = some left)
    (hmax : target.maxHealth.toInt? = some top) (hle : left ≤ top)
    (hdamage : damage.toInt? = some (amount : Int)) (cell : Place) :
    Shot.hasText Place.hasText damage target cell = true ↔ cell.hasText = true ∧
      if Shot.hits target cell then left - amount < Json.tooLong
      else target.pos.hasText = true := by
  rw [Shot.hasText, Bool.and_eq_true]
  refine and_congr_right fun _ => ?_
  split
  · next hhits =>
    have hsub := Quantity.toInt?_sub hleft hdamage
    have hafter : (Shot.targetAfter damage target cell).health.toInt? =
        some (max 0 (min top (left - amount))) := by
      rw [Shot.targetAfter, if_pos hhits]
      exact Quantity.toInt?_max rfl (Quantity.toInt?_min hmax hsub)
    have hlong : (0 : Int) < (Json.tooLong : Int) := by decide +kernel
    rw [Quantity.hasText_of_toInt? hafter, decide_eq_true_eq]
    omega
  · exact Iff.rfl

/-- Two new combatants with whole numbers for their health shoot at each other and move about,
whatever they do in whatever order, and every shot gives a result. What is left of the health of
each is what it began with, less the damage for each shot that was a hit on it, and never below
zero. The next shot at it gives a result too, unless its text would need a number too long. That
shot is a hit just if its target stands on the aimed cell with some health left; what is told of it
is how things are after the shot; and nothing but the health of the one who is shot at has changed.
-/
theorem health_accounted {damage : Quantity} {amount : Nat}
    (hdamage : damage.toInt? = some (amount : Int)) {given built : Duo Combatant}
    (hbuilt : ∀ p, (given.get p).check = .ok (built.get p)) {top health : Player → Int}
    (htop : ∀ p, (given.get p).maxHealth.toInt? = some (top p))
    (hhealth : ∀ p, (given.get p).health.toInt? = some (health p))
    {incidents : List Incident} {now : Exchange}
    (hnow : incidents.foldlM (after damage) ⟨built, []⟩ = .ok now) (p : Player) :
    let target := now.pair.get p
    let left := healthLeft (max 0 (min (health p) (top p))) amount (now.hitsOn p)
    target.health.toInt? = some left ∧ 0 ≤ left ∧ left ≤ top p ∧
      target.maxHealth = (given.get p).maxHealth ∧
      ∀ cell,
        let hit := target.pos.same cell = true ∧ 0 < left
        ((∃ next, now.after damage (.shot p.other cell) = .ok next) ↔ cell.hasText = true ∧
          (hit → left - amount < Json.tooLong) ∧ (¬ hit → target.pos.hasText = true)) ∧
        ∀ next, now.after damage (.shot p.other cell) = .ok next →
          ∃ told, next.results = now.results ++ [(p, told)] ∧ told.target = target.player ∧
            (told.hit = true ↔ hit) ∧ told.targetHealth = (next.pair.get p).health ∧
            (told.targetDefeated = true ↔ (next.pair.get p).health.toInt? = some 0) ∧
            next.pair = now.pair.set p { target with health := told.targetHealth } := by
  intro target left
  have hstart (q : Player) : 0 ≤ max 0 (min (health q) (top q)) := le_max_left _ _
  obtain ⟨hle, hfirst⟩ := accounted_new hbuilt htop hhealth amount
  have haccounted : now.Accounted _ _ amount := hfirst.afterAll hdamage htop hstart hle hnow
  have hleft : target.health.toInt? = some left := (haccounted p).health
  have hmax : target.maxHealth = (given.get p).maxHealth := (haccounted p).maxHealth
  have hlow : left ≤ top p := (healthLeft_le (hstart p) _ _).trans (hle p)
  refine ⟨hleft, healthLeft_nonneg _ _ _, hlow, hmax, fun cell => ?_⟩
  intro hit
  have hhits : Shot.hits target cell = true ↔ hit := Combatant.hits_iff hleft cell
  have hwho : now.pair.get p.other.other = target := by rw [Player.other_other]
  refine ⟨?_, fun next hnext => ?_⟩
  · have htext := hasText_iff hleft (hmax ▸ htop p) hlow hdamage cell
    simp only [after_shot_iff, hwho]
    have hcombines := Quantity.combines_of_toInt? hleft hdamage
    by_cases hh : hit
    · simp only [hhits.mpr hh, if_true] at htext
      simp [hcombines, htext, hh]
    · simp only [mt hhits.mp hh] at htext
      simp [hcombines, htext, hh]
  · have hnonneg := healthLeft_nonneg (max 0 (min (health p) (top p))) amount (next.hitsOn p)
    have hthen := (haccounted.after hdamage htop hstart hle hnext p).health
    obtain ⟨-, -, heq⟩ := after_shot_iff.mp hnext
    rw [hwho, Player.other_other] at heq
    have hpair : next.pair.get p = Shot.targetAfter damage target cell := by
      rw [heq, Duo.get_set_self]
    refine ⟨_, congrArg results heq, rfl, hhits, congrArg Combatant.health hpair.symm, ?_, ?_⟩
    · show (Shot.targetAfter damage target cell).defeated = true ↔ _
      rw [← hpair, Combatant.defeated, Quantity.atMost_iff hthen, hthen, Option.some.injEq]
      exact ⟨fun h => le_antisymm h hnonneg, le_of_eq⟩
    · rw [heq]
      exact congrArg (now.pair.set p) (Shot.targetAfter_eq damage target cell)

/-- A blow that takes more than is left, after a step out of the line of fire, and a last shot at
who is down. -/
theorem health_accounted_overkill :
    let given : Duo Combatant :=
      ⟨{ player := .a, pos := .cell ⟨0, 0⟩, maxHealth := .whole 40, health := .whole 50 },
        { player := .b, pos := .cell ⟨1, 1⟩, maxHealth := .whole 40, health := .whole (-3) }⟩
    let built : Duo Combatant := given.map fun c => { c with
      health := .max (.whole 0) (.min c.health c.maxHealth) }
    (∀ p, (given.get p).check = .ok (built.get p)) ∧ ∃ now next told,
      [.shot .b (.cell ⟨0, 0⟩), .step .a (.build 2 2 false) .right, .shot .b (.cell ⟨0, 0⟩),
        .shot .b (.cell ⟨1, 0⟩), .shot .a (.cell ⟨1, 1⟩)].foldlM (after (.whole 30)) ⟨built, []⟩ =
          .ok now ∧
      now.hitsOn .a = 2 ∧ now.hitsOn .b = 0 ∧ (now.pair.get .a).pos.same (.cell ⟨1, 0⟩) = true ∧
      (now.pair.get .a).health.toInt? = some 0 ∧ (now.pair.get .b).health.toInt? = some 0 ∧
      now.after (.whole 30) (.shot .b (.cell ⟨1, 0⟩)) = .ok next ∧
      next.results = now.results ++ [(.a, told)] ∧ told.hit = false := by
  intro given built
  have hbuilt : ∀ p, (given.get p).check = .ok (built.get p) := by
    intro p
    cases p <;> rfl
  have htop : ∀ p, (given.get p).maxHealth.toInt? = some 40 := by
    intro p
    cases p <;> rfl
  have hhealth : ∀ p, (given.get p).health.toInt? = some (Duo.get ⟨50, -3⟩ p) := by
    intro p
    cases p <;> rfl
  have hdamage : (Quantity.whole 30).toInt? = some ((30 : Nat) : Int) := rfl
  have hcourse : ([.shot .b (.cell ⟨0, 0⟩), .step .a (.build 2 2 false) .right,
      .shot .b (.cell ⟨0, 0⟩), .shot .b (.cell ⟨1, 0⟩), .shot .a (.cell ⟨1, 1⟩)].foldlM
        (after (.whole 30)) ⟨built, []⟩).toOption.map (fun e => (e.hitsOn .a, e.hitsOn .b,
          (e.pair.get .a).pos.same (.cell ⟨1, 0⟩), (e.pair.get .a).pos.hasText)) =
      some (2, 0, true, true) := by decide +kernel
  obtain ⟨now, hnow, hseen⟩ := Option.map_eq_some_iff.mp hcourse
  simp only [Prod.mk.injEq] at hseen
  obtain ⟨ha, hb, hplace, htext⟩ := hseen
  have hrun := eq_ok_of_toOption hnow
  have hresult (p : Player) := health_accounted hdamage hbuilt htop hhealth hrun p
  have hleft : healthLeft (max 0 (min 50 40)) 30 (now.hitsOn .a) = 0 := by
    rw [ha]
    rfl
  obtain ⟨hhealtha, -, -, -, hshots⟩ := hresult .a
  obtain ⟨hreturns, htells⟩ := hshots (.cell ⟨1, 0⟩)
  have hmiss : ¬ ((now.pair.get .a).pos.same (.cell ⟨1, 0⟩) = true ∧
      0 < healthLeft (max 0 (min 50 40)) 30 (now.hitsOn .a)) :=
    fun h => absurd h.2 hleft.le.not_gt
  obtain ⟨next, hnext⟩ := hreturns.mpr ⟨by decide +kernel, fun h => absurd h hmiss, fun _ => htext⟩
  obtain ⟨told, hresults, -, hhit, -⟩ := htells next hnext
  have hhealthb := (hresult .b).1
  rw [hb] at hhealthb
  exact ⟨hbuilt, now, next, told, hrun, ha, hb, hplace, hhealtha.trans (congrArg some hleft),
    hhealthb, hnext, hresults, Bool.eq_false_iff.mpr (mt hhit.mp hmiss)⟩

/-- With a damage that is not whole, three hits take a little less than three times the damage. Of
health with too many digits a hit takes its damage and then gives no result. -/
theorem health_unaccounted :
    let fighter (p : Player) (health : Quantity) : Combatant :=
      { player := p, pos := .cell ⟨0, 0⟩, maxHealth := health, health }
    let pair (health : Quantity) : Exchange := ⟨⟨fighter .a health, fighter .b health⟩, []⟩
    let hit : Incident := .shot .a (.cell ⟨0, 0⟩)
    (∃ now, [hit, hit, hit].foldlM (after (.real 0.1)) (pair (.whole 1)) = .ok now ∧
      now.hitsOn .b = 3 ∧
      (now.pair.get .b).health.same ((Quantity.whole 1).sub (.mul (.real 0.1) (.whole 3))) =
        false) ∧
    let result := (pair (.whole (10 ^ 5000))).shot (.whole 30) .a (.cell ⟨0, 0⟩)
    result.1 = .error .numberTooLong ∧ result.2.health = .whole (10 ^ 5000 - 30) := by
  intro fighter pair hit
  have hcourse : ([hit, hit, hit].foldlM (after (.real 0.1)) (pair (.whole 1))).toOption.map
      (fun e => (e.hitsOn .b, (e.pair.get .b).health.same
        ((Quantity.whole 1).sub (.mul (.real 0.1) (.whole 3))))) = some (3, false) := by
    decide +kernel
  obtain ⟨now, hnow, hseen⟩ := Option.map_eq_some_iff.mp hcourse
  simp only [Prod.mk.injEq] at hseen
  refine ⟨⟨now, eq_ok_of_toOption hnow, hseen.1, hseen.2⟩, ?_⟩
  intro result
  let target := fighter .b (.whole (10 ^ 5000))
  have hgo : ¬ (Shot.hits target (.cell ⟨0, 0⟩) && !target.health.combines (.whole 30)) = true := by
    decide +kernel
  have htext : ¬ Shot.hasText Place.hasText (.whole 30) target (.cell ⟨0, 0⟩) = true := by
    decide +kernel
  have heq : result = (.error .numberTooLong,
      Shot.targetAfter (.whole 30) target (.cell ⟨0, 0⟩)) := by
    show (Shot.resolve _ _ _ target _).value = _
    rw [Shot.resolve, if_neg hgo]
    dsimp only
    rw [if_neg htext]
    rfl
  rw [heq]
  exact ⟨rfl, by decide +kernel⟩

end Exchange

end MazeDuel
