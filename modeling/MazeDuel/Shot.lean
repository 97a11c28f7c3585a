import MazeDuel.Combatant
/-!
Shots: a shot hits when its target stands on the aimed cell at that moment and still has health; a
hit takes a fixed amount of health.
-/

namespace MazeDuel

structure ShotResult where
  shooter : Player
  target : Player
  cell : Place
  hit : Bool
  damage : Quantity
  targetHealth : Quantity
  targetDefeated : Bool
  log : String
  deriving BEq, Inhabited

namespace ShotResult

/-- The members of the document of a shot, from what is told of it. -/
def tellMembers (shooter target : Player) (cell : Place)
    (hit damage targetHealth targetDefeated log : Json) : List (String × Json) :=
  [("shooter", wordJson shooter), ("target", wordJson target), ("cell", cell.toJson),
    ("hit", hit), ("damage", damage), ("target_health", targetHealth),
    ("target_defeated", targetDefeated), ("log", log)]

def members (r : ShotResult) : List (String × Json) :=
  tellMembers r.shooter r.target r.cell (.bool r.hit) r.damage.toJson r.targetHealth.toJson
    (.bool r.targetDefeated) (.text r.log)

def toJson (r : ShotResult) : Json := .object r.members

end ShotResult

namespace Shot

def defaultDamage : Int := 20

def checkDamage (damage : Quantity) : Except Fault Quantity :=
  if damage.below 0 then .error (.negativeShotDamage damage) else .ok damage

def hits (target : Combatant) (cell : Place) : Bool := target.pos.same cell && !target.defeated

def targetAfter (damage : Quantity) (target : Combatant) (cell : Place) : Combatant :=
  if hits target cell then target.applyDamage damage else target

/-- What is told of a shot that hit or missed. -/
def result (damage : Quantity) (shooter target : Combatant) (cell : Place) : ShotResult :=
  let after := targetAfter damage target cell
  let hit := hits target cell
  { shooter := shooter.player, target := target.player, cell, hit
    damage := if hit then damage else .whole 0
    targetHealth := after.health, targetDefeated := after.defeated
    log :=
      if hit then
        shooter.label ++ " hit " ++ target.label ++ " at " ++ cell.display ++
          ", health remaining: " ++ after.health.display
      else
        shooter.label ++ " fired at " ++ cell.display ++ " and missed (" ++ target.label ++
          " is at " ++ target.pos.display ++ ")" }

/-- Whether the text of a shot can be written: it names the aimed cell and, of the target, the
health that a hit leaves or the place that a miss did not meet. -/
def hasText (legible : Place → Bool) (damage : Quantity) (target : Combatant) (cell : Place) :
    Bool :=
  legible cell &&
    if hits target cell then (targetAfter damage target cell).health.hasText
    else legible target.pos

/-- What came of a shot, and the target after it. Damage that cannot be taken from the health stops
a shot before it does anything. The text is written last: a shot whose text has a number too long
has already done its damage. -/
def resolve (legible : Place → Bool) (damage : Quantity) (shooter target : Combatant)
    (cell : Place) : Logged (Except Fault ShotResult × Combatant) :=
  if hits target cell && !target.health.combines damage then pure (.error .numberTooLarge, target)
  else
    let after := targetAfter damage target cell
    if hasText legible damage target cell then
      let result := result damage shooter target cell
      ⟨(.ok result, after), [⟨.info, "duel.mechanics.combat", result.log⟩]⟩
    else pure (.error .numberTooLong, after)

/-- A shot takes health and nothing else. -/
theorem targetAfter_eq (damage : Quantity) (target : Combatant) (cell : Place) :
    targetAfter damage target cell =
      { target with health := (targetAfter damage target cell).health } := by
  unfold targetAfter
  split <;> rfl

/-- The ways in which a shot can go. -/
inductive Resolved (legible : Place → Bool) (damage : Quantity) (shooter target : Combatant)
    (cell : Place) : Except Fault ShotResult × Combatant → Prop where
  | stopped : hits target cell = true → target.health.combines damage = false →
      Resolved legible damage shooter target cell (.error .numberTooLarge, target)
  | untold : (hits target cell = true → target.health.combines damage = true) →
      hasText legible damage target cell = false →
      Resolved legible damage shooter target cell
        (.error .numberTooLong, targetAfter damage target cell)
  | told : (hits target cell = true → target.health.combines damage = true) →
      hasText legible damage target cell = true →
      Resolved legible damage shooter target cell
        (.ok (result damage shooter target cell), targetAfter damage target cell)

theorem resolved (legible : Place → Bool) (damage : Quantity) (shooter target : Combatant)
    (cell : Place) : Resolved legible damage shooter target cell
      (resolve legible damage shooter target cell).value := by
  unfold resolve
  split
  · next hstop =>
    rw [Bool.and_eq_true, Bool.not_eq_true'] at hstop
    exact .stopped hstop.1 hstop.2
  · next hgo =>
    have hcombines (hhits : hits target cell = true) : target.health.combines damage = true := by
      simpa [hhits] using hgo
    dsimp only
    split
    · exact .told hcombines ‹_›
    · exact .untold hcombines (Bool.eq_false_iff.mpr ‹_›)

theorem Resolved.target_eq {legible : Place → Bool} {damage : Quantity} {shooter target : Combatant}
    {cell : Place} {x : Except Fault ShotResult × Combatant}
    (h : Resolved legible damage shooter target cell x) :
    x.2 = { target with health := x.2.health } := by
  cases h with
  | stopped => rfl
  | untold => exact targetAfter_eq damage target cell
  | told => exact targetAfter_eq damage target cell

end Shot

end MazeDuel
