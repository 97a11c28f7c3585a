import MazeDuel.Action
import MazeDuel.Proofs.World.Bodies
/-!
Pickups: how many of each kind lie on a grid, and what each operation of an arena does to what the
combatants have collected and to what they may use.
-/

namespace MazeDuel

section Entries

variable {m : Std.TreeMap Cell Powerup} {c : Cell} {kind : Powerup}

theorem nodup_toList (m : Std.TreeMap Cell Powerup) : m.toList.Nodup := by
  refine m.distinct_keys_toList.imp fun {a b} hne heq => hne ?_
  rw [heq]
  exact Std.ReflCmp.compare_self

theorem mem_toList_erase (m : Std.TreeMap Cell Powerup) (c : Cell) (entry : Cell × Powerup) :
    entry ∈ (m.erase c).toList ↔ entry.1 ≠ c ∧ entry ∈ m.toList := by
  obtain ⟨c', k⟩ := entry
  rw [Std.TreeMap.mem_toList_iff_getElem?_eq_some, Std.TreeMap.mem_toList_iff_getElem?_eq_some,
    Std.TreeMap.getElem?_erase]
  by_cases h : c' = c
  · simp [h]
  · have hcompare : compare c c' ≠ .eq := fun heq => h (Std.LawfulEqOrd.eq_of_compare heq).symm
    simp [h, hcompare]

/-- What lies on a cell is the one entry that goes when it is taken. -/
theorem toList_perm_erase (h : m[c]? = some kind) :
    m.toList.Perm ((c, kind) :: (m.erase c).toList) := by
  have hnew : (c, kind) ∉ (m.erase c).toList := by
    rw [mem_toList_erase]
    exact fun hmem => hmem.1 rfl
  refine (List.perm_ext_iff_of_nodup (nodup_toList m)
    (List.nodup_cons.mpr ⟨hnew, nodup_toList _⟩)).mpr fun entry => ?_
  rw [List.mem_cons, mem_toList_erase]
  constructor
  · intro hmem
    by_cases hc : entry.1 = c
    · obtain ⟨c', k⟩ := entry
      obtain rfl : c' = c := hc
      rw [Std.TreeMap.mem_toList_iff_getElem?_eq_some, h] at hmem
      exact Or.inl (by rw [Option.some.inj hmem])
    · exact Or.inr ⟨hc, hmem⟩
  · rintro (rfl | hmem)
    · exact Std.TreeMap.mem_toList_iff_getElem?_eq_some.mpr h
    · exact hmem.2

end Entries

/-- What is found in a list is the one entry that goes when it is erased. -/
theorem countP_eraseP {α : Type} {test : α → Bool} {found : α} {entries : List α}
    (h : entries.find? test = some found) (count : α → Bool) :
    entries.countP count =
      (entries.eraseP test).countP count + if count found then 1 else 0 := by
  induction entries with
  | nil => cases h
  | cons entry rest ih =>
    cases ht : test entry with
    | true =>
      obtain rfl : entry = found := by simpa [ht] using h
      rw [List.eraseP_cons_of_pos ht, List.countP_cons]
    | false =>
      have hrest : rest.find? test = some found := by simpa [ht] using h
      rw [List.eraseP_cons_of_neg (by simp [ht]), List.countP_cons, List.countP_cons, ih hrest]
      omega

namespace Grid

/-- How many pickups of a kind lie on a grid. -/
def countOf (g : Grid) (kind : Powerup) : Nat :=
  g.powerups.toList.countP (·.2 == kind) + g.oddments.powerups.entries.countP (·.2 == kind)

/-- A pickup that is taken is one less on the grid, of its kind. -/
theorem countOf_takePowerupAt {g : Grid} {p : Place} {kind : Powerup}
    (h : (g.takePowerupAt p).1 = some kind) (k : Powerup) :
    g.countOf k = (g.takePowerupAt p).2.countOf k + if kind = k then 1 else 0 := by
  unfold takePowerupAt takePowerup at h ⊢
  cases hc : p.cell? with
  | some c =>
    simp only [hc] at h ⊢
    unfold countOf
    rw [(toList_perm_erase h).countP_eq, List.countP_cons]
    simp only [beq_iff_eq]
    omega
  | none =>
    simp only [hc] at h ⊢
    obtain ⟨entry, hentry, rfl⟩ := Option.map_eq_some_iff.mp h
    unfold countOf Loose.erase
    rw [countP_eraseP hentry]
    simp only [beq_iff_eq]
    omega

end Grid

@[simp] theorem Json.isPresent_bool (value : Bool) : (Json.bool value).isPresent = value := rfl

namespace Powers

/-- Whether a pickup of a kind is there. -/
def has (p : Powers) : Powerup → Bool
  | .phase => p.phase.isPresent
  | .trueRadar => p.trueRadar.isPresent

theorem has_add (p : Powers) (kind k : Powerup) : (p.add kind).has k = (kind == k || p.has k) := by
  cases kind <;> cases k <;> rfl

/-- What is left when a pickup of a kind is used. -/
def without (p : Powers) : Powerup → Powers
  | .phase => { p with phase := .bool false }
  | .trueRadar => { p with trueRadar := .bool false }

theorem has_without (p : Powers) (kind k : Powerup) :
    (p.without kind).has k = (kind != k && p.has k) := by
  cases kind <;> cases k <;> rfl

theorem has_empty (k : Powerup) : ({} : Powers).has k = false := by cases k <;> rfl

end Powers

namespace Combatant

theorem promote_has (c : Combatant) (k : Powerup) :
    c.promote.value.queued.has k = false ∧
      c.promote.value.active.has k = (c.queued.has k || c.active.has k) := by
  unfold promote
  cases k
  · cases h : c.queued.phase.isPresent <;> simp [Powers.has, h]
  · cases h : c.queued.trueRadar.isPresent <;> simp [Powers.has, h]

theorem clearActive_has (c : Combatant) (k : Powerup) :
    c.clearActive.value.queued.has k = c.queued.has k ∧
      c.clearActive.value.active.has k = false := by
  unfold clearActive
  split
  · exact ⟨rfl, Powers.has_empty k⟩
  · rename_i hnone
    rw [Bool.or_eq_true, not_or, Bool.not_eq_true, Bool.not_eq_true] at hnone
    refine ⟨rfl, ?_⟩
    cases k
    · exact hnone.1
    · exact hnone.2

/-- Whether a step goes through a wall. -/
def Step.breaches : Step → Bool
  | throughWall _ => true
  | _ => false

/-- A step through a wall is made just if there is a wall on that side, and takes an active phase.
-/
theorem look_wall {c : Combatant} {grid : Grid} {side : Facing} {step : Step}
    (h : c.look grid side = .ok step) :
    (step.changed && grid.hasWallAt c.pos side) = step.breaches ∧
      (step.breaches = true → c.active.phase.isPresent = true) := by
  obtain rfl | ⟨target, -, -, ⟨rfl, hwall, hphase⟩ | ⟨rfl, hopen⟩⟩ := look_cases h
  · exact ⟨rfl, nofun⟩
  · exact ⟨by rw [hwall]; rfl, fun _ => hphase⟩
  · exact ⟨by rw [hopen]; rfl, nofun⟩

end Combatant

namespace Arena

/-- Whether a player has collected a pickup of a kind and not been to move since. -/
def queues (a : Arena) (p : Player) (k : Powerup) : Bool := (a.combatant p).queued.has k

/-- Whether a player may use a pickup of a kind. -/
def wields (a : Arena) (p : Player) (k : Powerup) : Bool := (a.combatant p).active.has k

/-- What an action does to an arena before anybody hears of it: a move is tried, and a shot takes
its fix. -/
def attempt (a : Arena) (p : Player) : Command → Arena
  | .move dir => (a.tryMove p dir).value.2
  | .wait => a
  | .shoot _ => (a.radarFor p).value.2

/-- Whether a player who tries a move goes through a wall. -/
def breaches (a : Arena) (p : Player) (dir : MoveDir) : Bool :=
  (a.tryMove p dir).value.1 && a.grid.hasWallAt (a.position p) dir.facing

/-- The pickups that are used by what an action does first: a phase by a move through a wall, and a
true radar by a question that is answered with the live fix, as any question is while a true radar
is active. -/
def usedIn (a : Arena) (p : Player) : Command → List (Player × Powerup)
  | .move dir => if a.breaches p dir then [(p, .phase)] else []
  | .wait => []
  | .shoot _ => if a.wields p .trueRadar then [(p, .trueRadar)] else []

variable {a : Arena} {p q : Player} {k : Powerup}

theorem queues_setCombatant (a : Arena) (p q : Player) (c : Combatant) (k : Powerup) :
    (a.setCombatant p c).queues q k = if q = p then c.queued.has k else a.queues q k := by
  unfold queues
  rw [combatant_setCombatant]
  split <;> rfl

theorem wields_setCombatant (a : Arena) (p q : Player) (c : Combatant) (k : Powerup) :
    (a.setCombatant p c).wields q k = if q = p then c.active.has k else a.wields q k := by
  unfold wields
  rw [combatant_setCombatant]
  split <;> rfl

/-- Nobody has collected or used anything. -/
structure SamePowers (a a' : Arena) : Prop where
  queues : ∀ q k, a'.queues q k = a.queues q k
  wields : ∀ q k, a'.wields q k = a.wields q k

theorem samePowers_setCombatant {c : Combatant} (hq : c.queued = (a.combatant p).queued)
    (ha : c.active = (a.combatant p).active) : SamePowers a (a.setCombatant p c) := by
  refine ⟨fun q k => ?_, fun q k => ?_⟩
  · rw [queues_setCombatant]
    split
    · rename_i heq
      rw [hq, heq]
      rfl
    · rfl
  · rw [wields_setCombatant]
    split
    · rename_i heq
      rw [ha, heq]
      rfl
    · rfl

theorem samePowers_shootAt (a : Arena) (p : Player) (cell : Place) :
    SamePowers a (a.shootAt p cell).value.2 := by
  obtain ⟨result, target, heq, hshot⟩ := a.shootAt_eq p cell
  have htarget : target = { a.opponent p with health := target.health } := hshot.target_eq
  rw [heq]
  refine samePowers_setCombatant ?_ ?_ <;> rw [htarget] <;> rfl

/-- What a move does to the combatant who tries it, by whether it goes through a wall. -/
theorem tryMove_powers (a : Arena) (p : Player) (dir : MoveDir) :
    let c := ((a.combatant p).tryMove a.grid dir).value.2
    c.queued = (a.combatant p).queued ∧
      (c.active = if a.breaches p dir then (a.combatant p).active.without .phase
        else (a.combatant p).active) ∧
      (a.breaches p dir = true → a.wields p .phase = true) := by
  intro c
  have hanswer : (a.tryMove p dir).value.1 =
      ((a.combatant p).tryMove a.grid dir).value.1.toOption.getD false := by
    unfold tryMove
    simp only [Logged.value_bind]
    split <;> rfl
  unfold breaches
  rw [hanswer]
  cases hl : (a.combatant p).look a.grid dir.facing with
  | error fault =>
    have htry : ((a.combatant p).tryMove a.grid dir).value =
        (.error fault, { a.combatant p with facing := dir.facing }) := by
      simp only [Combatant.tryMove, hl]
      rfl
    have hc : c = { a.combatant p with facing := dir.facing } := congrArg Prod.snd htry
    rw [htry, hc]
    exact ⟨rfl, rfl, nofun⟩
  | ok step =>
    have htry : ((a.combatant p).tryMove a.grid dir).value =
        (.ok step.changed, Combatant.after { a.combatant p with facing := dir.facing } step) := by
      simp only [Combatant.tryMove, hl]
    have hc : c = Combatant.after { a.combatant p with facing := dir.facing } step :=
      congrArg Prod.snd htry
    obtain ⟨hbreaches, hactive⟩ := Combatant.look_wall hl
    have hanswer : (((a.combatant p).tryMove a.grid dir).value.1.toOption.getD false &&
        a.grid.hasWallAt (a.position p) dir.facing) = step.breaches := by
      rw [htry, ← hbreaches]
      rfl
    rw [hanswer, hc]
    cases step with
    | blocked => exact ⟨rfl, rfl, nofun⟩
    | moved target => exact ⟨rfl, rfl, nofun⟩
    | throughWall target => exact ⟨rfl, rfl, hactive⟩

/-- A question to the radar takes a true radar, if there is one. -/
theorem query_powers (known : Fixes) (c opponent : Combatant) :
    (Radar.query known c opponent).value.2.queued = c.queued ∧
      (Radar.query known c opponent).value.2.active =
        if c.active.has .trueRadar then c.active.without .trueRadar else c.active := by
  unfold Radar.query Radar.live Combatant.consumeTrueRadar
  split
  · rename_i h
    rw [if_pos (show c.active.has .trueRadar = true from h)]
    exact ⟨rfl, rfl⟩
  · rename_i h
    rw [if_neg (show ¬ c.active.has .trueRadar = true from h)]
    exact ⟨rfl, rfl⟩

theorem grid_attempt (a : Arena) (p : Player) (command : Command) :
    (a.attempt p command).grid = a.grid := by
  cases command with
  | move dir => exact (a.tryMove_frame p dir).1
  | wait => rfl
  | shoot modifiers => rfl

theorem fixes_attempt (a : Arena) (p : Player) (command : Command) :
    (a.attempt p command).fixes = a.fixes := by
  cases command with
  | move dir => exact (a.tryMove_frame p dir).2.1
  | wait => rfl
  | shoot modifiers => rfl

theorem queues_attempt (a : Arena) (p : Player) (command : Command) (q : Player) (k : Powerup) :
    (a.attempt p command).queues q k = a.queues q k := by
  cases command with
  | move dir =>
    obtain ⟨hqueued, -⟩ := a.tryMove_powers p dir
    show ((a.tryMove p dir).value.2).queues q k = _
    rw [tryMove_eq, queues_setCombatant, hqueued]
    split
    · rename_i heq
      rw [heq]
      rfl
    · rfl
  | wait => rfl
  | shoot modifiers =>
    obtain ⟨hqueued, -⟩ := query_powers (a.fixes.get p.other) (a.combatant p) (a.opponent p)
    show (a.setCombatant p _).queues q k = _
    rw [queues_setCombatant, hqueued]
    split
    · rename_i heq
      rw [heq]
      rfl
    · rfl

/-- A pickup that is used was there before and is gone after. -/
theorem count_spent {c : Combatant} {used : Bool} {kind : Powerup}
    (hc : c.active = if used then (a.combatant p).active.without kind else (a.combatant p).active)
    (hused : used = true → a.wields p kind = true) (q : Player) (k : Powerup) :
    (if used then [(p, kind)] else []).count (q, k) + ((a.setCombatant p c).wields q k).toNat =
      (a.wields q k).toNat := by
  rw [wields_setCombatant, hc]
  cases used with
  | false =>
    by_cases hq : q = p
    · subst hq
      simp [wields]
    · simp [hq]
  | true =>
    by_cases hq : q = p
    · subst hq
      have hwields := hused rfl
      by_cases hk : kind = k
      · subst hk
        simp [Powers.has_without, hwields]
      · have hne : (kind != k) = true := bne_iff_ne.mpr hk
        simp [Powers.has_without, hk, hne, wields]
    · simp [hq, Ne.symm hq]

/-- What is used is gone, and nothing else is. -/
theorem count_usedIn (a : Arena) (p : Player) (command : Command) (q : Player) (k : Powerup) :
    (a.usedIn p command).count (q, k) + ((a.attempt p command).wields q k).toNat =
      (a.wields q k).toNat := by
  cases command with
  | move dir =>
    obtain ⟨-, hactive, hwields⟩ := a.tryMove_powers p dir
    have hcount := count_spent hactive hwields q k
    rw [← tryMove_eq] at hcount
    exact hcount
  | wait => simp [usedIn, attempt]
  | shoot modifiers =>
    obtain ⟨-, hactive⟩ := query_powers (a.fixes.get p.other) (a.combatant p) (a.opponent p)
    have hused : a.wields p .trueRadar = true → a.wields p .trueRadar = true := id
    exact count_spent hactive hused q k

/-- What is picked up lay on the grid, and is queued. -/
theorem pickUp_eq {found : Powerup} (h : (a.pickUp p).value.1 = some found) :
    (a.grid.takePowerupAt (a.position p)).1 = some found ∧
      (a.pickUp p).value.2 =
        { a with grid := (a.grid.takePowerupAt (a.position p)).2 }.setCombatant p
          { a.combatant p with queued := (a.combatant p).queued.add found } := by
  unfold pickUp at h ⊢
  split at h
  · cases h
  · rename_i powerup grid hg
    obtain rfl : powerup = found := Option.some.inj h
    rw [hg]
    exact ⟨rfl, rfl⟩

theorem queues_pickUp {found : Powerup} (h : (a.pickUp p).value.1 = some found) (q : Player)
    (k : Powerup) :
    (a.pickUp p).value.2.queues q k = (decide ((p, found) = (q, k)) || a.queues q k) := by
  rw [(pickUp_eq h).2, queues_setCombatant, Powers.has_add]
  split
  · rename_i hq
    subst hq
    by_cases hk : found = k <;> simp [queues, hk]
  · rename_i hq
    have hne : (p, found) ≠ (q, k) := fun heq => hq (congrArg Prod.fst heq).symm
    rw [decide_eq_false hne]
    rfl

theorem wields_pickUp {found : Powerup} (h : (a.pickUp p).value.1 = some found) (q : Player)
    (k : Powerup) : (a.pickUp p).value.2.wields q k = a.wields q k := by
  rw [(pickUp_eq h).2, wields_setCombatant]
  split
  · rename_i hq
    rw [hq]
    rfl
  · rfl

theorem countOf_pickUp {found : Powerup} (h : (a.pickUp p).value.1 = some found) (k : Powerup) :
    a.grid.countOf k = (a.pickUp p).value.2.grid.countOf k + if found = k then 1 else 0 := by
  obtain ⟨htaken, heq⟩ := pickUp_eq h
  rw [heq]
  exact Grid.countOf_takePowerupAt htaken k

theorem queues_promote (a : Arena) (p q : Player) (k : Powerup) :
    (a.promote p).value.queues q k = (decide (q ≠ p) && a.queues q k) := by
  show (a.setCombatant p (a.combatant p).promote.value).queues q k = _
  rw [queues_setCombatant, (Combatant.promote_has _ k).1]
  split <;> simp [*]

theorem wields_promote (a : Arena) (p q : Player) (k : Powerup) :
    (a.promote p).value.wields q k = (decide (q = p) && a.queues q k || a.wields q k) := by
  show (a.setCombatant p (a.combatant p).promote.value).wields q k = _
  rw [wields_setCombatant, (Combatant.promote_has _ k).2]
  split
  · rename_i hq
    subst hq
    simp [queues, wields]
  · simp [*]

theorem queues_clearActive (a : Arena) (p q : Player) (k : Powerup) :
    (a.clearActive p).value.queues q k = a.queues q k := by
  show (a.setCombatant p (a.combatant p).clearActive.value).queues q k = _
  rw [queues_setCombatant, (Combatant.clearActive_has _ k).1]
  split
  · rename_i hq
    rw [hq]
    rfl
  · rfl

theorem wields_clearActive (a : Arena) (p q : Player) (k : Powerup) :
    (a.clearActive p).value.wields q k = (decide (q ≠ p) && a.wields q k) := by
  show (a.setCombatant p (a.combatant p).clearActive.value).wields q k = _
  rw [wields_setCombatant, (Combatant.clearActive_has _ k).2]
  split <;> simp [*]

end Arena

end MazeDuel
