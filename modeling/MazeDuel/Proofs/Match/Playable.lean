import MazeDuel.Match.Config
import MazeDuel.Proofs.World.Bodies
import MazeDuel.Proofs.World.Escape
/-!
Settings that can be played with. From whole sizes that are large enough, any seed and numbers that
are in range a match is always built, and it begins with both players in a maze that has a way out.
-/

namespace MazeDuel

/-- Whether a value can be the seed of a maze: it stands for a generator, whichever ones are taken
for the values that do not name one themselves. -/
def Maze.IsSeed (seed : Json) : Prop := ∀ seeds, ∃ rng, Maze.generator seeds seed = .ok rng

/-- Settings with whole sizes of three or more, a seed, and every number of the world in its range.
-/
structure MatchConfig.Buildable (config : MatchConfig) : Prop where
  width : ∃ n : Int, config.width = .whole n ∧ 3 ≤ n
  height : ∃ n : Int, config.height = .whole n ∧ 3 ≤ n
  seed : Maze.IsSeed config.seed
  pickups : ∀ q, config.powerupsPerType = some q → ∃ n : Int, q.toInt? = some n
  health : config.maxHealth.atMost 0 = false
  damage : config.shotDamage.below 0 = false

/-- Settings of a world that can be built, with every number of its pace in range too. -/
structure MatchConfig.Playable (config : MatchConfig) : Prop where
  width : ∃ n : Int, config.width = .whole n ∧ 3 ≤ n
  height : ∃ n : Int, config.height = .whole n ∧ 3 ≤ n
  seed : Maze.IsSeed config.seed
  pickups : ∀ q, config.powerupsPerType = some q → ∃ n : Int, q.toInt? = some n
  health : config.maxHealth.atMost 0 = false
  damage : config.shotDamage.below 0 = false
  timing : config.timing.check = .ok config.timing
  /-- A whole number of seconds can be too large for any clock. -/
  pace : config.timing.stepDelay.fitsReal

theorem MatchConfig.Playable.buildable {config : MatchConfig} (h : config.Playable) :
    config.Buildable :=
  { h with }

namespace Maze

theorem checkSize_whole (width height : Json) {n : Int} (h : 3 ≤ n) :
    checkSize width height (.whole n) = .ok () := by
  have hlarge : (Quantity.whole n).below minSize = false := by
    have hnot : ¬ n < (minSize : Int) := by
      unfold minSize
      omega
    simp [Quantity.below, hnot]
  unfold checkSize
  simp only [Json.toQuantity, Quantity.ofJson?]
  show (if (Quantity.whole n).below minSize = true then _ else _) = _
  rw [hlarge]
  rfl

/-- How many pickups of each kind are asked for. -/
def countFor (width : Int) : Json → Except Fault Int
  | .null => .ok (width / 4)
  | each => each.toInt

theorem isSeed_ofOption (seed : Option Int) : IsSeed (Json.ofOption .whole seed) := by
  intro seeds
  cases seed with
  | none => exact ⟨seeds .null, rfl⟩
  | some n => exact ⟨.ofSeed n, rfl⟩

/-- A maze is built of every seed, and with every number of pickups. -/
theorem exists_build {width height : Int} (hw : 3 ≤ width) (hh : 3 ≤ height) {seed each : Json}
    (hseed : IsSeed seed) {count : Int} (heach : countFor width each = .ok count)
    (seeds : Json → Random.Twister) :
    ∃ made, build seeds (.whole width) (.whole height) seed each = .ok made ∧
      made.Joined width.toNat height.toNat ∧
      made.WellLaid width.toNat height.toNat count.toNat := by
  have hw' : 2 ≤ width.toNat := by omega
  have hh' : 2 ≤ height.toNat := by omega
  obtain ⟨rng, hrng⟩ := hseed seeds
  obtain ⟨made, g, hlayout, hjoined, hlaid⟩ := exists_layout Random.Twister.chooser hw' hh'
    count.toNat rng
  refine ⟨made, ?_, hjoined, hlaid⟩
  have hmade : (layout Random.Twister.chooser width.toNat height.toNat count.toNat
      rng >>= fun x => pure x.1) = .ok made := by
    rw [hlayout]
    rfl
  rw [build, checkSize_whole _ _ hw, checkSize_whole _ _ hh, hrng]
  cases each with
  | null =>
    obtain rfl : width / 4 = count := Except.ok.inj heach
    exact hmade
  | whole n =>
    obtain rfl : n = count := Except.ok.inj heach
    exact hmade
  | bool b =>
    obtain rfl : (if b then 1 else 0) = count := Except.ok.inj heach
    exact hmade
  | _ => cases heach

theorem countFor_toJson (width : Int) {pickups : Option Quantity}
    (h : ∀ q, pickups = some q → ∃ n : Int, q.toInt? = some n) :
    ∃ count, countFor width (Json.ofOption Quantity.toJson pickups) = .ok count := by
  cases pickups with
  | none => exact ⟨width / 4, rfl⟩
  | some q =>
    obtain ⟨n, hn⟩ := h q rfl
    cases q with
    | whole m => exact ⟨m, rfl⟩
    | real x => cases hn
    | flag b => exact ⟨_, rfl⟩

end Maze

namespace MatchConfig

open Turn

variable {config : MatchConfig}

theorem Buildable.exists_layout (h : config.Buildable) (seeds : Json → Random.Twister) :
    ∃ made width height each, (config.buildLayout seeds).value = .ok made ∧
      config.width = .whole width ∧ config.height = .whole height ∧
      Maze.countFor width (Json.ofOption Quantity.toJson config.powerupsPerType) = .ok each ∧
      made.Joined width.toNat height.toNat ∧
      made.WellLaid width.toNat height.toNat each.toNat := by
  obtain ⟨width, hwidth, hw⟩ := h.width
  obtain ⟨height, hheight, hh⟩ := h.height
  obtain ⟨each, heach⟩ := Maze.countFor_toJson width h.pickups
  obtain ⟨made, hbuild, hjoined, hlaid⟩ := Maze.exists_build hw hh h.seed heach seeds
  refine ⟨made, width, height, each, ?_, hwidth, hheight, heach, hjoined, hlaid⟩
  have hbuild' : Maze.build seeds config.width.toJson config.height.toJson config.seed
      (Json.ofOption Quantity.toJson config.powerupsPerType) = .ok made := by
    rw [hwidth, hheight]
    exact hbuild
  rw [buildLayout, Maze.generate, hbuild']

theorem Buildable.exists_combatant (h : config.Buildable) (p : Player) (cell : Cell) :
    ∃ c, config.combatant p cell = .ok c ∧ c.player = p ∧ c.pos = .cell cell := by
  have hhealth : ¬ config.maxHealth.atMost 0 = true := by
    rw [h.health]
    exact Bool.false_ne_true
  rw [combatant, Combatant.check, if_neg hhealth]
  exact ⟨_, rfl, rfl, rfl⟩

/-- The world of the match in a layout: both combatants at their spawns. -/
def arenaIn (config : MatchConfig) (layout : Maze.Layout) : Except Fault Arena := do
  let a ← config.combatant .a layout.spawns.a
  let b ← config.combatant .b layout.spawns.b
  Arena.make layout.grid a b (← Shot.checkDamage config.shotDamage)

theorem value_buildArena (config : MatchConfig) (seeds : Json → Random.Twister) :
    (config.buildArena seeds).value = (config.buildLayout seeds).value >>= config.arenaIn := rfl

/-- In a layout whose spawns lie on its grid both players take their places. -/
theorem Buildable.exists_arenaIn (h : config.Buildable) {made : Maze.Layout}
    (hspawn : ∀ p, made.grid.inBounds (made.spawns.get p) = true) :
    ∃ arena, config.arenaIn made = .ok arena ∧ arena.Proper ∧ arena.grid = made.grid ∧
      ∀ p, arena.position p = .cell (made.spawns.get p) := by
  obtain ⟨a, ha, hplayer, hpos⟩ := h.exists_combatant .a made.spawns.a
  obtain ⟨b, hb, hplayer', hpos'⟩ := h.exists_combatant .b made.spawns.b
  have hcontains : ∀ p, made.grid.contains (.cell (made.spawns.get p)) = .ok true := by
    intro p
    rw [Grid.contains_cell, hspawn p]
  have hdamage : Shot.checkDamage config.shotDamage = .ok config.shotDamage := by
    rw [Shot.checkDamage, h.damage]
    rfl
  let arena : Arena :=
    ⟨made.grid, ⟨a, b⟩, ⟨Fixes.fresh a.fix, Fixes.fresh b.fix⟩, config.shotDamage⟩
  have hmake : Arena.make made.grid a b config.shotDamage = .ok arena := by
    have hin : made.grid.contains a.pos = .ok true := hpos ▸ hcontains .a
    have hin' : made.grid.contains b.pos = .ok true := hpos' ▸ hcontains .b
    rw [Arena.make, hin, hin', hplayer, hplayer']
    rfl
  have harena : config.arenaIn made = .ok arena := by
    rw [arenaIn, ha]
    show (config.combatant .b made.spawns.b >>= fun b => _) = _
    rw [hb]
    show (Shot.checkDamage config.shotDamage >>= fun damage => _) = _
    rw [hdamage]
    exact hmake
  refine ⟨arena, harena, Arena.proper_make hmake, rfl, fun p => ?_⟩
  cases p with
  | a => exact hpos
  | b => exact hpos'

/-- A match is built in which both players are at their spawns, and passages join these with the
exit. -/
theorem Playable.exists_duel (h : config.Playable) (seeds : Json → Random.Twister) :
    ∃ made width height arena,
      (config.buildDuel seeds).value = .ok (.fresh arena config.timing config.scripts) ∧
      Maze.Layout.Joined made width height ∧ arena.Proper ∧ arena.grid = made.grid ∧
      ∀ p, arena.position p = .cell (made.spawns.get p) := by
  obtain ⟨made, width, height, each, hlayout, -, -, -, hjoined, hlaid⟩ :=
    h.buildable.exists_layout seeds
  obtain ⟨side, exit, hfaces⟩ := hlaid.faces
  obtain ⟨arena, harena, hproper, hgrid, hspawns⟩ :=
    h.buildable.exists_arenaIn fun p => (hfaces.behind p).1
  refine ⟨made, width.toNat, height.toNat, arena, ?_, hjoined, hproper, hgrid, hspawns⟩
  have hbuilt : (config.buildArena seeds).value = .ok arena := by
    rw [value_buildArena, hlayout]
    exact harena
  show ((config.buildArena seeds).value >>= fun arena => _) = _
  rw [hbuilt]
  show Duel.make arena config.timing config.scripts = _
  rw [Duel.make, h.timing]
  rfl

end MatchConfig

end MazeDuel
