import MazeDuel.Proofs.Match.Playable
/-!
Accepted settings. Whatever document settings are read from, their numbers are in range. Where those
of the maze are whole, every layout is well laid, and the world of the match is built in it.
-/

namespace MazeDuel

namespace MatchConfig

/-- What has been found out of the numbers of a world when its settings are accepted. -/
structure InRange (config : MatchConfig) : Prop where
  width : config.width.below Maze.minSize = false
  height : config.height.below Maze.minSize = false
  damage : config.shotDamage.below 0 = false
  health : config.maxHealth.atMost 0 = false
  pickups : ∀ q, config.powerupsPerType = some q → q.below 0 = false

theorem setting_ok {value : Json} {bad : Quantity → Bool} {fault : Fault} {q : Quantity}
    (h : setting value bad fault = .ok q) : bad q = false := by
  obtain ⟨read, -, h⟩ := exists_ok_of_bind h
  split at h
  · cases h
  · rename_i hgood
    rw [← Except.ok.inj h]
    exact Bool.eq_false_iff.mpr hgood

theorem inRange_readSettings {data : Json} {names : List (Player × Json)} {scripts : Duo Json}
    {config : MatchConfig} (h : readSettings data names scripts = .ok config) :
    config.InRange := by
  obtain ⟨width, hwidth, h⟩ := exists_ok_of_bind h
  obtain ⟨height, hheight, h⟩ := exists_ok_of_bind h
  obtain ⟨stepDelay, -, h⟩ := exists_ok_of_bind h
  obtain ⟨turnDelay, -, h⟩ := exists_ok_of_bind h
  obtain ⟨editLimit, -, h⟩ := exists_ok_of_bind h
  obtain ⟨tick, -, h⟩ := exists_ok_of_bind h
  obtain ⟨damage, hdamage, h⟩ := exists_ok_of_bind h
  obtain ⟨health, hhealth, h⟩ := exists_ok_of_bind h
  have hrange : ∀ pickups, (∀ q, pickups = some q → q.below 0 = false) →
      InRange ⟨width, height, data.findD "seed" .null, ⟨stepDelay, turnDelay, editLimit, tick⟩,
        damage, health, pickups, names, scripts⟩ :=
    fun _ hpickups => ⟨setting_ok hwidth, setting_ok hheight, setting_ok hdamage,
      setting_ok hhealth, hpickups⟩
  split at h
  · obtain rfl := Except.ok.inj h
    exact hrange none nofun
  · obtain ⟨pickups, hpickups, h⟩ := exists_ok_of_bind h
    obtain rfl := Except.ok.inj h
    obtain ⟨q, hq, hsome⟩ := exists_ok_of_bind hpickups
    obtain rfl := Except.ok.inj hsome
    refine hrange (some q) fun _ heq => ?_
    rw [← Option.some.inj heq]
    exact setting_ok hq

theorem inRange_ofJson {data : Json} {config : MatchConfig} (h : ofJson data = .ok config) :
    config.InRange := by
  unfold ofJson at h
  split at h
  · obtain ⟨-, -, h⟩ := exists_ok_of_bind h
    obtain ⟨names, -, h⟩ := exists_ok_of_bind h
    obtain ⟨scripts, -, h⟩ := exists_ok_of_bind h
    obtain ⟨names, -, h⟩ := exists_ok_of_bind h
    obtain ⟨scripts, -, h⟩ := exists_ok_of_bind h
    exact inRange_readSettings h
  · cases h

/-- The numbers that the maze is made from are whole; there may be no seed, and no number of
pickups. -/
structure Whole (config : MatchConfig) : Prop where
  width : ∃ n : Int, config.width = .whole n
  height : ∃ n : Int, config.height = .whole n
  seed : ∃ seed : Option Int, config.seed = Json.ofOption .whole seed
  pickups : ∀ q, config.powerupsPerType = some q → ∃ n : Int, q = .whole n

theorem InRange.buildable {config : MatchConfig} (h : config.InRange) (hwhole : config.Whole) :
    config.Buildable := by
  have hlarge : ∀ {q : Quantity}, q.below Maze.minSize = false → (∃ n : Int, q = .whole n) →
      ∃ n : Int, q = .whole n ∧ 3 ≤ n := by
    rintro _ hq ⟨n, rfl⟩
    refine ⟨n, rfl, ?_⟩
    simp only [Quantity.below, Quantity.lt_whole, decide_eq_false_iff_not, Maze.minSize] at hq
    omega
  constructor
  case width => exact hlarge h.width hwhole.width
  case height => exact hlarge h.height hwhole.height
  case seed =>
    obtain ⟨seed, hseed⟩ := hwhole.seed
    rw [hseed]
    exact Maze.isSeed_ofOption seed
  case pickups =>
    intro q hq
    obtain ⟨n, rfl⟩ := hwhole.pickups q hq
    exact ⟨n, rfl⟩
  case health => exact h.health
  case damage => exact h.damage

end MatchConfig

/-- However the generator chooses, and from every seed, a layout of three columns and rows or more
is well laid. From settings that are accepted and whole the world is built in every such layout, and
in the one of their own seed. -/
theorem generated_wellLaid :
    (∀ width height each : Nat, 3 ≤ width → 3 ≤ height →
      ∀ {G : Type} (c : Random.Chooser G) (g : G), ∃ made g',
        Maze.layout c width height each g = .ok (made, g') ∧ made.WellLaid width height each) ∧
    (∀ (seeds : Json → Random.Twister) (width height : Int) (seed : Option Int)
      (each : Option Nat), 3 ≤ width → 3 ≤ height →
      ∃ made, (Maze.generate seeds (.whole width) (.whole height) (Json.ofOption .whole seed)
          (Json.ofOption (fun n : Nat => .whole n) each)).value = .ok made ∧
        made.WellLaid width.toNat height.toNat (each.getD (width / 4).toNat)) ∧
    ∀ data config, MatchConfig.ofJson data = .ok config → config.Whole →
      (∀ (made : Maze.Layout) width height each, made.WellLaid width height each →
        ∃ arena, config.arenaIn made = .ok arena ∧ arena.grid = made.grid ∧
          ∀ p, arena.position p = .cell (made.spawns.get p)) ∧
      ∀ seeds, ∃ made width height each arena, (config.buildLayout seeds).value = .ok made ∧
        made.WellLaid width height each ∧ (config.buildArena seeds).value = .ok arena ∧
        arena.grid = made.grid ∧ ∀ p, arena.position p = .cell (made.spawns.get p) := by
  refine ⟨?_, ?_, ?_⟩
  · intro width height each hw hh G c g
    have hwidth : 2 ≤ width := by omega
    have hheight : 2 ≤ height := by omega
    obtain ⟨made, g', hlayout, -, hlaid⟩ := Maze.exists_layout c hwidth hheight each g
    exact ⟨made, g', hlayout, hlaid⟩
  · intro seeds width height seed each hw hh
    have hcount : Maze.countFor width (Json.ofOption (fun n : Nat => .whole n) each) =
        .ok ((each.map Int.ofNat).getD (width / 4)) := by
      cases each <;> rfl
    obtain ⟨made, hbuild, -, hlaid⟩ := Maze.exists_build hw hh (Maze.isSeed_ofOption seed) hcount
      seeds
    have heach : ((each.map Int.ofNat).getD (width / 4)).toNat =
        each.getD (width / 4).toNat := by
      cases each <;> rfl
    rw [heach] at hlaid
    refine ⟨made, ?_, hlaid⟩
    rw [Maze.generate, hbuild]
  · intro data config hread hwhole
    have hbuildable := (MatchConfig.inRange_ofJson hread).buildable hwhole
    have hworld : ∀ (made : Maze.Layout) width height each, made.WellLaid width height each →
        ∃ arena, config.arenaIn made = .ok arena ∧ arena.grid = made.grid ∧
          ∀ p, arena.position p = .cell (made.spawns.get p) := by
      intro made width height each hlaid
      obtain ⟨side, exit, hfaces⟩ := hlaid.faces
      obtain ⟨arena, harena, -, hgrid, hspawns⟩ :=
        hbuildable.exists_arenaIn fun p => (hfaces.behind p).1
      exact ⟨arena, harena, hgrid, hspawns⟩
    refine ⟨hworld, fun seeds => ?_⟩
    obtain ⟨made, width, height, each, hlayout, -, -, -, -, hlaid⟩ :=
      hbuildable.exists_layout seeds
    obtain ⟨arena, harena, hgrid, hspawns⟩ := hworld made _ _ _ hlaid
    refine ⟨made, _, _, _, arena, hlayout, hlaid, ?_, hgrid, hspawns⟩
    rw [MatchConfig.value_buildArena, hlayout]
    exact harena

/-- With the numbers left out the settings ask for ten columns and rows, and any maze. -/
theorem generated_wellLaid_defaults :
    ∃ config, MatchConfig.ofJson (.object []) = .ok config ∧ config.Whole ∧
      (∃ made g', Maze.layout (Maze.always 1) 3 3 9 () = .ok (made, g') ∧
        made.WellLaid 3 3 9) ∧
      (∀ seeds, ∃ made, (Maze.generate seeds (.whole 10) (.whole 10) .null .null).value =
          .ok made ∧ made.WellLaid 10 10 2) ∧
      ∀ seeds, ∃ made width height each arena, (config.buildLayout seeds).value = .ok made ∧
        made.WellLaid width height each ∧ (config.buildArena seeds).value = .ok arena ∧
        arena.grid = made.grid ∧ ∀ p, arena.position p = .cell (made.spawns.get p) := by
  obtain ⟨hlayout, hgenerate, hbuild⟩ := generated_wellLaid
  refine ⟨_, rfl, ⟨⟨10, rfl⟩, ⟨10, rfl⟩, ⟨none, rfl⟩, nofun⟩, ?_, ?_, ?_⟩
  · exact hlayout 3 3 9 (by decide) (by decide) (Maze.always 1) ()
  · exact fun seeds => hgenerate seeds 10 10 none none (by decide) (by decide)
  · exact (hbuild (.object []) _ rfl ⟨⟨10, rfl⟩, ⟨10, rfl⟩, ⟨none, rfl⟩, nofun⟩).2

end MazeDuel
