import MazeDuel.Proofs.Match.Playable
import MazeDuel.Proofs.Turn.Route
import MazeDuel.Proofs.Turn.Stepping
/-!
Every match that is built can be won by either player: the first one has a script that ends it at
the exit in the first turn, and if that turn is wasted, the other player has one.
-/

namespace MazeDuel

namespace Turn

namespace Duel

variable {d : Duel} {g : Setting} {s : Standing}

/-- The player to move can set a script between turns, and nothing else changes. -/
theorem setScript_taken (hp : d.phase = .idle) (script : String) :
    ∃ journal deeds, d.setScript d.current (.text script) =
      (.ok true, { d with scripts := d.scripts.set d.current (.text script), journal, deeds }) := by
  have hover : d.isOver = false := by simp [isOver, hp]
  have haccepts : d.accepts d.current "set_script" = (true, d) := by
    simp [accepts, hover]
  have hbusy : ¬ d.phase = .executing := by
    rw [hp]
    decide
  rw [setScript, haccepts]
  dsimp only
  rw [if_neg hbusy]
  exact ⟨_, _, rfl⟩

end Duel

namespace Coordinator

open Duel Deed

variable {M : Type} {l : Listener M} {c x : Coordinator M} {r : Accepted} {program : List Action}
  {seen : M → List Duel} {g : Setting} {s : Standing} {script : String}

/-- A turn of a player with a script: the script is taken, a run of it is accepted, and somebody
waits until its task has ended and it is their turn. -/
inductive Plays (l : Listener M) (p : Player) (script : String) :
    Coordinator M → Coordinator M → Prop where
  | turn {c x y : Coordinator M} {id : Nat} {hs : List Happening}
      (taken : c.request l (.setScript p (.text script)) = (.flag true, x))
      (accepted : x.request l (.execute p) = (.flag true, y))
      (execution : y.duel.execution = some id) (unasked : ∀ h ∈ hs, h.isRequest = false)
      (called : ((y.awaiting id).after l hs).CallsBack) :
      Plays l p script c ((y.awaiting id).after l hs).takeCaller

/-- A script that is set between turns leaves the match settled. -/
theorem settled_setScript (h : Settled g s c.duel) (hpoised : Poised c.duel)
    (hp : c.duel.phase ≠ .over) (l : Listener M) (script : String) :
    let x := c.request l (.setScript c.duel.current (.text script))
    x.1 = .flag true ∧ Poised x.2.duel ∧
      Settled { g with scripts := g.scripts.set c.duel.current (.text script) } s x.2.duel := by
  intro x
  obtain ⟨hidle, hstarted, rfl⟩ := h.going hp
  obtain ⟨journal, deeds, hset⟩ := setScript_taken hidle script
  have hstill : Still x.2.duel := h.toStill.moves (moves_request l _ c)
  have hx : x = (.flag true, c.update fun d =>
      { d with scripts := d.scripts.set d.current (.text script), journal, deeds }) := by
    show c.handle l.tell (.setScript c.duel.current (.text script)) = _
    rw [handle, onDuel, hset]
    rfl
  rw [hx] at hstill ⊢
  refine ⟨rfl, ⟨hpoised.awaited, hpoised.meek⟩, hstill, h.standing, h.proper, fun _ => ?_⟩
  exact ⟨hidle, hstarted, rfl⟩

/-- Whether a run is on its way as long as a script is said to be executed. -/
def Going (r : Accepted) (d : Duel) : Prop :=
  (∃ program, Underway r program d ∧ Alone r.id d) ∨ d.phase ≠ .executing

/-- While somebody waits for a run that cannot fail, it does not stop before its end. -/
theorem going_happen (hl : Mute seen l) (hmanual : r.continuous = false)
    (hsound : ∀ fault, ¬ r.Breaks fault) (h : Away r c.duel) (hgoing : Going r c.duel)
    {x : Happening} (hx : x.isRequest = false) : Going r (c.happen l x).duel := by
  have hnext := away_happen hl hmanual h hx
  have hgoes : ∀ program, Underway r program c.duel → Alone r.id c.duel →
      Going r (c.happen l x).duel := by
    intro program hway halone
    rcases alone_happen (passive_tell hl) hway halone hx with
      ⟨later, hlater, hkept, -⟩ | ⟨t, ready, hr, hid, hfails | hends⟩
    · exact .inl ⟨later, hlater, hkept⟩
    · obtain ⟨fault, hbreaks⟩ := hfails.breaks
      exact absurd hbreaks (hsound fault)
    · have hsettled := hends.settled hnext.toStill hnext.proper hway.started hway.setting
      exact .inr hsettled.resting
  -- a run may also be on its way when its last action has already ended the match
  rcases hgoing with ⟨program, hway, halone⟩ | hrest
  · exact hgoes program hway halone
  · rcases h.course with ⟨program, hway, halone, -⟩ | ⟨hhome, -⟩
    · exact hgoes program hway halone
    · obtain ⟨-, hapart⟩ := home_happen (l := l) hhome hx
      right
      rw [hapart.phase]
      exact hrest

theorem going_after (hl : Mute seen l) (hmanual : r.continuous = false)
    (hsound : ∀ fault, ¬ r.Breaks fault) (h : Away r c.duel) (hgoing : Going r c.duel)
    {hs : List Happening} (hhs : ∀ x ∈ hs, x.isRequest = false) :
    Going r (c.after l hs).duel := by
  induction hs generalizing c with
  | nil => exact hgoing
  | cons x hs ih =>
    have hx := hhs x (List.mem_cons_self ..)
    have hnext := away_happen hl hmanual h hx
    exact ih hnext (going_happen hl hmanual hsound h hgoing hx)
      fun y hy => hhs y (List.mem_cons_of_mem _ hy)

/-- When it is the caller's turn, a run that cannot fail has come to what the rules make of it. -/
theorem away_called (hl : Mute seen l) (hmanual : r.continuous = false)
    (hsound : ∀ fault, ¬ r.Breaks fault) (h : Away r c.duel) (hway : Underway r program c.duel)
    (halone : Alone r.id c.duel) {hs : List Happening} (hhs : ∀ x ∈ hs, x.isRequest = false)
    (hcalls : (c.after l hs).CallsBack) :
    Settled r.setting r.standing (c.after l hs).takeCaller.duel ∧
      Poised (c.after l hs).takeCaller.duel := by
  apply (away_after hl hmanual h hhs).called hcalls
  rcases going_after hl hmanual hsound h (.inl ⟨program, hway, halone⟩) hhs with
    ⟨later, -, halone'⟩ | hrest
  · obtain ⟨caller, ready, hr, hj⟩ := hcalls
    exact absurd hj (halone'.callers caller (tasks_of_ready hr))
  · exact hrest

/-- Between turns the player to move can play any script that can be read, and if none of its
actions fails, every such turn comes to what the rules make of them. -/
theorem plays_settled (hl : Mute seen l) (h : Settled g s c.duel) (hpoised : Poised c.duel)
    (hgoing : s.phase ≠ .over) (hmanual : g.continuous = false)
    (hf : g.timing.stepDelay.fitsReal)
    (hparse : (Script.parse s.current script).value = .ok program)
    {result : ExecutionResult} (hok : (s.play s.current program).1 = .ok result) :
    (∃ z, Plays l s.current script c z) ∧ ∀ z, Plays l s.current script c z →
      Settled { g with scripts := g.scripts.set s.current (.text script) }
        (s.play s.current program).2 z.duel ∧ Poised z.duel := by
  obtain rfl := h.standing
  let p := c.duel.current
  obtain ⟨htaken, hpoised', hsettled⟩ := settled_setScript h hpoised hgoing l script
  let x := (c.request l (.setScript p (.text script))).2
  have hcurrent : x.duel.current = p := congrArg Standing.current hsettled.standing
  have hgoing' : x.duel.phase ≠ .over := by
    rw [show x.duel.phase = c.duel.phase from congrArg Standing.phase hsettled.standing]
    exact hgoing
  have hread : x.duel.program? (.begin x.duel.current) = some (x.duel.current, program, []) := by
    rw [hcurrent, program?, show x.duel.scripts = g.scripts.set p (.text script) from
      congrArg Setting.scripts (hsettled.going hgoing').2.2, Duo.get_set_self,
      Script.parseGiven_text, show (Script.parse p script).value = .ok program from hparse]
    rfl
  obtain ⟨r, hsetting, hplayed, hreply, hid, haway, hway, halone⟩ :=
    away_accepted hsettled hpoised' hgoing' hread l
  rw [hcurrent] at hplayed hreply hid haway hway halone
  have hstanding : r.standing = (c.duel.standing.play p program).2 := congrArg Prod.snd hplayed
  have hmanual' : r.continuous = false := by
    rw [show r.continuous = g.continuous from congrArg Setting.continuous hsetting]
    exact hmanual
  have hf' : r.timing.stepDelay.fitsReal := by
    rw [show r.timing = g.timing from congrArg Setting.timing hsetting]
    exact hf
  have hresult : r.result = .ok result := (congrArg Prod.fst hplayed).trans hok
  have hsound (fault : Fault) : ¬ r.Breaks fault := fun hbreaks => by
    cases hresult.symm.trans (hbreaks.result hf')
  constructor
  · have hphase : r.standing.phase ≠ .executing := by
      have hended := Standing.play_phase c.duel.standing p program
      rw [← hplayed, hresult] at hended
      rcases hended with hended | hended <;> rw [hended] <;> decide
    obtain ⟨hs, hsteps, hcalls, -⟩ :=
      away_arrives hl hmanual' hf' hphase haway hway halone.toUnhindered
    exact ⟨_, .turn (Prod.ext htaken rfl) (Prod.ext hreply rfl) hid (unasked_of_steps hsteps)
      hcalls⟩
  · intro z hz
    cases hz with
    | @turn x' y id hs taken accepted execution unasked called =>
      obtain rfl : x = x' := congrArg Prod.snd taken
      obtain rfl : (x.request l (.execute p)).2 = y := congrArg Prod.snd accepted
      cases hid.symm.trans execution
      have hended := away_called hl hmanual' hsound haway hway halone unasked called
      rw [hsetting, hstanding] at hended
      exact hended

/-- A player who is to move can play a script, and whoever plays it so has then won the match. -/
def Wins (l : Listener M) (p : Player) (script : String) (c : Coordinator M) : Prop :=
  (∃ z, Plays l p script c z) ∧ ∀ z, Plays l p script c z → z.duel.standing.Escaped p

theorem wins_settled (hl : Mute seen l) (h : Settled g s c.duel) (hpoised : Poised c.duel)
    (hgoing : s.phase ≠ .over) (hmanual : g.continuous = false)
    (hf : g.timing.stepDelay.fitsReal)
    (hparse : (Script.parse s.current script).value = .ok program)
    {result : ExecutionResult} (hok : (s.play s.current program).1 = .ok result)
    (hescaped : (s.play s.current program).2.Escaped s.current) : c.Wins l s.current script := by
  obtain ⟨hplays, hall⟩ := plays_settled hl h hpoised hgoing hmanual hf hparse hok
  refine ⟨hplays, fun z hz => ?_⟩
  rw [(hall z hz).1.standing]
  exact hescaped

end Coordinator

end Turn

open Turn Duel Coordinator

/-- Routes to the exit from wherever the players stand in the maze of a layout. -/
theorem Maze.Layout.Joined.exists_route {made : Maze.Layout} {width height : Nat}
    (h : made.Joined width height) (p : Player) :
    ∃ moves : List MoveDir, ∀ s : Standing, s.phase ≠ .over →
      s.arena.Stands made.grid p (made.spawns.get p) →
        ∃ result, (s.play p (moves.map fun dir => ⟨p, .move dir⟩)).1 = .ok result ∧
          (s.play p (moves.map fun dir => ⟨p, .move dir⟩)).2.Escaped p := by
  obtain ⟨exit, hexit, hspawns⟩ := h.exit
  obtain ⟨start, hstart, hne⟩ := hspawns p
  obtain ⟨walk⟩ := h.connected.preconnected start exit
  obtain ⟨moves, hmoves⟩ := Standing.exists_route h.width_eq h.height_eq hexit walk hne
  refine ⟨moves, fun s hgoing hs => ?_⟩
  have hescaped := hmoves p { s with phase := .executing } [] nofun (hstart ▸ hs)
  obtain ⟨result, hok, hplay⟩ := s.play_moves p moves
  refine ⟨result, hok, ?_⟩
  rw [hplay, Standing.conclude_over hescaped.phase]
  exact hescaped

/-- Whatever its size, its seed, its pickups and the health of its players, every match that is
built can be won by either player. The first to move has a script of moves that ends the match at
the exit; and when that turn is played with the empty script, the other player has one. -/
theorem MatchConfig.winnable {config : MatchConfig} (h : config.Playable)
    (seeds : Json → Random.Twister) :
    ∃ d mine theirs, (config.buildDuel seeds).value = .ok d ∧
      ∀ {M : Type} {seen : M → List Duel} {l : Listener M}, Mute seen l → ∀ memory : M,
        let begun := ((⟨d, memory⟩ : Coordinator M).request l .start).2
        begun.Wins l .a (Script.route mine) ∧ (∃ x, Plays l .a "" begun x) ∧
          ∀ x, Plays l .a "" begun x → x.Wins l .b (Script.route theirs) := by
  obtain ⟨made, width, height, arena, hbuild, hjoined, hproper, hgrid, hspawns⟩ :=
    h.exists_duel seeds
  obtain ⟨mine, hmine⟩ := hjoined.exists_route .a
  obtain ⟨theirs, htheirs⟩ := hjoined.exists_route .b
  refine ⟨.fresh arena config.timing config.scripts, mine, theirs, hbuild, ?_⟩
  intro M seen l hl memory begun
  have hstands : ∀ p, arena.Stands made.grid p (made.spawns.get p) := by
    intro p
    refine ⟨⟨made.grid.powerups, ?_⟩, hspawns p⟩
    rw [hgrid]
  obtain ⟨hsettled, hpoised⟩ := settled_start hl hproper config.timing config.scripts memory
  let first := Standing.first arena
  have hfirst : ∀ p, first.arena.Stands made.grid p (made.spawns.get p) :=
    fun p => (hstands p).sameFixes (Arena.sameFixes_promote arena .a) rfl
  have hgoing : first.phase ≠ .over := nofun
  have hempty : (Script.parse first.current "").value = .ok [] := Script.parse_route .a []
  obtain ⟨hplays, hall⟩ := plays_settled hl hsettled hpoised hgoing rfl h.pace hempty rfl
  obtain ⟨_, hok, hescaped⟩ := hmine first hgoing (hfirst .a)
  refine ⟨?_, hplays, fun x hx => ?_⟩
  · exact wins_settled hl hsettled hpoised hgoing rfl h.pace (Script.parse_route .a mine) hok
      hescaped
  · obtain ⟨hsettled', hpoised'⟩ := hall x hx
    let second := (first.play .a []).2
    have hsecond : second.arena.Stands made.grid .b (made.spawns.get .b) := by
      have hfixes := ((Arena.sameFixes_recordTurnEnd first.arena .a).trans
        (Arena.sameFixes_clearActive _ .a)).trans (Arena.sameFixes_promote _ .b)
      exact (hfirst .b).sameFixes hfixes rfl
    obtain ⟨_, hok', hescaped'⟩ := htheirs second nofun hsecond
    exact wins_settled hl hsettled' hpoised' nofun rfl h.pace (Script.parse_route .b theirs) hok'
      hescaped'

/-- A narrow maze full of pickups, for players who hardly have any health. -/
def MatchConfig.corridor : MatchConfig where
  width := .whole 3
  height := .whole 40
  seed := .whole (-7)
  timing := { stepDelay := .whole 0 }
  shotDamage := .whole 20
  maxHealth := .real 0.5
  powerupsPerType := some (.whole 100)
  names := [(.b, .text "Hunter")]
  scripts := ⟨.null, .whole 3⟩

theorem MatchConfig.corridor_winnable : corridor.Playable ∧ ∀ seeds : Json → Random.Twister,
    ∃ d mine theirs, (corridor.buildDuel seeds).value = .ok d ∧
      let begun := ((⟨d, ()⟩ : Coordinator Unit).request .silent .start).2
      begun.Wins .silent .a (Script.route mine) ∧ (∃ x, Plays .silent .a "" begun x) ∧
        ∀ x, Plays .silent .a "" begun x → x.Wins .silent .b (Script.route theirs) := by
  have hplayable : corridor.Playable := by
    constructor
    case width => exact ⟨3, rfl, by decide⟩
    case height => exact ⟨40, rfl, by decide⟩
    case seed => exact Maze.isSeed_ofOption (some (-7))
    case pickups => exact fun q hq => ⟨100, by cases hq; rfl⟩
    case health => decide +kernel
    case damage => decide +kernel
    case timing =>
      rw [Timing.check, if_neg (by decide +kernel), if_neg (by decide +kernel),
        if_neg (by decide +kernel), if_neg (by decide +kernel)]
    case pace => decide +kernel
  have hmute : Mute (fun _ : Unit => []) .silent := fun _ _ _ => trivial
  refine ⟨hplayable, fun seeds => ?_⟩
  obtain ⟨d, mine, theirs, hbuild, hwins⟩ := winnable hplayable seeds
  exact ⟨d, mine, theirs, hbuild, hwins hmute ()⟩

end MazeDuel
