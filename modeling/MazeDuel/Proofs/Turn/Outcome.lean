import MazeDuel.Proofs.Turn.Lasting
/-!
The outcome of a match and its world: the match is over just when somebody stands at the exit or has
no health left, and who that is decides how it ended.
-/

namespace MazeDuel.Turn

namespace Standing

/-- How it shows in the world who has won, and how. -/
inductive Won (s : Standing) (p : Player) : Prop where
  | escaped (hwinner : s.winner = some p) (hresult : s.result = .exitReached)
      (hexit : ∀ q, s.arena.atExit q = true ↔ q = p)
      (hhealth : ∀ q, (s.arena.combatant q).defeated = false)
  | defeated (hwinner : s.winner = some p) (hresult : s.result = .defeated)
      (hexit : ∀ q, s.arena.atExit q = false)
      (hhealth : ∀ q, (s.arena.combatant q).defeated = true ↔ q = p.other)

/-- A world in which nobody has won yet. -/
def Open (a : Arena) : Prop := ∀ p, a.atExit p = false ∧ (a.combatant p).defeated = false

/-- Somebody has won just if the match is over. -/
structure Settled (s : Standing) : Prop where
  begun : s.phase = .over → s.started = true
  proper : s.arena.Proper
  measured : ∀ p, (s.arena.combatant p).Measured
  going : s.phase ≠ .over → Open s.arena
  decided : s.phase = .over → ∃ p, s.Won p

variable {s s' : Standing}

theorem Won.congr {p : Player} (h : s.Won p) (harena : s'.arena = s.arena)
    (hwinner : s'.winner = s.winner) (hresult : s'.result = s.result) : s'.Won p := by
  cases h with
  | escaped hw hr he hh =>
    exact .escaped (hwinner.trans hw) (hresult.trans hr) (harena ▸ he) (harena ▸ hh)
  | defeated hw hr he hh =>
    exact .defeated (hwinner.trans hw) (hresult.trans hr) (harena ▸ he) (harena ▸ hh)

theorem Open.sameBodies {a a' : Arena} (h : Open a) (hb : a.SameBodies a') : Open a' :=
  fun p => ⟨(hb.atExit p).trans (h p).1, (hb.defeated p).trans (h p).2⟩

theorem measured_sameBodies {a a' : Arena} (h : ∀ p, (a.combatant p).Measured)
    (hb : a.SameBodies a') (p : Player) : (a'.combatant p).Measured := by
  unfold Combatant.Measured
  rw [hb.health p]
  exact h p

/-- Before the end everything may change but who stands where and how healthy they are. -/
theorem Settled.onward (h : Settled s) (hp : s.phase ≠ .over)
    (hb : s.arena.SameBodies s'.arena) (hp' : s'.phase ≠ .over) : Settled s' where
  begun ho := absurd ho hp'
  proper := h.proper.sameBodies hb
  measured := measured_sameBodies h.measured hb
  going _ := (h.going hp).sameBodies hb
  decided ho := absurd ho hp'

theorem Settled.aside (h : Settled s) {phase : Phase} (hp : phase = .over ↔ s.phase = .over) :
    Settled { s with phase } where
  begun ho := h.begun (hp.mp ho)
  proper := h.proper
  measured := h.measured
  going ho := h.going (mt hp.mpr ho)
  decided ho := by
    obtain ⟨p, hwon⟩ := h.decided (hp.mp ho)
    exact ⟨p, hwon.congr rfl rfl rfl⟩

/-- Nobody has won but perhaps a player who has just moved. -/
structure Arriving (s : Standing) (p : Player) : Prop where
  begun : s.started = true
  proper : s.arena.Proper
  measured : ∀ q, (s.arena.combatant q).Measured
  going : s.phase ≠ .over
  other : s.arena.atExit p.other = false
  health : ∀ q, (s.arena.combatant q).defeated = false

theorem Arriving.elsewhere {p : Player} (h : Arriving s p) (hexit : s.arena.atExit p = false) :
    Settled s := by
  refine ⟨fun _ => h.begun, h.proper, h.measured, fun _ q => ⟨?_, h.health q⟩,
    fun ho => absurd ho h.going⟩
  by_cases hq : q = p
  · rw [hq]
    exact hexit
  · rw [Player.eq_other hq]
    exact h.other

theorem Arriving.escaped {p : Player} (h : Arriving s p) (hexit : s.arena.atExit p = true) :
    Settled (s.finish p .exitReached) := by
  refine ⟨fun _ => h.begun, h.proper, h.measured, fun hn => absurd rfl hn, fun _ => ⟨p, ?_⟩⟩
  refine .escaped rfl rfl (fun q => ⟨fun hq => ?_, ?_⟩) h.health
  · by_contra hne
    rw [Player.eq_other hne] at hq
    cases hq.symm.trans h.other
  · rintro rfl
    exact hexit

theorem Arriving.sameBodies {p : Player} (h : Arriving s p) (hb : s.arena.SameBodies s'.arena)
    (hphase : s'.phase = s.phase) (hs : s'.started = s.started) : Arriving s' p where
  begun := hs.trans h.begun
  proper := h.proper.sameBodies hb
  measured := measured_sameBodies h.measured hb
  going := hphase ▸ h.going
  other := (hb.atExit _).trans h.other
  health q := (hb.defeated q).trans (h.health q)

theorem Arriving.arrive {p : Player} (h : Arriving s p) : Settled (s.arrive p) := by
  have hdecide {s : Standing} (h : Arriving s p) :
      Settled (if s.arena.atExit p then s.finish p .exitReached else s) := by
    split
    · exact h.escaped ‹_›
    · exact h.elsewhere (Bool.eq_false_iff.mpr ‹_›)
  have hb : s.arena.SameBodies (s.arena.pickUp p).value.2 := Arena.sameBodies_pickUp _ _
  unfold Standing.arrive
  dsimp only
  split
  · exact hdecide (h.sameBodies hb rfl rfl)
  · exact hdecide (h.sameBodies hb rfl rfl)

/-- A move leaves only its player to be looked at. -/
theorem Settled.arriving (h : Settled s) (hs : s.started = true) (hp : s.phase ≠ .over) (p : Player)
    (dir : MoveDir) :
    Arriving { s with arena := (s.arena.tryMove p dir).value.2 } p := by
  obtain ⟨hgrid, -, hcombatant, hhealth, -⟩ := s.arena.tryMove_frame p dir
  refine ⟨hs, Arena.proper_tryMove h.proper p dir, fun q => ?_, hp, ?_, fun q => ?_⟩
  · unfold Combatant.Measured
    rw [hhealth q]
    exact h.measured q
  · unfold Arena.atExit Arena.position
    rw [hgrid, hcombatant]
    exact (h.going hp p.other).1
  · exact (congrArg (Quantity.atMost 0) (hhealth q)).trans (h.going hp q).2

theorem Settled.move (h : Settled s) (hs : s.started = true) (hp : s.phase ≠ .over) (p : Player)
    (dir : MoveDir) :
    Settled (s.move p dir) := by
  let arena := (s.arena.tryMove p dir).value.2
  let before := (s.arena.combatant p).fix
  have harriving : Arriving { s with arena } p := h.arriving hs hp p dir
  -- the same place may be given in another way, so the exit is compared by what places are equal to
  have hstays (hsame : (arena.position p).same before.position = true) :
      arena.atExit p = false := by
    have hexit := Grid.exitAt_congr (harriving.proper.grounded p) (h.proper.grounded p) hsame
      arena.grid
    rw [show arena.grid = s.arena.grid from (s.arena.tryMove_frame p dir).1] at hexit
    unfold Arena.atExit
    rw [show arena.grid = s.arena.grid from (s.arena.tryMove_frame p dir).1]
    exact hexit.trans (h.going hp p).1
  unfold Standing.move
  dsimp only
  split
  · rename_i hsame
    have hplace : (arena.position p).same before.position = true := by
      unfold Fix.same at hsame
      exact (Bool.and_eq_true_iff.mp hsame).1
    exact harriving.elsewhere (hstays hplace)
  · have hheard : Arriving ({ s with arena }.hear (.positionMoved p before)) p :=
      harriving.sameBodies (.refl arena) rfl rfl
    unfold Standing.moved
    dsimp only
    split
    · exact hheard.elsewhere (hstays ‹_›)
    · exact hheard.arrive

theorem Settled.shootAt (h : Settled s) (hs : s.started = true) (hp : s.phase ≠ .over) (p : Player)
    (cell : Place) : Settled (s.shootAt p cell).2 := by
  let arena := (s.arena.shootAt p cell).value.2
  have hopen : Open s.arena := h.going hp
  obtain ⟨hgrid, -, hshooter, -⟩ := s.arena.shootAt_frame p cell
  have hproper : arena.Proper := Arena.proper_shootAt h.proper p cell
  have hmeasured (q : Player) : (arena.combatant q).Measured :=
    Arena.measured_shootAt h.measured p cell q
  have hexit (q : Player) : arena.atExit q = false := by
    have hplace : arena.position q = s.arena.position q :=
      congrArg Fix.position ((Arena.sameFixes_shootAt s.arena p cell).fix q)
    unfold Arena.atExit
    rw [hplace, hgrid]
    exact (hopen q).1
  have hself : (arena.combatant p).defeated = false := by
    rw [hshooter]
    exact (hopen p).2
  have hgoing (hstands : (arena.opponent p).defeated = false) (log : EventLog Notification) :
      Settled { s with arena, log } := by
    refine ⟨fun _ => hs, hproper, hmeasured, fun _ q => ⟨hexit q, ?_⟩, fun ho => absurd ho hp⟩
    by_cases hq : q = p
    · rw [hq]
      exact hself
    · rw [Player.eq_other hq]
      exact hstands
  cases hshot : (s.arena.shootAt p cell).value.1 with
  | error fault =>
    rw [Standing.shootAt_error hshot]
    exact hgoing (Arena.defeated_of_shootAt_error h.proper.grounded hshot (hopen _).2) s.log
  | ok shot =>
    rw [Standing.shootAt_ok hshot]
    dsimp only
    split
    · rename_i hdefeated
      refine ⟨fun _ => hs, hproper, hmeasured, fun hn => absurd rfl hn, fun _ => ⟨p, ?_⟩⟩
      refine .defeated rfl rfl hexit (fun q => ⟨fun hq => Player.eq_other ?_, ?_⟩)
      · rintro rfl
        cases hself.symm.trans hq
      · rintro rfl
        exact hdefeated
    · rename_i hstands
      exact hgoing (Bool.eq_false_iff.mpr hstands) _

theorem Settled.shoot (h : Settled s) (hs : s.started = true) (hp : s.phase ≠ .over) (p : Player)
    (modifiers : List Modifier) : Settled (s.shoot p modifiers).2 := by
  have haimed : Settled { s with arena := (s.arena.radarFor p).value.2 } :=
    h.onward hp (Arena.sameBodies_radarFor _ _) hp
  exact haimed.shootAt hs hp p _

/-- What the rules make of a match keeps to who has won. -/
theorem lasting_settled : Coordinator.Lasting Settled where
  proper h := h.proper
  aside hp h := h.aside hp
  opening hp h := h.onward hp (Arena.sameBodies_promote _ _) nofun
  begun h := h.begun
  act p command hs hp h := by
    cases command with
    | move dir => exact h.move hs hp p dir
    | wait => exact h
    | shoot modifiers => exact h.shoot hs hp p modifiers
  endTurn p hp h := by
    refine h.onward hp ?_ nofun
    exact ((Arena.sameBodies_recordTurnEnd _ _).trans (Arena.sameBodies_clearActive _ _)).trans
      (Arena.sameBodies_promote _ _)
  pass p hp h := h.onward hp (Arena.sameBodies_promote _ _) nofun

end Standing

namespace Coordinator

open Duel Standing

variable {M : Type} {l : Listener M}

/-- The outcome of a match is the one that its world shows, at every moment. It is over just if
somebody stands at the exit or has no health left, and never for both reasons. Whoever stands at the
exit has won by reaching it, and whoever has no health left has lost to the other player. -/
theorem outcome_shows {grid : Grid} {a b : Combatant} {damage : Quantity} {arena : Arena}
    (harena : Arena.make grid a b damage = .ok arena)
    (hhealth : ∀ p, (Quantity.whole 0).lt (arena.combatant p).health)
    (hexit : ∀ p, arena.atExit p = false) (timing : Timing) (scripts : Duo Json) (memory : M)
    {seen : M → List Duel} (hl : Mute seen l) (hs : List Happening)
    (hhs : ∀ r, .request r ∈ hs → r.actsOnWorld = false ∧ r.isReport = false) :
    let d := ((fresh arena timing scripts memory).after l hs).duel
    let escaped (p : Player) : Prop := d.arena.atExit p = true
    let down (p : Player) : Prop := (d.arena.combatant p).health.same (.whole 0) = true
    (d.phase = .over ↔ (∃ p, escaped p) ∨ ∃ p, down p) ∧
      ¬ ((∃ p, escaped p) ∧ ∃ p, down p) ∧
      (∀ p, escaped p → d.result = .exitReached ∧ d.winner = some p) ∧
      ∀ p, down p → d.result = .defeated ∧ d.winner = some p.other := by
  intro d escaped down
  have hstart : Settled (fresh arena timing scripts memory).duel.standing :=
    ⟨nofun, Arena.proper_make harena, fun p => Or.inl (hhealth p),
      fun _ p => ⟨hexit p, Combatant.defeated_of_positive (hhealth p)⟩, nofun⟩
  have h : Settled d.standing := lasting_settled.keeps_after (passive_tell hl)
    (resting_fresh arena timing scripts) hs hhs hstart
  have hdown (p : Player) : down p ↔ (d.arena.combatant p).defeated = true :=
    ((h.measured p).defeated_iff).symm
  by_cases hp : d.phase = .over
  · obtain ⟨p, hwon⟩ := h.decided hp
    cases hwon with
    | escaped hwinner hresult he hh =>
      have hnone (q : Player) : ¬ down q := by
        rw [hdown]
        exact Bool.eq_false_iff.mp (hh q)
      refine ⟨iff_of_true hp (Or.inl ⟨p, (he p).mpr rfl⟩), fun hboth => ?_, fun q hq => ?_,
        fun q hq => absurd hq (hnone q)⟩
      · obtain ⟨q, hq⟩ := hboth.2
        exact hnone q hq
      · rw [(he q).mp hq]
        exact ⟨hresult, hwinner⟩
    | defeated hwinner hresult he hh =>
      have hnone (q : Player) : ¬ escaped q := Bool.eq_false_iff.mp (he q)
      refine ⟨iff_of_true hp (Or.inr ⟨p.other, (hdown _).mpr ((hh _).mpr rfl)⟩), fun hboth => ?_,
        fun q hq => absurd hq (hnone q), fun q hq => ?_⟩
      · obtain ⟨q, hq⟩ := hboth.1
        exact hnone q hq
      · rw [(hh q).mp ((hdown q).mp hq), Player.other_other]
        exact ⟨hresult, hwinner⟩
  · have hopen := h.going hp
    have hno (q : Player) : ¬ escaped q := Bool.eq_false_iff.mp (hopen q).1
    have hup (q : Player) : ¬ down q := by
      rw [hdown]
      exact Bool.eq_false_iff.mp (hopen q).2
    refine ⟨iff_of_false hp ?_, ?_, fun q hq => absurd hq (hno q), fun q hq => absurd hq (hup q)⟩
    · rintro (⟨q, hq⟩ | ⟨q, hq⟩)
      · exact hno q hq
      · exact hup q hq
    · rintro ⟨⟨q, hq⟩, -⟩
      exact hno q hq

/-- A field without inner walls, with the exit beside the first player. -/
def exitField : Arena :=
  { openField with grid := { Grid.build 5 5 false with exit := some (.cell ⟨1, 0⟩) } }

theorem make_exitField : Arena.make exitField.grid (standing .a ⟨0, 0⟩) (standing .b ⟨4, 4⟩)
    (.whole 20) = .ok exitField :=
  rfl

theorem first_step_escapes :
    let d := ((fresh exitField { turnDelay := .whole 1 } ⟨.text "MoveRight()", .null⟩ ()).after
      .silent [.request .start, .request (.execute .a), .step, .step]).duel
    d.phase = .over ∧ d.result = .exitReached ∧ d.winner = some .a := by
  intro d
  have hmute : Mute (fun _ : Unit => []) .silent := fun _ _ _ => trivial
  have h := outcome_shows make_exitField (fun p => by cases p <;> rfl) (fun p => by cases p <;> rfl)
    { turnDelay := .whole 1 } ⟨.text "MoveRight()", .null⟩ () hmute
    [.request .start, .request (.execute .a), .step, .step]
    (by simp [Request.actsOnWorld, Request.isReport])
  exact ⟨h.1.mpr (Or.inl ⟨.a, by decide +kernel⟩), h.2.2.1 .a (by decide +kernel)⟩

end Coordinator

end MazeDuel.Turn
