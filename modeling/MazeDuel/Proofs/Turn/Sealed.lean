import MazeDuel.Proofs.Turn.Ended
import MazeDuel.Proofs.World.Footing
/-!
What the end of a match seals: it is told last, and whatever was seen of the match since then stays
as it is. At most one pickup may come late. Requests of players keep that, also those that listeners
make while they are told of something.
-/

namespace MazeDuel

namespace Turn

namespace Duel

/-- Whether an end was told and nothing, or only one pickup, after it. The pickup may come only if
the end is not strict. -/
def ToldLast (strict : Prop) (d : Duel) : Prop :=
  ∃ before n late, d.log.events = before ++ n :: late ∧ n.kind = .matchEnded ∧
    (∀ m ∈ before, m.kind ≠ .matchEnded) ∧
    (late = [] ∨ ¬ strict ∧ ∃ p powerup, late = [.powerupCollected p powerup])

/-- How a match stands some time after a moment at which it was over: as it did then, or with one
pickup more, which was told. The pickup may come only if the end is not strict. -/
inductive Afterwards (strict : Prop) (e d : Duel) : Prop where
  | same (h : SameWorld e d)
  | pickup (hs : ¬ strict) (p : Player) (powerup : Powerup)
      (hfound : (e.arena.pickUp p).value.1 = some powerup)
      (h : SameWorld { e with
        arena := (e.arena.pickUp p).value.2
        log := e.log.record (.powerupCollected p powerup) } d)

/-- What holds of the end of a match that nobody starts after it. Of the moments that were noted
down, those after the end were at most one pickup before the present. -/
structure Sealed (strict : Prop) (noted : List Duel) (d : Duel) : Prop where
  unlimited : d.log.limit = .null
  grounded : d.arena.Grounded
  untold : ¬ d.Reopened → d.phase ≠ .over → ∀ n ∈ d.log.events, n.kind ≠ .matchEnded
  last : ¬ d.Reopened → d.phase = .over → d.ToldLast strict
  kept : ∀ e ∈ noted, e.phase = .over → e.started = true ∨ ¬ d.Reopened → Afterwards strict e d

variable {strict : Prop} {noted : List Duel} {e d d' : Duel}

theorem Afterwards.over (h : Afterwards strict e d) (ho : e.phase = .over) : d.phase = .over := by
  cases h with
  | same h => exact h.phase.trans ho
  | pickup _ _ _ _ h => exact h.phase.trans ho

theorem Afterwards.started (h : Afterwards strict e d) (hs : e.started = true) :
    d.started = true := by
  cases h with
  | same h => exact h.started.trans hs
  | pickup _ _ _ _ h => exact h.started.trans hs

theorem Afterwards.trans (h : Afterwards strict e d) (h' : SameWorld d d') :
    Afterwards strict e d' := by
  cases h with
  | same h => exact .same (h.trans h')
  | pickup hs p powerup hfound h => exact .pickup hs p powerup hfound (h.trans h')

theorem Afterwards.sameWorld (h : Afterwards True e d) : SameWorld e d := by
  cases h with
  | same h => exact h
  | pickup hs => exact absurd trivial hs

theorem sealed_fresh {arena : Arena} (h : arena.Grounded) (timing : Timing) (scripts : Duo Json)
    (hn : ∀ e ∈ noted, e.phase ≠ .over) : Sealed strict noted (fresh arena timing scripts) where
  unlimited := rfl
  grounded := h
  untold _ _ _ hn := absurd hn List.not_mem_nil
  last _ := nofun
  kept e he ho := absurd ho (hn e he)

/-- Before the end of a match no noted moment is after it. -/
theorem Sealed.not_over (h : Sealed strict noted d) (hp : d.phase ≠ .over) (he : e ∈ noted)
    (ho : e.phase = .over) : ¬ (e.started = true ∨ ¬ d.Reopened) :=
  fun hs => hp ((h.kept e he ho hs).over ho)

/-- An end to come may still be strict. -/
theorem Sealed.ahead {strict' : Prop} (h : Sealed strict noted d) (hp : d.phase ≠ .over) :
    Sealed strict' noted d :=
  ⟨h.unlimited, h.grounded, h.untold, fun _ ho => absurd ho hp,
    fun _ he ho hs => absurd hs (h.not_over hp he ho)⟩

theorem Sealed.weaken (h : Sealed True noted d) : Sealed strict noted d := by
  refine ⟨h.unlimited, h.grounded, h.untold, ?_, ?_⟩
  · intro hre ho
    obtain ⟨before, n, late, heq, hn, hbefore, hlate⟩ := h.last hre ho
    refine ⟨before, n, late, heq, hn, hbefore, Or.inl ?_⟩
    exact hlate.resolve_right fun hlate => hlate.1 trivial
  · exact fun e he ho hs => .same (h.kept e he ho hs).sameWorld

theorem Sealed.idle (h : Sealed strict noted d) (hi : Idle d d') : Sealed strict noted d' := by
  refine ⟨?_, ?_, ?_, ?_, ?_⟩
  · rw [hi.log]
    exact h.unlimited
  · rw [hi.arena]
    exact h.grounded
  · rw [hi.reopened, hi.phase, hi.log]
    exact h.untold
  · unfold ToldLast
    rw [hi.reopened, hi.phase, hi.log]
    exact h.last
  · rw [hi.reopened]
    exact fun e he ho hs => (h.kept e he ho hs).trans hi.toSameWorld

/-- Before the end everything may change but the log. -/
theorem Sealed.onward (h : Sealed strict noted d) (hp : d.phase ≠ .over) (hp' : d'.phase ≠ .over)
    (hlog : d'.log = d.log) (hg : d'.arena.Grounded) (hre : d'.Reopened ↔ d.Reopened) :
    Sealed strict noted d' := by
  refine ⟨?_, hg, ?_, fun _ ho => absurd ho hp', ?_⟩
  · rw [hlog]
    exact h.unlimited
  · rw [hre, hlog]
    exact fun hn _ => h.untold hn hp
  · rw [hre]
    exact fun e he ho hs => absurd hs (h.not_over hp he ho)

/-- Before the end everything else may be told. -/
theorem Sealed.told (h : Sealed strict noted d) (hp : d.phase ≠ .over) (n : Notification)
    (hn : n.kind ≠ .matchEnded) : Sealed strict noted { d with log := d.log.record n } := by
  refine ⟨h.unlimited, h.grounded, ?_, fun _ ho => absurd ho hp, ?_⟩
  · intro hre _ m hm
    rw [EventLog.events_record d.log n h.unlimited] at hm
    rcases List.mem_append.mp hm with hm | hm
    · exact h.untold hre hp m hm
    · rw [List.mem_singleton.mp hm]
      exact hn
  · exact fun e he ho hs => absurd hs (h.not_over hp he ho)

theorem Sealed.struck (h : Sealed strict noted d) (hp : d.phase ≠ .over) (winner : Player)
    (reason : GameResult) (journal : List Record) :
    Sealed strict noted (d.struck winner reason journal) := by
  refine ⟨h.unlimited, h.grounded, fun _ ho => absurd rfl ho, ?_, ?_⟩
  · intro hre _
    refine ⟨d.log.events, .matchEnded winner winner.other reason, [], ?_, rfl, ?_, Or.inl rfl⟩
    · exact EventLog.events_record d.log _ h.unlimited
    · exact fun m hm => h.untold hre hp m hm
  · exact fun e he ho hs => absurd hs (h.not_over hp he ho)

/-- Starting a match that has ended breaks the seal; before that, starting is like anything else. -/
theorem Sealed.opened (h : Sealed strict noted d) (hs : d.started = false) (x : Logged Arena)
    (hg : x.value.Grounded) : Sealed strict noted (d.opened.setArena x) := by
  by_cases hp : d.phase = .over
  -- what was over and started cannot be started again, so nothing noted speaks of this end
  · have hre : (d.opened.setArena x).Reopened := by
      have hdeed : Deed.opened d.phase ∈ (d.opened.setArena x).deeds := List.mem_cons_self ..
      rwa [hp] at hdeed
    refine ⟨h.unlimited, hg, fun hn => absurd hre hn, fun hn => absurd hre hn, ?_⟩
    intro e he ho hstart
    have hstart := hstart.resolve_right fun hn => hn hre
    cases ((h.kept e he ho (Or.inl hstart)).started hstart).symm.trans hs
  · refine h.onward hp nofun rfl hg (reopened_cons (x := .opened d.phase) rfl ?_)
    simpa using hp

/-- The present moment may be noted down. -/
theorem Sealed.noteDown (h : Sealed strict noted d) : Sealed strict (d :: noted) d := by
  refine ⟨h.unlimited, h.grounded, h.untold, h.last, ?_⟩
  intro e he ho hs
  rcases List.mem_cons.mp he with rfl | he
  · exact .same (.refl _)
  · exact h.kept e he ho hs

/-- A pickup that is told after the end, as the first thing since. -/
theorem Sealed.late (h : Sealed True noted d) {p : Player} {powerup : Powerup}
    (hfound : (d.arena.pickUp p).value.1 = some powerup) (ho : d.phase = .over)
    (hs : ¬ strict) (journal : List Record) :
    Sealed strict noted { d with
      arena := (d.arena.pickUp p).value.2, journal
      log := d.log.record (.powerupCollected p powerup) } := by
  refine ⟨h.unlimited, h.grounded.sameFixes (Arena.sameFixes_pickUp _ _),
    fun _ hp => absurd ho hp, ?_, ?_⟩
  · intro hre _
    obtain ⟨before, n, late, heq, hn, hbefore, hlate⟩ := h.last hre ho
    obtain rfl := hlate.resolve_right fun hlate => hlate.1 trivial
    refine ⟨before, n, [.powerupCollected p powerup], ?_, hn, hbefore,
      Or.inr ⟨hs, p, powerup, rfl⟩⟩
    rw [EventLog.events_record d.log _ h.unlimited, heq]
    simp
  · intro e he heo hstart
    have hsame := (h.kept e he heo hstart).sameWorld
    have harena : (d.arena.pickUp p).value.2 = (e.arena.pickUp p).value.2 :=
      congrArg (fun a => (a.pickUp p).value.2) hsame.arena
    have hlog : d.log.record (.powerupCollected p powerup) =
        e.log.record (.powerupCollected p powerup) :=
      congrArg (EventLog.record · _) hsame.log
    exact .pickup hs p powerup (hsame.arena ▸ hfound) ⟨hsame.phase, harena, hsame.scripts, hlog,
      hsame.current, hsame.turnNumber, hsame.continuous, hsame.started⟩

theorem Sealed.steers (h : Sealed strict noted d) (hs : Steers d d') : Sealed strict noted d' := by
  by_cases ho : d.phase = .over
  · exact h.idle (hs.settled ho)
  · exact h.onward ho (hs.going ho) hs.log (hs.arena ▸ h.grounded) hs.reopened

end Duel

end Turn

end MazeDuel
