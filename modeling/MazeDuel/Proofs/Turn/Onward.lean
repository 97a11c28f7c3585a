import MazeDuel.Proofs.Turn.Rules
/-!
What a turn by the rules leaves as it was, and what it adds: within a turn its number and its player
stay the same, and the log only grows. The end of a turn counts one more and passes on.
-/

namespace MazeDuel.Turn.Standing

variable {s s' s'' : Standing}

/-- The same turn goes on, and nothing has been taken from a log that keeps everything. -/
structure Onward (s s' : Standing) : Prop where
  turnNumber : s'.turnNumber = s.turnNumber
  current : s'.current = s.current
  unlimited : s.log.limit = .null → s'.log.limit = .null
  heard : s.log.limit = .null → s.log.events <+: s'.log.events

theorem Onward.refl (s : Standing) : Onward s s := ⟨rfl, rfl, id, fun _ => List.prefix_refl _⟩

theorem Onward.trans (h : Onward s s') (h' : Onward s' s'') : Onward s s'' where
  turnNumber := h'.turnNumber.trans h.turnNumber
  current := h'.current.trans h.current
  unlimited hl := h'.unlimited (h.unlimited hl)
  heard hl := (h.heard hl).trans (h'.heard (h.unlimited hl))

theorem onward_hear (s : Standing) (n : Notification) : Onward s (s.hear n) where
  turnNumber := rfl
  current := rfl
  unlimited hl := hl
  heard hl := by
    show s.log.events <+: (s.log.record n).events
    rw [EventLog.events_record _ _ hl]
    exact List.prefix_append _ _

/-- Neither the world nor the verdict says anything about the turn. -/
theorem onward_beside (s : Standing) (arena : Arena) (phase : Phase) (winner : Option Player)
    (result : GameResult) (finished : Bool) :
    Onward s { s with arena, phase, winner, result, finished } :=
  ⟨rfl, rfl, id, fun _ => List.prefix_refl _⟩

theorem Onward.hear (h : Onward s s') (n : Notification) : Onward s (s'.hear n) :=
  h.trans (onward_hear s' n)

theorem Onward.setArena (h : Onward s s') (arena : Arena) : Onward s { s' with arena } :=
  h.trans (onward_beside s' arena _ _ _ _)

theorem Onward.finish (h : Onward s s') (winner : Player) (reason : GameResult) :
    Onward s (s'.finish winner reason) :=
  (h.hear _).trans (onward_beside _ _ _ _ _ _)

theorem Onward.arrive (h : Onward s s') (p : Player) : Onward s (s'.arrive p) := by
  have hexit {s' : Standing} (h : Onward s s') :
      Onward s (if s'.arena.atExit p then s'.finish p .exitReached else s') := by
    split
    · exact h.finish _ _
    · exact h
  unfold Standing.arrive
  rcases (s'.arena.pickUp p).value with ⟨_ | powerup, arena⟩
  · exact hexit (h.setArena arena)
  · exact hexit ((h.setArena arena).hear (.powerupCollected p powerup))

theorem Onward.shootAt {s s' : Standing} (h : Onward s s') (p : Player) (cell : Place) :
    Onward s (s'.shootAt p cell).2 := by
  unfold Standing.shootAt
  split
  · exact h.setArena _
  · dsimp only
    split
    · exact ((h.setArena _).hear _).finish _ _
    · exact (h.setArena _).hear _

theorem onward_act (s : Standing) (p : Player) (command : Command) :
    Onward s (s.act p command).2 := by
  cases command with
  | wait => exact .refl s
  | move dir =>
    have hmoved := (Onward.refl s).setArena (s.arena.tryMove p dir).value.2
    unfold Standing.act Standing.move
    dsimp only
    split
    · exact hmoved
    · unfold Standing.moved
      dsimp only
      split
      · exact hmoved.hear _
      · exact (hmoved.hear _).arrive p
  | shoot modifiers => exact ((Onward.refl s).setArena (s.arena.radarFor p).value.2).shootAt p _

/-- No action leads to another phase but the end of the match. -/
theorem act_phase (s : Standing) (p : Player) (command : Command) :
    (s.act p command).2.phase = s.phase ∨ (s.act p command).2.phase = .over := by
  have hhear (s : Standing) (n : Notification) : (s.hear n).phase = s.phase := rfl
  have hfinish (s : Standing) (winner : Player) (reason : GameResult) :
      (s.finish winner reason).phase = .over := rfl
  cases command with
  | wait => exact Or.inl rfl
  | move dir =>
    simp only [Standing.act, Standing.move, Standing.moved, Standing.arrive]
    grind
  | shoot modifiers =>
    simp only [Standing.act, Standing.shoot, Standing.shootAt]
    grind

theorem onward_run (s : Standing) (p : Player) (executed : List String) (program : List Action) :
    (∀ result, (s.run p executed program).1 = .ok result → result.player = p) ∧
      Onward s (s.run p executed program).2 := by
  induction program generalizing s executed with
  | nil =>
    refine ⟨?_, .refl s⟩
    rintro _ ⟨⟩
    rfl
  | cons a later ih =>
    have hact := onward_act s p a.command
    unfold Standing.run
    split
    · refine ⟨?_, .refl s⟩
      rintro _ ⟨⟩
      rfl
    · split
      · next hfault =>
        rw [hfault] at hact
        exact ⟨nofun, hact⟩
      · next hok =>
        rw [hok] at hact
        exact ⟨(ih _ _).1, hact.trans (ih _ _).2⟩

/-- A turn has been played: the match is over in it, or the next one has begun. -/
structure Played (p : Player) (s s' : Standing) : Prop where
  unlimited : s'.log.limit = .null
  heard : s.log.events <+: s'.log.events
  ended : s'.phase = .over → s'.turnNumber = s.turnNumber
  passed : s'.phase ≠ .over → s'.turnNumber = s.turnNumber + 1 ∧ s'.current = p.other

theorem played_play (hl : s.log.limit = .null) {p : Player} {program : List Action}
    {result : ExecutionResult} (hok : (s.play p program).1 = .ok result) :
    result.player = p ∧ Played p s (s.play p program).2 := by
  obtain ⟨hplayer, hrun⟩ := onward_run { s with phase := .executing } p [] program
  have honward := (onward_beside s s.arena .executing s.winner s.result s.finished).trans hrun
  unfold Standing.play at hok ⊢
  rcases hran : Standing.run { s with phase := .executing } p [] program with ⟨fault | result', s'⟩
  · rw [hran] at hok
    cases hok
  · rw [hran] at hok hplayer honward
    cases hok
    have hlimit := honward.unlimited hl
    have hheard := honward.heard hl
    refine ⟨hplayer result rfl, ?_⟩
    by_cases hover : s'.phase = .over
    · rw [conclude_over hover]
      exact ⟨hlimit, hheard, fun _ => honward.turnNumber, fun hgoes => absurd hover hgoes⟩
    · have hidle : Phase.idle ≠ .over := by decide
      rw [conclude_going hover]
      exact ⟨hlimit, hheard.trans ((onward_hear s' _).heard hlimit),
        fun hover => absurd hover hidle, fun _ => ⟨congrArg (· + 1) honward.turnNumber, rfl⟩⟩

end MazeDuel.Turn.Standing
