import MazeDuel.Proofs.Turn.Heard
/-!
The last word of a match: its end is told last, and its world stays as the end has left it. Every
step of a task keeps the seal. The end is strict as long as no listener ends the match while it is
told of a move: only there a step still acts on the world after listeners have been told of
something.
-/

namespace MazeDuel.Turn

namespace Coordinator

open Duel

variable {M : Type} {tell : Notification → Coordinator M → Coordinator M} {strict : Prop}
  {seen : M → List Duel} {c c' : Coordinator M}

section Actions

variable (ht : Heard strict seen tell) (h : c.Sealed strict seen) (hp : c.duel.phase ≠ .over)

include h hp

theorem sealed_radarFor (p : Player) :
    (c.onDuel (·.onArena (·.radarFor p))).2.Sealed strict seen :=
  Duel.Sealed.onward h hp hp rfl (h.grounded.sameFixes (Arena.sameFixes_radarFor _ _)) Iff.rfl

theorem sealed_tryMove (p : Player) (dir : MoveDir) :
    (c.onDuel (·.onArena (·.tryMove p dir))).2.Sealed strict seen :=
  Duel.Sealed.onward h hp hp rfl (Arena.grounded_tryMove h.grounded p dir) Iff.rfl

include ht

theorem sealed_shootAt (p : Player) (cell : Place) :
    (c.shootAt tell p cell).2.Sealed strict seen := by
  let fired := (c.onDuel (·.onArena (·.shootAt p cell))).2
  have hfired : fired.Sealed strict seen :=
    Duel.Sealed.onward h hp hp rfl (h.grounded.sameFixes (Arena.sameFixes_shootAt _ _ _)) Iff.rfl
  rcases c.shootAt_cases tell p cell with ⟨fault, -, heq⟩ | ⟨result, -, heq⟩
  · rw [heq]
    exact hfired
  · have htold : (tell (.shot result) fired).Sealed strict seen :=
      ht.sealing.told hfired hp (by simp [Notification.kind])
    rw [heq]
    dsimp only
    split
    · exact ht.sealing.endMatch htold _ _
    · exact htold

theorem sealed_invoke (a : Action) :
    (Execution.invoke (surroundings tell) c a).2.Sealed strict seen := by
  unfold Execution.invoke
  cases a.command with
  | move dir => exact sealed_tryMove h hp a.player dir
  | wait => exact h
  | shoot modifiers => exact sealed_shootAt ht (sealed_radarFor h hp a.player) hp a.player _

theorem sealed_perform (p : Player) (a : Action) :
    (Execution.perform (surroundings tell) p c a).2.Sealed strict seen := by
  have hnoted (r : Record) : (c.update (·.record r)).Sealed strict seen :=
    h.idles ⟨rfl, idle_beside⟩
  have hinvoked (r : Record) := sealed_invoke ht (hnoted r) hp a
  rcases Execution.perform_cases (surroundings tell) p c a with ⟨fault, -, heq⟩ | ⟨-, heq⟩
  · rw [heq]
    exact hinvoked _
  · rw [heq]
    exact (hinvoked _).idles ⟨rfl, idle_beside⟩

end Actions

/-- A shot leaves everybody in place, also if it ends the match. -/
theorem sameFixes_shootAt (ht : Heard strict seen tell) (hs : c.duel.started = true) (p : Player)
    (cell : Place) : c.duel.arena.SameFixes (c.shootAt tell p cell).2.duel.arena := by
  let fired := (c.onDuel (·.onArena (·.shootAt p cell))).2
  have hfired : c.duel.arena.SameFixes fired.duel.arena :=
    Arena.sameFixes_shootAt c.duel.arena p cell
  rcases c.shootAt_cases tell p cell with ⟨fault, -, heq⟩ | ⟨result, -, heq⟩
  · rw [heq]
    exact hfired
  · let told := tell (.shot result) fired
    have htold : c.duel.arena.SameFixes told.duel.arena := by
      rw [ht.spares _ fired hs]
      exact hfired
    have hstarted : told.duel.started = true :=
      (ht.tells.moves (d := fired.duel) (by simp [Notification.kind]) (.refl _)).started hs
    rw [heq]
    dsimp only
    split
    · exact (congrArg c.duel.arena.SameFixes (ht.spares.endMatch hstarted _ _)).mpr htold
    · exact htold

/-- An action in which the match may end leaves everybody in place. -/
theorem invoke_stays (ht : Heard strict seen tell) (hs : c.duel.started = true) (a : Action) :
    (Execution.invoke (surroundings tell) c a).2.duel.phase = c.duel.phase ∨
      c.duel.arena.SameFixes (Execution.invoke (surroundings tell) c a).2.duel.arena := by
  unfold Execution.invoke
  cases a.command with
  | move dir => exact Or.inl rfl
  | wait => exact Or.inl rfl
  | shoot modifiers =>
    let found := (c.onDuel (·.onArena (·.radarFor a.player))).2
    have hfound : c.duel.arena.SameFixes found.duel.arena := Arena.sameFixes_radarFor _ _
    exact Or.inr (hfound.trans (sameFixes_shootAt ht (c := found) hs a.player _))

/-- An action that has changed place or facing has not ended the match. -/
theorem perform_changed (ht : Heard strict seen tell) (hg : c.duel.arena.Grounded)
    (hs : c.duel.started = true) (hp : c.duel.phase ≠ .over) {p : Player} {a : Action}
    {before : Fix}
    (hchanged : (Execution.perform (surroundings tell) p c a).1 = .ok (some before)) :
    (Execution.perform (surroundings tell) p c a).2.duel.phase ≠ .over := by
  rcases Execution.perform_cases (surroundings tell) p c a with ⟨fault, -, heq⟩ | ⟨-, heq⟩
  · rw [heq] at hchanged
    cases hchanged
  · let noted := c.update (·.record (Execution.beforeRecord p a (c.duel.arena.combatant p).fix))
    rcases invoke_stays ht (c := noted) hs a with hstays | hfixes
    · rw [heq]
      exact hstays ▸ hp
    · have hsame :
          ((Execution.invoke (surroundings tell) noted a).2.duel.arena.combatant p).fix.same
          (c.duel.arena.combatant p).fix = true := by
        rw [hfixes.fix p]
        exact hg.same_fix p
      rw [heq] at hchanged
      cases (congrArg Except.ok (if_pos hsame)).symm.trans hchanged

theorem sealed_unfound (h : c.Sealed strict seen) {p : Player}
    (hf : (c.duel.arena.pickUp p).value.1 = none) :
    (c.onDuel (·.onArena (·.pickUp p))).2.Sealed strict seen :=
  h.idles ⟨rfl, ⟨rfl, Arena.pickUp_none hf, rfl, rfl, rfl, rfl, rfl, rfl⟩, Iff.rfl⟩

/-- What is found after a move is told, also if the match has just ended. -/
theorem sealed_found (ht : Heard strict seen tell) (h : c.Sealed True seen)
    (hstrict : strict → c.duel.phase ≠ .over) {p : Player} {powerup : Powerup}
    (hf : (c.duel.arena.pickUp p).value.1 = some powerup) :
    (tell (.powerupCollected p powerup) (c.onDuel (·.onArena (·.pickUp p))).2).Sealed strict
      seen := by
  by_cases ho : c.duel.phase = .over
  -- the one thing that can come after the end
  · exact ht.sealing strict _ _ (Duel.Sealed.late h hf ho (fun hs => hstrict hs ho) _)
  · have hg := h.grounded.sameFixes (Arena.sameFixes_pickUp _ p)
    have hpicked : (c.onDuel (·.onArena (·.pickUp p))).2.Sealed strict seen :=
      Duel.Sealed.onward (Duel.Sealed.weaken h) ho ho rfl hg Iff.rfl
    exact ht.sealing.told hpicked ho (by simp [Notification.kind])

theorem sealed_onMoved (ht : Heard strict seen tell) (h : c.Sealed strict seen)
    (hs : c.duel.started = true) (hp : c.duel.phase ≠ .over) (p : Player) (before : Fix) :
    (c.onMoved tell p before).Sealed strict seen := by
  -- strictly, whatever is asked of the whole step: listeners pick nothing up themselves
  have htold : (tell (.positionMoved p before) c).Sealed True seen :=
    ht.sealing.told (Duel.Sealed.ahead h hp) hp (by simp [Notification.kind])
  have hexit {c : Coordinator M} (h : c.Sealed strict seen) :
      (if c.duel.arena.atExit p then c.reportExited tell p else c).Sealed strict seen := by
    split
    · exact ht.sealing.endMatch h _ _
    · exact h
  unfold onMoved
  dsimp only
  split
  · exact Duel.Sealed.weaken htold
  · split
    · rename_i hf
      exact hexit (sealed_found ht htold (fun hstrict => ht.patient hstrict p before c hs hp) hf)
    · rename_i hf
      exact hexit (sealed_unfound (Duel.Sealed.weaken htold) hf)

theorem sealed_flipTurn (ht : Heard strict seen tell) (h : c.Sealed strict seen)
    (hp : c.duel.phase ≠ .over) : (c.flipTurn tell).Sealed strict seen := by
  have hg := h.grounded.sameFixes (Arena.sameFixes_promote _ c.duel.passTurn.current)
  unfold flipTurn tellTurn
  refine ht.sealing.told ?_ ?_ ?_
  · exact Duel.Sealed.onward h hp hp rfl hg Iff.rfl
  · exact hp
  · simp [Notification.kind]

theorem sealed_finishRun (ht : Heard strict seen tell) (h : c.Sealed strict seen)
    (hp : c.duel.phase ≠ .over) (id : Nat) (result : ExecutionResult) :
    (c.finishRun tell id result).Sealed strict seen := by
  let cleared : Coordinator M :=
    (((c.update ({ · with lastExecution := some result })).update fun d =>
      d.setArena (d.arena.recordTurnEnd result.player)).update fun d =>
        d.setArena (d.arena.clearActive result.player))
  have hcleared : cleared.Sealed strict seen := by
    refine Duel.Sealed.onward h hp hp rfl ?_ Iff.rfl
    exact h.grounded.sameFixes
      ((Arena.sameFixes_recordTurnEnd _ result.player).trans (Arena.sameFixes_clearActive _ _))
  have hclose := cleared.duel.steers_closeRun id
  have hflipped : ((cleared.update (·.closeRun id)).flipTurn tell).Sealed strict seen :=
    sealed_flipTurn ht (hcleared.steers hclose) (hclose.going hp)
  unfold finishRun
  dsimp only
  rw [if_neg (by simpa [update, isOver] using hp)]
  split
  · refine Sealed.update (hflipped.update ?_) (idle_rest _ _ _ _)
    exact idle_remember _ (by simp)
  · exact (hflipped.steers (steers_beginTurn _)).update (idle_endTask _ _ _)

theorem sealed_carryOut (ht : Heard strict seen tell) (h : c.Sealed strict seen)
    (hs : c.duel.started = true) (hp : c.duel.phase ≠ .over) (p : Player) (a : Action) :
    (c.carryOut tell p a).2.Sealed strict seen := by
  have hperformed := sealed_perform ht h hp p a
  have hstarted : (Execution.perform (surroundings tell) p c a).2.duel.started = true :=
    (moves_performed ht.tells p a (.refl _)).started hs
  have hgoing {before : Fix}
      (hchanged : (Execution.perform (surroundings tell) p c a).1 = .ok (some before)) :=
    perform_changed ht h.grounded hs hp hchanged
  unfold carryOut
  generalize Execution.perform (surroundings tell) p c a = x at *
  rcases x with ⟨fault | _ | before, performed⟩
  · exact hperformed
  · exact hperformed
  -- a shot that ends the match moves nobody, so `onMoved` never starts after the end
  · exact sealed_onMoved ht hperformed hstarted (hgoing rfl) p before

theorem sealed_act (ht : Heard strict seen tell) (h : c.Sealed strict seen)
    (hs : c.duel.started = true) (hp : c.duel.phase ≠ .over) (id : Nat) (p : Player)
    (executed : List String) (rest : List Action) :
    (c.act tell id p executed rest).Sealed strict seen := by
  cases rest with
  | nil => exact sealed_finishRun ht h hp id _
  | cons a later =>
    let began := c.update fun d => d.remember (.began id a d.phase d.current)
    have hbegan : began.Sealed strict seen := h.update (idle_remember _ nofun)
    have hdone := sealed_carryOut ht hbegan hs hp p a
    rw [act_cons hp]
    generalize began.carryOut tell p a = done at *
    obtain ⟨fault | _, after⟩ := done
    · exact hdone.update (idle_endTask _ _ _)
    · exact hdone.update (idle_rest _ _ _ _)

theorem sealed_beginRun (ht : Heard strict seen tell) (h : c.Sealed strict seen)
    (hs : c.duel.started = true) (hp : c.duel.phase ≠ .over) (id : Nat) (p : Player) :
    (c.beginRun tell id p).Sealed strict seen := by
  unfold beginRun
  dsimp only
  have hread : (c.update fun d => { d with
      journal := (Script.parseGiven p (c.duel.scripts.get p)).records.reverse ++
        d.journal }).Sealed strict seen :=
    h.idles ⟨rfl, idle_beside⟩
  split
  · exact hread.update (idle_endTask _ _ _)
  · refine sealed_act ht (hread.update ?_) ?_ ?_ id p [] _
    · exact idle_note _ _ _
    · exact hs
    · exact hp

theorem sealed_onTimeout (ht : Heard strict seen tell) (h : c.Sealed strict seen)
    (hp : c.duel.phase ≠ .over) : (c.onTimeout tell).Sealed strict seen := by
  have hfire := c.duel.steers_fire (e := .timeout) nofun
  unfold onTimeout
  rcases c.duel.fire_cases .timeout with ⟨-, m, hf⟩ | ⟨phase, m, hn, hf⟩
  · simp only [onDuel, hf]
    exact h.idles ⟨rfl, idle_note _ _ _⟩
  · rw [hf] at hfire
    simp only [onDuel, hf]
    have hfired : Sealed strict seen ⟨{ c.duel.note .debug m with phase }, c.memory⟩ :=
      Duel.Sealed.steers h hfire
    refine (sealed_flipTurn ht (hfired.update ?_) ?_).steers (steers_beginTurn _)
    · exact idle_note _ _ _
    · exact hfire.going hp

theorem sealed_runJob (ht : Heard strict seen tell) (h : c.Sealed strict seen)
    (hs : c.duel.started = true) (hp : c.duel.phase ≠ .over) (id : Nat) (job : Job) :
    (c.runJob tell id job).Sealed strict seen := by
  cases job with
  | caller => exact h
  | begin p => exact sealed_beginRun ht h hs hp id p
  | act p rest executed => exact sealed_act ht h hs hp id p executed rest
  | pause result =>
    refine ((h.update ?_).steers (steers_beginTurn _)).update (idle_endTask _ _ _)
    exact idle_remember _ nofun
  | timer =>
    unfold runJob
    dsimp only
    split
    · exact h.update (idle_endTask _ _ _)
    · exact h.update (idle_rest _ _ _ _)
  | tick passed total =>
    have hcounted : (c.update fun d =>
        { d with remaining := d.timing.remaining passed }).Sealed strict seen :=
      h.idles ⟨rfl, idle_beside⟩
    unfold runJob
    dsimp only
    split
    · exact hcounted.update (idle_rest _ _ _ _)
    · exact (sealed_onTimeout ht hcounted hp).update (idle_endTask _ _ _)

/-- A step keeps the seal. -/
theorem sealed_step? (ht : Heard strict seen tell) (h : c.Sealed strict seen)
    (hs : c.duel.started = true) (hc : c.step? tell = some c') : c'.Sealed strict seen := by
  by_cases ho : c.duel.phase = .over
  · exact h.idles (idles_step?_over tell ho hc)
  · obtain ⟨t, ready, -, -, rfl⟩ := step?_eq tell hc
    have htaken : Sealed strict seen ⟨c.duel.taken t ready, c.memory⟩ :=
      h.idles ⟨rfl, idle_beside⟩
    unfold runTask
    dsimp only
    refine Sealed.idles ?_ (idles_update (idle_beside))
    split
    · exact htaken.update (idle_endTask _ _ _)
    · exact sealed_runJob ht htaken hs ho t.id t.job

end Coordinator

end MazeDuel.Turn
