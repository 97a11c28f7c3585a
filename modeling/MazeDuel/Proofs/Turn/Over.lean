import MazeDuel.Proofs.Turn.History
/-!
The end of a match: that it stays, and that everything which tells of it agrees. Both hold unless
the match is started after it has ended, which gives the turn to the first player again.
-/

namespace MazeDuel.Turn

namespace Duel

/-- Whether the match was started when it was over already. -/
def Reopened (d : Duel) : Prop := Deed.opened .over ∈ d.deeds

/-- How often an end of the match was told. -/
def ends (d : Duel) : Nat := d.log.events.countP (·.kind == .matchEnded)

/-- Phase, winner, result and announcement agree on whether the match has ended. -/
def Decided (d : Duel) : Prop :=
  (d.phase = .over ↔ d.winner.isSome) ∧ (d.phase = .over ↔ d.result ≠ .inProgress) ∧
    (d.phase = .over ↔ d.finished = true)

/-- How a match stands after its end, compared with another moment. -/
structure SameEnd (d d' : Duel) : Prop where
  phase : d'.phase = .over
  winner : d'.winner = d.winner
  result : d'.result = d.result
  current : d'.current = d.current
  turnNumber : d'.turnNumber = d.turnNumber

/-- What is known of an end at any time. A match that was started again has a winner, whether or not
it ends once more. -/
structure Ending (d : Duel) : Prop where
  unlimited : d.log.limit = .null
  agree : d.winner.isSome ↔ d.result ≠ .inProgress
  won : d.phase = .over → d.winner.isSome
  undecided : ¬ d.Reopened → d.phase ≠ .over → d.winner = none ∧ d.ends = 0
  once : ¬ d.Reopened → d.phase = .over → d.ends = 1
  again : d.Reopened → d.started = true ∧ d.winner.isSome ∧ 1 ≤ d.ends
  twice : d.Reopened → d.phase = .over → 2 ≤ d.ends

theorem ending_fresh (arena : Arena) (timing : Timing) (scripts : Duo Json) :
    Ending (fresh arena timing scripts) where
  unlimited := rfl
  agree := by simp [fresh]
  won := nofun
  undecided _ _ := ⟨rfl, rfl⟩
  once _ := nofun
  again := nofun
  twice := nofun

theorem ends_record (d : Duel) (n : Notification) (h : d.log.limit = .null) :
    ends { d with log := d.log.record n } =
      d.ends + if n.kind = .matchEnded then 1 else 0 := by
  unfold ends
  rw [EventLog.events_record d.log n h, List.countP_append]
  simp

/-- The end does not depend on the rest of a match; before it, it does not depend on the phase. -/
theorem Ending.of_eq {d d' : Duel} (h : Ending d) (hlog : d'.log = d.log)
    (hphase : d'.phase = d.phase ∨ d.phase ≠ .over ∧ d'.phase ≠ .over)
    (hwinner : d'.winner = d.winner) (hresult : d'.result = d.result)
    (hstarted : d'.started = d.started) (hdeeds : d'.Reopened ↔ d.Reopened) : Ending d' := by
  have hends : d'.ends = d.ends := by
    unfold ends
    rw [hlog]
  have hover : d'.phase = .over ↔ d.phase = .over := by
    rcases hphase with hp | ⟨hp, hp'⟩
    · rw [hp]
    · exact iff_of_false hp' hp
  refine ⟨hlog ▸ h.unlimited, ?_, ?_, ?_, ?_, ?_, ?_⟩
  · rw [hwinner, hresult]
    exact h.agree
  · rw [hover, hwinner]
    exact h.won
  · rw [hdeeds, ne_eq, hover, hwinner, hends]
    exact h.undecided
  · rw [hdeeds, hover, hends]
    exact h.once
  · rw [hdeeds, hstarted, hwinner, hends]
    exact h.again
  · rw [hdeeds, hover, hends]
    exact h.twice

theorem reopened_cons {d d' : Duel} {x : Deed} (hd : d'.deeds = x :: d.deeds)
    (hx : x ≠ .opened .over) : d'.Reopened ↔ d.Reopened := by
  unfold Reopened
  rw [hd, List.mem_cons]
  exact or_iff_right hx.symm

/-- Starting a match that has ended is the one way to open it again. -/
theorem Ending.opening {d : Duel} (h : Ending d) (hs : d.started = false) (arena : Arena)
    (journal : List Record) : Ending { d.opened with arena, journal }.startTimer := by
  have hnot : ¬ d.Reopened := fun hr => by simp [(h.again hr).1] at hs
  by_cases hp : d.phase = .over
  · have hagain : { d.opened with arena, journal }.startTimer.Reopened := by
      have hdeed : Deed.opened d.phase ∈ { d.opened with arena, journal }.startTimer.deeds :=
        List.mem_cons_of_mem _ (List.mem_cons_self ..)
      rw [hp] at hdeed
      exact hdeed
    exact ⟨h.unlimited, h.agree, nofun, fun hn => absurd hagain hn, fun hn => absurd hagain hn,
      fun _ => ⟨rfl, h.won hp, Nat.le_of_eq (h.once hnot hp).symm⟩, fun _ => nofun⟩
  · have hsame : { d.opened with arena, journal }.startTimer.Reopened ↔ d.Reopened := by
      have hopened : d.opened.Reopened ↔ d.Reopened := by
        refine reopened_cons (x := .opened d.phase) rfl ?_
        simpa using hp
      refine (reopened_cons (d := d.opened) rfl ?_).trans hopened
      nofun
    have hnot' := mt hsame.mp hnot
    obtain ⟨hw, he⟩ := h.undecided hnot hp
    exact ⟨h.unlimited, h.agree, nofun, fun _ _ => ⟨hw, he⟩, fun _ => nofun,
      fun hr => absurd hr hnot', fun hr => absurd hr hnot'⟩

theorem Ending.struck {d : Duel} (h : Ending d) (winner : Player) {reason : GameResult}
    (journal : List Record) (hp : d.phase ≠ .over) (hr : reason ≠ .inProgress) :
    Ending (d.struck winner reason journal) := by
  have hends : (d.struck winner reason journal).ends = d.ends + 1 :=
    ends_record d (.matchEnded winner winner.other reason) h.unlimited
  have hsame : (d.struck winner reason journal).Reopened ↔ d.Reopened := Iff.rfl
  refine ⟨h.unlimited, iff_of_true rfl hr, fun _ => rfl, fun _ ho => absurd rfl ho, ?_, ?_, ?_⟩
  · intro hn _
    rw [hends, (h.undecided (mt hsame.mpr hn) hp).2]
  · intro ha
    exact ⟨(h.again (hsame.mp ha)).1, rfl, by omega⟩
  · intro ha _
    have := (h.again (hsame.mp ha)).2.2
    omega

theorem Ending.move {d d' : Duel} (hm : Move d d') (h : Ending d) : Ending d' := by
  cases hm with
  | quiet arena remaining last journal =>
    exact h.of_eq rfl (Or.inl rfl) rfl rfl rfl Iff.rfl
  | told n hn =>
    have hends : ends { d with log := d.log.record n } = d.ends := by
      rw [ends_record d n h.unlimited, if_neg hn]
      rfl
    exact ⟨h.unlimited, h.agree, h.won, hends ▸ h.undecided, hends ▸ h.once, hends ▸ h.again,
      hends ▸ h.twice⟩
  | script script hp => exact h.of_eq rfl (Or.inl rfl) rfl rfl rfl (reopened_cons rfl nofun)
  | edit phase hp hp' =>
    refine h.of_eq rfl (Or.inr ⟨?_, ?_⟩) rfl rfl rfl Iff.rfl
    · rcases hp with hp | hp <;> rw [hp] <;> decide
    · rcases hp' with rfl | rfl <;> nofun
  | mode continuous hp => exact h.of_eq rfl (Or.inl rfl) rfl rfl rfl Iff.rfl
  | accept hs hp =>
    refine h.of_eq rfl (Or.inr ⟨?_, nofun⟩) rfl rfl rfl (reopened_cons rfl nofun)
    rcases hp with hp | hp <;> rw [hp] <;> decide
  | opening arena journal hs => exact h.opening hs arena journal

theorem Ending.moves {d d' : Duel} (hm : Moves d d') (h : Ending d) : Ending d' := by
  refine hm.keeps Ending.move ?_ ?_ h
  · intro d winner reason journal hp hr h
    exact h.struck winner journal hp hr
  · intro d h
    exact h.of_eq rfl (Or.inl rfl) rfl rfl rfl Iff.rfl

theorem Ending.goes {d d' : Duel} (hg : Goes d d') (h : Ending d) : Ending d' := by
  refine hg.keeps_apart Ending.moves ?_ ?_ ?_ ?_ ?_ h
  · intro d schedule running awaited outcomes h
    exact h.of_eq rfl (Or.inl rfl) rfl rfl rfl Iff.rfl
  · intro d x hx h
    exact h.of_eq rfl (Or.inl rfl) rfl rfl rfl (reopened_cons rfl (hx .over))
  · intro d hp h
    exact h.of_eq rfl (Or.inr ⟨hp, nofun⟩) rfl rfl rfl Iff.rfl
  · intro d hp h
    exact h.of_eq rfl (Or.inl rfl) rfl rfl rfl Iff.rfl
  · intro d hp h
    exact h.of_eq rfl (Or.inl rfl) rfl rfl rfl (reopened_cons rfl nofun)

theorem SameEnd.trans {d d' d'' : Duel} (h : SameEnd d d') (h' : SameEnd d' d'') :
    SameEnd d d'' :=
  ⟨h'.phase, h'.winner.trans h.winner, h'.result.trans h.result, h'.current.trans h.current,
    h'.turnNumber.trans h.turnNumber⟩

theorem SameEnd.move {d e e' : Duel} (hm : Move e e') (h : e.Reopened ∨ SameEnd d e) :
    e'.Reopened ∨ SameEnd d e' := by
  rcases h with h | h
  · exact Or.inl (hm.moves.deeds.subset h)
  · cases hm with
    | quiet arena remaining last journal => exact Or.inr ⟨h.1, h.2, h.3, h.4, h.5⟩
    | told n hn => exact Or.inr ⟨h.1, h.2, h.3, h.4, h.5⟩
    | script script hp => rcases hp with hp | hp <;> cases hp.symm.trans h.phase
    | edit phase hp hp' => rcases hp with hp | hp <;> cases hp.symm.trans h.phase
    | mode continuous hp => exact absurd h.phase hp
    | accept hs hp => rcases hp with hp | hp <;> cases hp.symm.trans h.phase
    | opening arena journal hs =>
      refine Or.inl ?_
      have hdeed : Deed.opened e.phase ∈ { e.opened with arena, journal }.startTimer.deeds :=
        List.mem_cons_of_mem _ (List.mem_cons_self ..)
      rw [h.phase] at hdeed
      exact hdeed

theorem SameEnd.moves {d e e' : Duel} (hm : Moves e e') (h : e.Reopened ∨ SameEnd d e) :
    e'.Reopened ∨ SameEnd d e' := by
  refine hm.keeps (P := fun e => e.Reopened ∨ SameEnd d e) SameEnd.move ?_ ?_ h
  · intro e winner reason journal hp hr h
    exact h.imp id fun h => absurd h.phase hp
  · intro e h
    exact h.imp id fun h => ⟨h.1, h.2, h.3, h.4, h.5⟩

theorem SameEnd.goes {d e e' : Duel} (hg : Goes e e') (h : e.Reopened ∨ SameEnd d e) :
    e'.Reopened ∨ SameEnd d e' := by
  refine hg.keeps_apart (P := fun e => e.Reopened ∨ SameEnd d e) SameEnd.moves ?_ ?_ ?_ ?_ ?_ h
  · intro e schedule running awaited outcomes h
    exact h.imp id fun h => ⟨h.1, h.2, h.3, h.4, h.5⟩
  · intro e x hx h
    exact h.imp (List.mem_cons_of_mem _) fun h => ⟨h.1, h.2, h.3, h.4, h.5⟩
  · intro e hp h
    exact h.imp id fun h => absurd h.phase hp
  · intro e hp h
    exact h.imp id fun h => absurd h.phase hp
  · intro e hp h
    refine h.imp (List.mem_cons_of_mem _) fun h => ?_
    rcases hp with hp | hp <;> cases hp.symm.trans h.phase

theorem Moves.winner {d d' : Duel} (h : Moves d d') (hw : d.winner.isSome) : d'.winner.isSome := by
  refine h.keeps (P := fun e => e.winner.isSome) ?_ ?_ ?_ hw
  · intro e e' hm he
    cases hm <;> exact he
  · intro e winner reason journal hp hr he
    rfl
  · intro e he
    exact he

/-- The end is announced to everyone as soon as all moves that follow from it are made. -/
theorem Moves.finished {d d' : Duel} (h : Moves d d') (hf : d.finished = d.winner.isSome) :
    d'.finished = d'.winner.isSome := by
  induction h with
  | refl => exact hf
  | move _ hm ih =>
    have hd := ih hf
    cases hm <;> exact hd
  | ended winner reason journal _ hp hr hm ih ih' =>
    exact (hm.winner rfl).symm

theorem finished_goes {d d' : Duel} (hg : Goes d d') (hf : d.finished = d.winner.isSome) :
    d'.finished = d'.winner.isSome := by
  refine hg.keeps_apart (P := fun e => e.finished = e.winner.isSome) ?_ ?_ ?_ ?_ ?_ ?_ hf
  · exact fun hm he => hm.finished he
  · exact fun _ _ _ _ he => he
  · exact fun _ he => he
  · exact fun _ he => he
  · exact fun _ he => he
  · exact fun _ he => he

/-- What is told of an end agrees, and an end is told once, unless the match was started again. -/
theorem Ending.decided_iff {d : Duel} (h : Ending d) (hf : d.finished = d.winner.isSome) :
    ¬ d.Reopened ↔ d.Decided ∧ d.ends ≤ 1 := by
  constructor
  · intro hn
    by_cases hp : d.phase = .over
    · have hw := h.won hp
      exact ⟨⟨iff_of_true hp hw, iff_of_true hp (h.agree.mp hw), iff_of_true hp (hf.trans hw)⟩,
        Nat.le_of_eq (h.once hn hp)⟩
    · obtain ⟨hw, he⟩ := h.undecided hn hp
      have hw' : ¬ d.winner.isSome := by simp [hw]
      exact ⟨⟨iff_of_false hp hw', iff_of_false hp (mt h.agree.mpr hw'),
        iff_of_false hp (hf ▸ hw')⟩, by omega⟩
  · rintro ⟨hdecided, hends⟩ hr
    have hp : d.phase = .over := hdecided.1.mpr (h.again hr).2.1
    have := h.twice hr hp
    omega

end Duel

namespace Coordinator

open Duel

variable {M : Type} (l : Listener M)

theorem sameEnd_after (c : Coordinator M) (hs : List Happening) (hp : c.duel.phase = .over)
    (hn : ¬ (c.after l hs).duel.Reopened) : SameEnd c.duel (c.after l hs).duel := by
  have hkept : (c.after l hs).duel.Reopened ∨ SameEnd c.duel (c.after l hs).duel :=
    after_keeps (P := fun e => e.Reopened ∨ SameEnd c.duel e) SameEnd.goes l c hs
      (Or.inr ⟨hp, rfl, rfl, rfl, rfl⟩)
  exact hkept.resolve_left hn

/-- The end of a match is final as long as nobody starts the match after it: phase, winner, result
and announcement agree, the end is told at most once, and whatever happens later leaves the phase,
the winner, the result, the player to move and the number of the turn as they are. Starting a match
that has ended breaks it: then they disagree, or the end is told again. -/
theorem over_terminal (arena : Arena) (timing : Timing) (scripts : Duo Json) (memory : M)
    (hs hs' : List Happening) :
    let d := ((fresh arena timing scripts memory).after l hs).duel
    let d' := ((fresh arena timing scripts memory).after l (hs ++ hs')).duel
    (¬ d.Reopened ↔ d.Decided ∧ d.ends ≤ 1) ∧
      (¬ d'.Reopened → d.phase = .over → SameEnd d d') := by
  intro d d'
  have hending : Ending d := after_keeps Ending.goes l _ hs (ending_fresh arena timing scripts)
  have hfinished : d.finished = d.winner.isSome :=
    after_keeps (P := fun e => e.finished = e.winner.isSome) finished_goes l _ hs rfl
  refine ⟨hending.decided_iff hfinished, ?_⟩
  intro hn hp
  have heq : d' = (((fresh arena timing scripts memory).after l hs).after l hs').duel :=
    congrArg Coordinator.duel (after_append l _ hs hs')
  rw [heq] at hn ⊢
  exact sameEnd_after l _ hs' hp hn

theorem lost_stays_over :
    SameEnd (fieldMatch.after .silent [.request .start, .request (.lost .a)]).duel
      (fieldMatch.after .silent ([.request .start, .request (.lost .a)] ++
        [.request .start, .request (.execute .a), .step, .request (.exited .a)])).duel :=
  (over_terminal .silent openField { turnDelay := .whole 1 } ⟨.null, .null⟩ ()
    [.request .start, .request (.lost .a)] _).2 (by unfold Reopened; decide +kernel)
    (by decide +kernel)

/-- A player who has lost before the match is started can still be given a turn. -/
theorem start_after_end :
    let d := (fieldMatch.after .silent [.request (.lost .a), .request .start]).duel
    d.phase = .idle ∧ d.winner = some .b ∧ d.finished = true := by
  decide

end Coordinator

end MazeDuel.Turn
