import MazeDuel.Proofs.Turn.Completed
import MazeDuel.Proofs.Turn.Terrain
/-!
What the radar knows over a whole match: of each player the fixes at the ends of the last two runs
that came to their end before the match did, whatever happened in between.
-/

namespace MazeDuel

namespace Arena

variable {p q : Player}

theorem make_fixes {grid : Grid} {a b : Combatant} {damage : Quantity} {arena : Arena}
    (h : make grid a b damage = .ok arena) (p : Player) :
    arena.fixes.get p = Fixes.fresh (arena.combatant p).fix := by
  obtain ⟨rfl, -⟩ := make_eq h
  cases p <;> rfl

/-- No action touches what the radar knows. -/
theorem keptBy_fixes (p : Player) (fixes : Duo Fixes) : KeptBy p fun a => a.fixes = fixes where
  move {a} dir h := (a.tryMove_frame p dir).2.1.trans h
  radar h := h
  shot {a} cell h := (a.shootAt_frame p cell).2.1.trans h
  pickUp {a} h := by
    unfold pickUp
    split <;> exact h

/-- The actions of a player leave the other one where they are. -/
theorem keptBy_fix (hq : q ≠ p) (fix : Fix) : KeptBy p fun a => (a.combatant q).fix = fix where
  move {a} dir h := by
    obtain ⟨-, -, hother, -⟩ := a.tryMove_frame p dir
    rw [Player.eq_other hq] at h ⊢
    rw [hother]
    exact h
  radar {a} h := ((sameFixes_radarFor a p).fix q).trans h
  shot {a} cell h := ((sameFixes_shootAt a p cell).fix q).trans h
  pickUp {a} h := ((sameFixes_pickUp a p).fix q).trans h

theorem begun_fixes (fixes : Duo Fixes) : Begun fun a => a.fixes = fixes :=
  fun _ _ h => h

theorem begun_fix (q : Player) (fix : Fix) : Begun fun a => (a.combatant q).fix = fix :=
  fun a p h => ((sameFixes_promote a p).fix q).trans h

theorem endTurn_fixes (a : Arena) (p q : Player) : (a.endTurn p).fixes.get q =
    if q = p then (a.fixes.get p).push (a.combatant p).fix else a.fixes.get q :=
  a.fixes.get_set p q _

theorem endTurn_fix (a : Arena) (p q : Player) :
    ((a.endTurn p).combatant q).fix = (a.combatant q).fix :=
  ((sameFixes_recordTurnEnd a p).trans (sameFixes_clearActive _ p)).fix q

/-- A radar question is answered with the older fix, and one with a true radar with the live fix,
and then the true radar is spent. -/
theorem radarFor_eq (a : Arena) (p : Player) :
    let x := (a.radarFor p).value
    ((a.combatant p).active.trueRadar.isPresent = false → x.1 = (a.fixes.get p.other).prev) ∧
      ((a.combatant p).active.trueRadar.isPresent = true → x.1 = (a.combatant p.other).fix ∧
        (x.2.combatant p).active.trueRadar.isPresent = false) := by
  intro x
  have hx : x = ((Radar.query (a.fixes.get p.other) (a.combatant p) (a.opponent p)).value.1,
      a.setCombatant p
        (Radar.query (a.fixes.get p.other) (a.combatant p) (a.opponent p)).value.2) := rfl
  rw [hx]
  unfold Radar.query
  constructor
  · intro hnone
    rw [if_neg (by simp [hnone])]
    rfl
  · intro hactive
    rw [if_pos hactive, combatant_setCombatant, if_pos rfl]
    unfold Radar.live Combatant.consumeTrueRadar
    rw [if_pos hactive]
    exact ⟨rfl, rfl⟩

end Arena

namespace Turn

namespace Duel

open Deed

variable {p : Player} {a a' : Arena} {deeds deeds' : List Deed}

/-- What becomes of the fixes that the radar has of a player: the player's own one is added when a
run of theirs comes to its end, and outside their runs the player does not move. -/
inductive Tracks (p : Player) (a : Arena) (deeds : List Deed) (a' : Arena) (deeds' : List Deed) :
    Prop where
  | kept (count : completions p deeds' = completions p deeds)
      (fixes : a'.fixes.get p = a.fixes.get p)
      (still : (a'.combatant p).fix = (a.combatant p).fix ∨ ∃ id, (id, p) ∈ unfinished deeds')
      (busy : ∀ id, (id, p) ∈ unfinished deeds → (id, p) ∈ unfinished deeds')
  | added (count : completions p deeds' = completions p deeds + 1)
      (fixes : a'.fixes.get p = (a.fixes.get p).push (a'.combatant p).fix)

theorem tracks_unclosed (hd : Unclosed deeds deeds') (hfixes : a'.fixes = a.fixes)
    (hfix : ∀ q, (a'.combatant q).fix = (a.combatant q).fix) (p : Player) :
    Tracks p a deeds a' deeds' :=
  .kept (hd.count p) (congrArg (Duo.get · p) hfixes) (Or.inl (hfix p)) fun _ h => hd.kept h

/-- The radar knows the fixes at the ends of a player's last two runs, and where the player is now
outside them. -/
structure Known (p : Player) (spawn : Fix) (ends : List Fix) (a : Arena) (deeds : List Deed) :
    Prop where
  slots : ∃ before, spawn :: spawn :: ends =
    before ++ [(a.fixes.get p).prev, (a.fixes.get p).last]
  live : (a.fixes.get p).last = (a.combatant p).fix ∨ ∃ id, (id, p) ∈ unfinished deeds

theorem Known.kept {spawn : Fix} {ends : List Fix} (h : Known p spawn ends a deeds)
    (ht : Tracks p a deeds a' deeds') (hcount : completions p deeds' = completions p deeds) :
    Known p spawn ends a' deeds' := by
  cases ht with
  | kept _ hfixes hstill hbusy =>
    refine ⟨hfixes ▸ h.slots, ?_⟩
    rcases hstill with hstill | hrun
    · rw [hfixes, hstill]
      exact h.live.imp_right fun ⟨id, hid⟩ => ⟨id, hbusy id hid⟩
    · exact Or.inr hrun
  | added hcount' => omega

theorem Known.added {spawn : Fix} {ends : List Fix} (h : Known p spawn ends a deeds)
    (ht : Tracks p a deeds a' deeds') (hcount : completions p deeds' = completions p deeds + 1) :
    Known p spawn (ends ++ [(a'.combatant p).fix]) a' deeds' := by
  cases ht with
  | kept hcount' => omega
  | added _ hfixes =>
    obtain ⟨before, hslots⟩ := h.slots
    refine ⟨⟨before ++ [(a.fixes.get p).prev], ?_⟩, ?_⟩
    · rw [← List.cons_append, ← List.cons_append, hslots, hfixes]
      simp [Fixes.push]
    · rw [hfixes]
      exact Or.inl rfl

end Duel

namespace Coordinator

open Duel Deed

variable {M : Type} {l : Listener M} {seen : M → List Duel} {c c' : Coordinator M}

/-- The step of a task moves nobody but the player of its run, and adds nothing to what the radar
knows but the fix of that player at the end of the run. -/
theorem tracks_runJob (hl : Fair seen l) {id : Nat} {job : Job} (h : Sole id job c.duel)
    (hj : job ≠ .caller) (p : Player) :
    Tracks p c.duel.arena c.duel.deeds (c.runJob l.tell id job).duel.arena
      (c.runJob l.tell id job).duel.deeds := by
  let after := (c.runJob l.tell id job).duel
  have hw : Work id job c.duel after := work_runJob (tells_tell l) c id job hj
  have hfixes : after.arena.fixes = (c.duel.closing job).fixes :=
    (keeping_tell hl (Arena.begun_fixes _)).runJob
      (P := fun a => a.fixes = (c.duel.closing job).fixes) (Arena.begun_fixes _)
      (fun _ _ => Arena.keptBy_fixes _ _) h.bound rfl
  have hfix (hnot : ∀ a later executed, c.duel.program? job ≠ some (p, a :: later, executed)) :
      (after.arena.combatant p).fix = ((c.duel.closing job).combatant p).fix := by
    refine (keeping_tell hl (Arena.begun_fix p _)).runJob
      (P := fun a => (a.combatant p).fix = ((c.duel.closing job).combatant p).fix)
      (Arena.begun_fix p _) ?_ h.bound rfl
    intro q a later executed hp _
    refine Arena.keptBy_fix ?_ _
    rintro rfl
    exact hnot a later executed hp
  by_cases hend : ∃ q executed, c.duel.program? job = some (q, [], executed) ∧ c.duel.phase ≠ .over
  · obtain ⟨q, executed, hp, hover⟩ := hend
    have hcompletes := h.completes hw hp hover
    have hclosing : c.duel.closing job = c.duel.arena.endTurn q := by
      simp [closing, hp, isOver, hover]
    have hstill : (after.arena.combatant p).fix = (c.duel.arena.combatant p).fix := by
      rw [hfix (by simp [hp]), hclosing, Arena.endTurn_fix]
    have hslots := c.duel.arena.endTurn_fixes q p
    rw [← hclosing, ← hfixes] at hslots
    by_cases hq : p = q
    · subst hq
      rw [if_pos rfl, ← hstill] at hslots
      exact .added hcompletes.own hslots
    · rw [if_neg hq] at hslots
      refine .kept (hcompletes.other p hq) hslots (Or.inl hstill) fun id hid => ?_
      exact absurd (hcompletes.only _ hid) hq
  · have hclosing : c.duel.closing job = c.duel.arena := by
      unfold closing
      split
      · rename_i q executed hp
        have hover : c.duel.phase = .over := by
          by_contra hover
          exact hend ⟨q, executed, hp, hover⟩
        simp [isOver, hover]
      · rfl
    have hun : Unclosed c.duel.deeds after.deeds := by
      refine hw.unclosed fun {q executed} hp => ?_
      by_contra hover
      exact hend ⟨q, executed, hp, hover⟩
    rw [hclosing] at hfixes hfix
    refine .kept (hun.count p) (congrArg (Duo.get · p) hfixes) ?_ fun _ hid => hun.kept hid
    by_cases hrun : ∃ a later executed, c.duel.program? job = some (p, a :: later, executed)
    · obtain ⟨a, later, executed, hp⟩ := hrun
      exact Or.inr ⟨id, hun.kept (h.player p (program?_own hp).1)⟩
    · exact Or.inl (hfix fun a later executed hp => hrun ⟨a, later, executed, hp⟩)

theorem tracks_step? (hl : Fair seen l) (h : Still c.duel) (hc : c.step? l.tell = some c')
    (p : Player) : Tracks p c.duel.arena c.duel.deeds c'.duel.arena c'.duel.deeds := by
  have hs : c.duel.started = true := started_of_step? h.vacant hc
  obtain ⟨t, ready, hr, hj, rfl⟩ := step?_taken l.tell hc
  let taken : Coordinator M := ⟨c.duel.taken t ready, c.memory⟩
  split
  · obtain ⟨schedule, awaited, heq⟩ := endTask_eq taken.duel t.id .cancelled
    have hdropped : Tracks p c.duel.arena c.duel.deeds (taken.duel.endTask t.id .cancelled).arena
        (taken.duel.endTask t.id .cancelled).deeds := by
      rw [heq]
      exact tracks_unclosed (.refl _) rfl (fun _ => rfl) p
    exact hdropped
  · exact tracks_runJob (c := taken) hl (h.toSolo.sole h.still hs hr) hj p

/-- One thing that happens in a match that may be closed: something that leaves the world to the
match, or the coming and going of somebody who waits for it. -/
inductive Occurs (l : Listener M) (c : Coordinator M) : Coordinator M → Prop where
  | happening (x : Happening) (hx : ∀ r, x = .request r → r.actsOnWorld = false) :
      Occurs l c (c.happen l x)
  | visit (schedule : Schedule Job) (awaited timer : Option Nat)
      (hv : Visited c.duel schedule timer) :
      Occurs l c (c.update ({ · with schedule, awaited, timer }))

/-- A history of a match, with the fixes of a player at the ends of those runs that came to their
end before the match did. -/
inductive Chronicle (l : Listener M) (p : Player) (c₀ : Coordinator M) :
    List Fix → Coordinator M → Prop where
  | start : Chronicle l p c₀ [] c₀
  | going {ends : List Fix} {c c' : Coordinator M} : Chronicle l p c₀ ends c → Occurs l c c' →
      completions p c'.duel.deeds = completions p c.duel.deeds → Chronicle l p c₀ ends c'
  | ended {ends : List Fix} {c c' : Coordinator M} : Chronicle l p c₀ ends c → Occurs l c c' →
      completions p c'.duel.deeds = completions p c.duel.deeds + 1 →
      Chronicle l p c₀ (ends ++ [(c'.duel.arena.combatant p).fix]) c'

theorem Occurs.still (ho : Occurs l c c') (h : Still c.duel) : Still c'.duel := by
  cases ho with
  | visit schedule awaited timer hv => exact h.visited hv awaited
  | happening x hx =>
    cases x with
    | request r => exact h.moves (moves_request l r c)
    | step =>
      unfold happen
      cases hs : c.step? l.tell with
      | none => exact h
      | some c' => exact still_step? (tells_tell l) h hs
    | wake =>
      unfold happen
      cases hw : c.wake? with
      | none => exact h
      | some c' => exact still_wake? h hw
    | clock now => exact h.visited (visited_clock c.duel now) c.duel.awaited

/-- Everything that happens keeps to what the radar knows of a player. -/
theorem Occurs.tracks (hl : Fair seen l) (ho : Occurs l c c') (h : Still c.duel) (p : Player) :
    Tracks p c.duel.arena c.duel.deeds c'.duel.arena c'.duel.deeds := by
  have hself : Tracks p c.duel.arena c.duel.deeds c.duel.arena c.duel.deeds :=
    tracks_unclosed (.refl _) rfl (fun _ => rfl) p
  cases ho with
  | visit schedule awaited timer hv => exact hself
  | happening x hx =>
    cases x with
    | request r =>
      have hr : r.actsOnWorld = false := hx r rfl
      have hworld {P : Arena → Prop} : r.actsOnWorld = true → ∀ p, Arena.KeptBy p P :=
        fun hw => absurd (hr.symm.trans hw) (by decide)
      refine tracks_unclosed (moves_request l r c).unclosed ?_ (fun q => ?_) p
      · exact (keeping_tell hl (Arena.begun_fixes _)).handle
          (P := fun a => a.fixes = c.duel.arena.fixes) (Arena.begun_fixes _) hworld rfl
      · exact (keeping_tell hl (Arena.begun_fix q _)).handle
          (P := fun a => (a.combatant q).fix = (c.duel.arena.combatant q).fix)
          (Arena.begun_fix q _) hworld rfl
    | step =>
      unfold happen
      cases hs : c.step? l.tell with
      | none => exact hself
      | some c' => exact tracks_step? hl h hs p
    | wake =>
      unfold happen wake?
      cases c.duel.schedule.wake? with
      | none => exact hself
      | some schedule => exact hself
    | clock now => exact hself

/-- A chronicle goes on with everything that happens. -/
theorem Chronicle.next (hl : Fair seen l) {p : Player} {c₀ : Coordinator M} {ends : List Fix}
    (hc : Chronicle l p c₀ ends c) (ho : Occurs l c c') (h : Still c.duel) :
    ∃ ends', Chronicle l p c₀ ends' c' := by
  cases ho.tracks hl h p with
  | kept hcount => exact ⟨_, hc.going ho hcount⟩
  | added hcount => exact ⟨_, hc.ended ho hcount⟩

theorem Chronicle.still {p : Player} {c₀ : Coordinator M} {ends : List Fix}
    (hc : Chronicle l p c₀ ends c) (h : Still c₀.duel) : Still c.duel := by
  induction hc with
  | start => exact h
  | going _ ho _ ih => exact ho.still ih
  | ended _ ho _ ih => exact ho.still ih

/-- What the radar knows of a player at the beginning, it knows through every chronicle. -/
theorem Chronicle.known (hl : Fair seen l) {p : Player} {c₀ : Coordinator M} {spawn : Fix}
    {ends : List Fix} (hc : Chronicle l p c₀ ends c) (h : Still c₀.duel)
    (hknown : Known p spawn [] c₀.duel.arena c₀.duel.deeds) :
    Known p spawn ends c.duel.arena c.duel.deeds := by
  induction hc with
  | start => exact hknown
  | going hc ho hcount ih => exact ih.kept (ho.tracks hl (hc.still h) p) hcount
  | ended hc ho hcount ih => exact ih.added (ho.tracks hl (hc.still h) p) hcount

/-- Every history of a match has its chronicle. -/
theorem chronicle_live (hl : Fair seen l) (p : Player) (h : Still c.duel) {es : List Episode}
    (hes : ∀ e ∈ es, e.leavesWorld) : ∃ ends, Chronicle l p c ends (c.live l es) := by
  have hgoes {x x' : Coordinator M} (ho : Occurs l x x')
      (hx : Still x.duel ∧ ∃ ends, Chronicle l p c ends x) :
      Still x'.duel ∧ ∃ ends, Chronicle l p c ends x' := by
    obtain ⟨hstill, ends, hc⟩ := hx
    exact ⟨ho.still hstill, hc.next hl ho hstill⟩
  refine And.right (a := Still (c.live l es).duel) ?_
  refine live_keeps (P := fun x => Still x.duel ∧ ∃ ends, Chronicle l p c ends x) ?_
    ⟨h, [], .start⟩
  intro x e he hx
  refine keeps_undergo (P := fun x => Still x.duel ∧ ∃ ends, Chronicle l p c ends x) ?_ ?_ ?_ ?_ hx
  · intro x x' hstep hx
    refine hgoes ?_ hx
    have ho := Occurs.happening (l := l) (c := x) .step (by simp)
    rwa [happen_step hstep] at ho
  · intro x x' hwake hx
    refine hgoes ?_ hx
    have ho := Occurs.happening (l := l) (c := x) .wake (by simp)
    rwa [happen_wake hwake] at ho
  · exact fun schedule awaited timer hv hx => hgoes (.visit schedule awaited timer hv) hx
  · rintro r rfl
    have hr : r.actsOnWorld = false := by simpa [Episode.leavesWorld] using hes _ he
    exact hgoes (.happening (.request r) fun _ heq => by cases heq; exact hr) hx

theorem known_fresh {grid : Grid} {a b : Combatant} {damage : Quantity} {arena : Arena}
    (harena : Arena.make grid a b damage = .ok arena) (p : Player) :
    Known p (arena.combatant p).fix [] arena [] := by
  have hfixes := Arena.make_fixes harena p
  refine ⟨⟨[], ?_⟩, ?_⟩
  · rw [hfixes]
    rfl
  · rw [hfixes]
    exact Or.inl rfl

/-- The radar lags behind through whole matches. Of each player it keeps the last two of two spawn
fixes and the fixes at the ends of the runs that the player has completed, and outside a run of
theirs the last one is where the player is. So while the other player runs, a radar question is
answered with the last fix but one, and with the last one if a true radar is spent on it. -/
theorem radar_lags {grid : Grid} {a b : Combatant} {damage : Quantity} {arena : Arena}
    (harena : Arena.make grid a b damage = .ok arena) (timing : Timing) (scripts : Duo Json)
    (memory : M) (hl : Fair seen l) (p : Player) :
    let c₀ := fresh arena timing scripts memory
    let spawn := (arena.combatant p).fix
    (∀ es, (∀ e ∈ es, e.leavesWorld) → ∃ ends, Chronicle l p c₀ ends (c₀.live l es)) ∧
      ∀ ends c, Chronicle l p c₀ ends c →
        let d := c.duel
        let fixes := d.arena.fixes.get p
        (∃ before, spawn :: spawn :: ends = before ++ [fixes.prev, fixes.last]) ∧
          (¬ (d.phase = .executing ∧ d.current = p) →
            ¬ (d.phase = .over ∧ ∃ id, (id, p) ∈ unfinished d.deeds) →
              fixes.last = (d.arena.combatant p).fix) ∧
          (d.phase = .executing → d.current = p.other →
            let answer := (d.arena.radarFor p.other).value
            ((d.arena.combatant p.other).active.trueRadar.isPresent = false →
                answer.1 = fixes.prev) ∧
              ((d.arena.combatant p.other).active.trueRadar.isPresent = true →
                answer.1 = fixes.last ∧
                  (answer.2.combatant p.other).active.trueRadar.isPresent = false)) := by
  intro c₀ spawn
  have hstill : Still c₀.duel := still_fresh arena timing scripts
  refine ⟨fun es hes => chronicle_live hl p hstill hes, ?_⟩
  intro ends c hc d fixes
  have hknown : Known p spawn ends d.arena d.deeds := hc.known hl hstill (known_fresh harena p)
  have hlive (hrun : ¬ (d.phase = .executing ∧ d.current = p))
      (hover : ¬ (d.phase = .over ∧ ∃ id, (id, p) ∈ unfinished d.deeds)) :
      fixes.last = (d.arena.combatant p).fix := by
    refine hknown.live.resolve_right fun ⟨id, hid⟩ => ?_
    by_cases ho : d.phase = .over
    · exact hover ⟨ho, id, hid⟩
    · obtain ⟨hbusy, hcurrent, -⟩ := (hc.still hstill).executing_of_mem hid ho
      exact hrun ⟨hbusy, hcurrent.symm⟩
  refine ⟨hknown.slots, hlive, ?_⟩
  intro hbusy hcurrent
  obtain ⟨hnone, hactive⟩ := d.arena.radarFor_eq p.other
  have hlast : fixes.last = (d.arena.combatant p).fix := by
    refine hlive (fun h => ?_) (fun h => ?_)
    · exact p.other_ne (hcurrent.symm.trans h.2)
    · cases hbusy.symm.trans h.1
  rw [Player.other_other] at hnone hactive
  refine ⟨hnone, fun h => ?_⟩
  rw [hlast]
  exact hactive h

theorem radar_misses_first_step :
    let c₀ := fresh luringField { turnDelay := .whole 1 } ⟨.text "MoveRight()", .null⟩ ()
    let es : List Episode := [.happening (.request .start), .happening (.request (.execute .a)),
      .happening .step, .happening .step, .happening .wake, .happening .step,
      .happening (.request (.execute .b))]
    let c := c₀.live .silent es
    let fixes := c.duel.arena.fixes.get .a
    (∃ ends, Chronicle .silent .a c₀ ends c ∧ ∃ before,
        (luringField.combatant .a).fix :: (luringField.combatant .a).fix :: ends =
          before ++ [fixes.prev, fixes.last]) ∧
      (c.duel.arena.radarFor .b).value.1 = fixes.prev ∧
      fixes.last = (c.duel.arena.combatant .a).fix ∧ fixes.prev.same fixes.last = false := by
  intro c₀ es c fixes
  have hmake : Arena.make luringField.grid (standing .a ⟨0, 0⟩) (standing .b ⟨4, 4⟩) (.whole 20) =
      .ok luringField := rfl
  have hfair : Fair (fun _ : Unit => []) .silent := fun _ _ _ => trivial
  obtain ⟨hlive, hknown⟩ := radar_lags hmake { turnDelay := .whole 1 }
    ⟨.text "MoveRight()", .null⟩ () hfair .a
  obtain ⟨ends, hc⟩ := hlive es (by decide)
  obtain ⟨hslots, hlast, hanswer⟩ := hknown ends c hc
  have hbusy : c.duel.phase = .executing := by decide +kernel
  have hcurrent : c.duel.current = .b := by decide +kernel
  refine ⟨⟨ends, hc, hslots⟩, ?_, hlast ?_ ?_, by decide +kernel⟩
  · exact (hanswer hbusy hcurrent).1 (by decide +kernel)
  · rintro ⟨-, h⟩
    cases hcurrent.symm.trans h
  · rintro ⟨h, -⟩
    cases hbusy.symm.trans h

end Coordinator

end Turn

end MazeDuel
