import MazeDuel.Proofs.Turn.Alternation
import MazeDuel.Proofs.Turn.Ledger
/-!
Uses of pickups over a whole match: every pickup that is used was collected in an earlier turn, and
every pickup that was collected lay on the grid before. A ledger holds what the log does not tell.
-/

namespace MazeDuel

namespace Notification

/-- The pickup that is told of, and whose it is. -/
def pickup? : Notification → Option (Player × Powerup)
  | powerupCollected p kind => some (p, kind)
  | _ => none

/-- The pickups that were told of, in order. -/
def pickups (events : List Notification) : List (Player × Powerup) := events.filterMap pickup?

/-- What was told up to the beginning of the turn as it is. -/
def beforeTurn (events : List Notification) : List Notification :=
  (events.reverse.dropWhile fun n => n.turn?.isNone).reverse

theorem pickups_append (events : List Notification) (n : Notification) :
    pickups (events ++ [n]) = pickups events ++ n.pickup?.toList := by
  unfold pickups
  rw [List.filterMap_append]
  cases n <;> rfl

theorem beforeTurn_append (events : List Notification) (n : Notification) :
    beforeTurn (events ++ [n]) = if n.turn?.isSome then events ++ [n] else beforeTurn events := by
  unfold beforeTurn
  rw [List.reverse_append]
  cases h : n.turn? <;> simp [h]

end Notification

namespace Turn

open Notification

/-- The books of a match balance: pickups go from the grid to the players, and are used no sooner
than in the turn after. Outside runs nothing is queued for the player to move, and the other player
has kept something only from a turn that ran out of time. -/
structure Standing.Balanced (initial : Powerup → Nat) (ledger : Ledger) (s : Standing) : Prop where
  unlimited : s.log.limit = .null
  grid : ∀ k, s.arena.grid.countOf k + (pickups s.log.events).countP (·.2 == k) = initial k
  earlier : ∀ p k, ledger.uses.count (p, k) + (s.arena.wields p k).toNat ≤
    (pickups (beforeTurn s.log.events)).count (p, k)
  collected : ∀ p k, ledger.uses.count (p, k) + (s.arena.wields p k).toNat +
    (s.arena.queues p k).toNat ≤ (pickups s.log.events).count (p, k)
  queued : s.started = true → s.Askable → ∀ k, s.arena.queues s.current k = false
  kept : s.started = true → s.Askable → ∀ k, s.arena.wields s.current.other k = true →
    ∃ n, s.turnNumber = n + 1 ∧ n ∈ ledger.expired
  bare : s.started = false → ∀ p k, s.arena.queues p k = false ∧ s.arena.wields p k = false

namespace Standing

variable {initial : Powerup → Nat} {ledger : Ledger} {s : Standing} {p : Player}

theorem Balanced.hear (h : s.Balanced initial ledger) {n : Notification} (ht : n.turn? = none)
    (hp : n.pickup? = none) : (s.hear n).Balanced initial ledger := by
  have hpickups : pickups (s.hear n).log.events = pickups s.log.events := by
    rw [events_hear h.unlimited, pickups_append, hp]
    simp
  have hbefore : beforeTurn (s.hear n).log.events = beforeTurn s.log.events := by
    rw [events_hear h.unlimited, beforeTurn_append, ht]
    rfl
  refine ⟨h.unlimited, ?_, ?_, ?_, h.queued, h.kept, h.bare⟩
  · rw [hpickups]
    exact h.grid
  · rw [hbefore]
    exact h.earlier
  · rw [hpickups]
    exact h.collected

/-- Another arena with the same pickups on its grid, where nobody has more than before. -/
theorem Balanced.setArena (h : s.Balanced initial ledger) {arena : Arena}
    (hgrid : arena.grid = s.arena.grid) (hqueues : ∀ q k, arena.queues q k = s.arena.queues q k)
    (uses : List (Player × Powerup)) (huses : ∀ q k,
      uses.count (q, k) + (arena.wields q k).toNat ≤ (s.arena.wields q k).toNat) :
    Balanced initial ⟨uses ++ ledger.uses, ledger.expired⟩ { s with arena } := by
  have hwields (q : Player) (k : Powerup) (hk : arena.wields q k = true) :
      s.arena.wields q k = true := by
    have hle := huses q k
    rw [hk] at hle
    cases hw : s.arena.wields q k with
    | true => rfl
    | false => simp [hw] at hle
  refine ⟨h.unlimited, ?_, ?_, ?_, ?_, ?_, ?_⟩
  · intro k
    show arena.grid.countOf k + _ = _
    rw [hgrid]
    exact h.grid k
  · intro q k
    have hle := h.earlier q k
    have hused := huses q k
    show (uses ++ ledger.uses).count (q, k) + (arena.wields q k).toNat ≤
      (pickups (beforeTurn s.log.events)).count (q, k)
    rw [List.count_append]
    omega
  · intro q k
    have hle := h.collected q k
    have hused := huses q k
    show (uses ++ ledger.uses).count (q, k) + (arena.wields q k).toNat +
      (arena.queues q k).toNat ≤ (pickups s.log.events).count (q, k)
    rw [List.count_append, hqueues]
    omega
  · exact fun hs ha k => (hqueues s.current k).trans (h.queued hs ha k)
  · exact fun hs ha k hk => h.kept hs ha k (hwields _ k hk)
  · intro hs q k
    refine ⟨(hqueues q k).trans (h.bare hs q k).1, Bool.eq_false_iff.mpr fun hk => ?_⟩
    cases (h.bare hs q k).2.symm.trans (hwields q k hk)

theorem Balanced.attempt (h : s.Balanced initial ledger) (p : Player) (command : Command) :
    Balanced initial ⟨s.arena.usedIn p command ++ ledger.uses, ledger.expired⟩
      (s.attempt p command) :=
  h.setArena (s.arena.grid_attempt p command) (s.arena.queues_attempt p command) _ fun q k =>
    Nat.le_of_eq (s.arena.count_usedIn p command q k)

theorem Balanced.fire (h : s.Balanced initial ledger) (p : Player) (cell : Place) :
    (s.fire p cell).Balanced initial ledger := by
  have hsame := s.arena.samePowers_shootAt p cell
  have harena : Balanced initial ledger { s with arena := (s.arena.shootAt p cell).value.2 } :=
    h.setArena (s.arena.shootAt_frame p cell).1 hsame.queues [] fun q k => by
      rw [hsame.wields]
      simp
  rcases s.fire_cases p cell with ⟨fault, -, heq⟩ | ⟨result, -, heq⟩
  · rw [heq]
    exact harena
  · rw [heq]
    exact harena.hear rfl rfl

/-- A turn more may have run out of time. -/
theorem Balanced.expire (h : s.Balanced initial ledger) {expired : List Nat}
    (he : ledger.expired ⊆ expired) : s.Balanced initial ⟨ledger.uses, expired⟩ :=
  ⟨h.unlimited, h.grid, h.earlier, h.collected, h.queued, fun hs ha k hk =>
    (h.kept hs ha k hk).imp fun _ hn => hn.imp_right fun hmem => he hmem, h.bare⟩

/-- A turn begins: what its player has collected before becomes active. -/
theorem Balanced.begins (h : s.Balanced initial ledger) {s' : Standing}
    (harena : s'.arena = (s.arena.promote p).value)
    (hlog : s'.log = s.log.record (.turnChanged p)) (hs : s'.started = true)
    (hcurrent : s'.current = p) (hkept : ∀ k, s.arena.wields p.other k = true →
      ∃ n, s'.turnNumber = n + 1 ∧ n ∈ ledger.expired) : s'.Balanced initial ledger := by
  have hevents : s'.log.events = s.log.events ++ [.turnChanged p] := by
    rw [hlog]
    exact EventLog.events_record _ _ h.unlimited
  have hpickups : pickups s'.log.events = pickups s.log.events := by
    rw [hevents, pickups_append]
    simp [pickup?]
  have hbefore : beforeTurn s'.log.events = s'.log.events := by
    rw [hevents, beforeTurn_append]
    rfl
  -- what was queued for the player becomes active, so together they do not become more
  have hmoved (q : Player) (k : Powerup) : (s'.arena.wields q k).toNat +
      (s'.arena.queues q k).toNat ≤ (s.arena.wields q k).toNat + (s.arena.queues q k).toNat := by
    rw [harena, Arena.wields_promote, Arena.queues_promote]
    by_cases hq : q = p
    · cases s.arena.wields q k <;> cases s.arena.queues q k <;> simp [hq]
    · simp [hq]
  refine ⟨?_, ?_, ?_, ?_, ?_, ?_, ?_⟩
  · rw [hlog]
    exact h.unlimited
  · rw [hpickups, harena]
    exact h.grid
  · intro q k
    have hle := h.collected q k
    have hmore := hmoved q k
    rw [hbefore, hpickups]
    omega
  · intro q k
    have hle := h.collected q k
    have hmore := hmoved q k
    rw [hpickups]
    omega
  · intro _ _ k
    rw [harena, Arena.queues_promote, hcurrent]
    simp
  · intro _ _ k hk
    rw [harena, Arena.wields_promote, hcurrent] at hk
    exact hkept k (by simpa [Player.other_ne] using hk)
  · intro hs'
    cases hs.symm.trans hs'

theorem Balanced.opening (h : s.Balanced initial ledger) (hs : s.started = false) :
    s.opening.Balanced initial ledger := by
  refine h.begins rfl rfl rfl rfl fun k hk => ?_
  cases (h.bare hs _ k).2.symm.trans hk

theorem Balanced.pass (h : s.Balanced initial ledger) (hs : s.started = true)
    (hkept : ∀ k, s.arena.wields s.current k = true → s.turnNumber ∈ ledger.expired) :
    (s.pass s.current).Balanced initial ledger := by
  refine h.begins rfl rfl hs rfl fun k hk => ⟨s.turnNumber, rfl, ?_⟩
  rw [Player.other_other] at hk
  exact hkept k hk

/-- Who ends a turn with a run keeps nothing from it. -/
theorem Balanced.endTurn (h : s.Balanced initial ledger) (hs : s.started = true) :
    (s.endTurn s.current).Balanced initial ledger := by
  let arena := ((s.arena.recordTurnEnd s.current).value.clearActive s.current).value
  have hwields (q : Player) (k : Powerup) :
      arena.wields q k = (decide (q ≠ s.current) && s.arena.wields q k) :=
    Arena.wields_clearActive _ _ _ _
  have hgrid : arena.grid = s.arena.grid := rfl
  have hqueues (q : Player) (k : Powerup) : arena.queues q k = s.arena.queues q k :=
    Arena.queues_clearActive _ _ _ _
  have hended : Balanced initial ledger { s with arena } := by
    refine h.setArena hgrid hqueues [] fun q k => ?_
    rw [hwields, List.count_nil, Nat.zero_add]
    cases decide (q ≠ s.current) <;> simp
  refine hended.pass hs fun k hk => ?_
  have hnone : arena.wields s.current k = false := by simp [hwields]
  cases hnone.symm.trans hk

/-- A pickup goes from the grid to a player while a script may run. -/
theorem Balanced.gather (h : s.Balanced initial ledger) (hbusy : s.Busy) {found : Powerup}
    (hfound : (s.arena.pickUp p).value.1 = some found) :
    (s.gather p found).Balanced initial ledger := by
  have hevents : (s.gather p found).log.events = s.log.events ++ [.powerupCollected p found] :=
    events_hear (s := { s with arena := (s.arena.pickUp p).value.2 }) h.unlimited _
  have hpickups : pickups (s.gather p found).log.events = pickups s.log.events ++ [(p, found)] := by
    rw [hevents, pickups_append]
    rfl
  have hbefore : beforeTurn (s.gather p found).log.events = beforeTurn s.log.events := by
    rw [hevents, beforeTurn_append]
    rfl
  have hwields (q : Player) (k : Powerup) :
      (s.gather p found).arena.wields q k = s.arena.wields q k := Arena.wields_pickUp hfound q k
  have hqueues (q : Player) (k : Powerup) : ((s.gather p found).arena.queues q k).toNat ≤
      (s.arena.queues q k).toNat + if (p, found) = (q, k) then 1 else 0 := by
    show ((s.arena.pickUp p).value.2.queues q k).toNat ≤ _
    rw [Arena.queues_pickUp hfound]
    by_cases hq : (p, found) = (q, k)
    · rw [decide_eq_true hq, if_pos hq]
      simp
    · rw [decide_eq_false hq, if_neg hq]
      simp
  refine ⟨h.unlimited, ?_, ?_, ?_, fun _ ha => absurd ha hbusy.2, fun _ ha => absurd ha hbusy.2, ?_⟩
  · intro k
    have hgrid := Arena.countOf_pickUp hfound k
    have hsum := h.grid k
    rw [hpickups, List.countP_append]
    show (s.arena.pickUp p).value.2.grid.countOf k + _ = _
    simp only [List.countP_singleton, beq_iff_eq]
    omega
  · intro q k
    rw [hbefore, hwields]
    exact h.earlier q k
  · intro q k
    have hle := h.collected q k
    have hmore := hqueues q k
    rw [hpickups, hwields, List.count_append, List.count_singleton]
    simp only [beq_iff_eq]
    omega
  · intro hs
    cases hs.symm.trans hbusy.1

end Standing

namespace Coordinator

open Duel Standing

variable {M : Type} {l : Listener M} {initial : Powerup → Nat}

theorem upheld_balanced (initial : Powerup → Nat) (ledger : Ledger) :
    Upheld (Balanced initial ledger) where
  asked hf h := ⟨h.unlimited, h.grid, h.earlier, h.collected,
    fun hs ha => h.queued hs (hf hs ha), fun hs ha => h.kept hs (hf hs ha), h.bare⟩
  struck winner reason _ h :=
    have hheard := h.hear (n := .matchEnded winner winner.other reason) rfl rfl
    ⟨hheard.unlimited, hheard.grid, hheard.earlier, hheard.collected,
      fun _ ha => absurd ha (not_askable_over rfl), fun _ ha => absurd ha (not_askable_over rfl),
      hheard.bare⟩
  finished h := ⟨h.unlimited, h.grid, h.earlier, h.collected, h.queued, h.kept, h.bare⟩
  opening hs h := h.opening hs

theorem balanced_asked (ledger : Ledger) (d : Duel) (r : Request)
    (h : d.standing.Balanced initial ledger) :
    Balanced initial (ledger.next d (.request r)) (d.asked r) := by
  cases r with
  | tryMove p dir => exact h.attempt p (.move dir)
  | radarFor p => exact h.attempt p (.shoot [])
  | shootAt p cell => exact h.fire p cell
  | _ => exact h

/-- While a script may run, so that there may be pickups, the books balance as well. -/
def Executing (initial : Powerup → Nat) (ledger : Ledger) (s : Standing) : Prop :=
  s.Balanced initial ledger ∧ s.Busy

theorem executing_asked (ledger : Ledger) (d : Duel) (r : Request)
    (h : Executing initial ledger d.standing) :
    Executing initial (ledger.next d (.request r)) (d.asked r) :=
  ⟨balanced_asked ledger d r h.1, worldly_busy.asked h.2 r⟩

theorem enacted_executing (initial : Powerup → Nat) (ledger : Ledger) (p : Player) :
    Enacted p (Executing initial ledger) where
  fire cell h := ⟨h.1.fire p cell, worldly_busy.fire p cell h.2⟩
  moved _ h := ⟨h.1.hear rfl rfl, h.2⟩
  gather _ hfound h := ⟨h.1.gather h.2 hfound, h.2⟩

variable {c : Coordinator (M × Ledger)}

/-- The books balance after every step. -/
theorem balanced_step (h : Still c.duel) (hb : c.Stands fun m => Balanced initial m.2) :
    ((c.noted .step).happen l.noting .step).Stands fun m => Balanced initial m.2 := by
  let ledger := c.memory.2.next c.duel .step
  have hexpired : c.memory.2.expired ⊆ ledger.expired := by
    show c.memory.2.expired ⊆ if c.duel.expires .step then _ else _
    split
    · exact List.subset_cons_self _ _
    · exact List.Subset.refl _
  have hunused (hidle : ∀ p, ¬ c.duel.Acting p) : c.duel.standing.Balanced initial ledger := by
    have hentered : ledger = ⟨c.memory.2.uses, ledger.expired⟩ := by
      show Ledger.mk (c.duel.usedIn .step ++ c.memory.2.uses) _ = _
      rw [usedIn_step hidle]
      rfl
    rw [hentered]
    exact Balanced.expire hb hexpired
  have ht := upholds_noting l (upheld_balanced initial) balanced_asked
  have hstep (hidle : ∀ p, ¬ c.duel.Acting p) (hnext : c.duel.next.Balanced initial ledger) :
      ((c.noted .step).happen l.noting .step).Stands fun m => Balanced initial m.2 :=
    ht.step (c := c.noted .step) (fun m => upheld_balanced initial m.2) h
      (fun p ha => absurd ha (hidle p)) hnext
  cases h.due with
  | @act t ready a later executed hs hr hc hbusy hp hplayer hnext =>
    have hused : c.duel.usedIn .step = c.duel.arena.usedIn c.duel.current a.command := by
      simp [usedIn, hr, hc, hp, Duel.isOver, hbusy]
    have hacted : Executing initial ledger c.duel.next := by
      rw [hnext]
      refine ⟨?_, hs, not_askable_executing hbusy⟩
      show Balanced initial ⟨c.duel.usedIn .step ++ c.memory.2.uses, ledger.expired⟩ _
      rw [hused]
      exact (Balanced.attempt hb _ _).expire hexpired
    have hexecuting (ledger : Ledger) : Upheld (Executing initial ledger) :=
      (upheld_balanced initial ledger).busy
    have hte := upholds_noting l hexecuting executing_asked
    exact (hte.step (c := c.noted .step) (fun m => hexecuting m.2) h
      (fun p _ _ => enacted_executing _ _ p) hacted).1
  | finish hs hr hc hbusy hp hidle hnext =>
    refine hstep hidle ?_
    rw [hnext]
    exact (hunused hidle).endTurn hs
  | @expire t ready hs hr hc hlast hask hidle hnext =>
    refine hstep hidle ?_
    rw [hnext]
    refine (hunused hidle).pass hs fun _ _ => ?_
    have hfree : c.duel.isBusy = false := (isBusy_eq_false _).mpr hask
    have hexpires : c.duel.expires .step = true := by
      simp [expires, hr, hc, hlast, hfree]
    show _ ∈ if c.duel.expires .step then _ else _
    rw [if_pos hexpires]
    exact List.mem_cons_self ..
  | stay hnext hover =>
    have hidle : ∀ p, ¬ c.duel.Acting p :=
      not_acting fun t ready p a later => hover t ready p (a :: later)
    refine hstep hidle ?_
    rw [hnext]
    exact hunused hidle

theorem balanced_happen (h : Still c.duel) (hb : c.Stands fun m => Balanced initial m.2)
    (x : Happening) :
    ((c.noted x).happen l.noting x).Stands fun m => Balanced initial m.2 := by
  cases x with
  | step => exact balanced_step h hb
  | request r =>
    have ht := upholds_noting l (upheld_balanced initial) balanced_asked
    exact ht.handle (c := c.noted (.request r)) (tells_tell _)
      (fun m => upheld_balanced initial m.2) (balanced_asked c.memory.2 c.duel r hb)
  | wake =>
    unfold happen wake?
    cases (c.noted .wake).duel.schedule.wake? <;> exact hb
  | clock now => exact hb

/-- The books balance throughout a history if they do in the beginning. -/
theorem Booked.balanced {c₀ : Coordinator M} (hc : Booked l c₀ c) (h : Still c₀.duel)
    (hb : c₀.duel.standing.Balanced initial {}) : c.duel.standing.Balanced initial c.memory.2 := by
  induction hc with
  | start => exact hb
  | happening x hc ih => exact balanced_happen (hc.still h) ih x
  | visit schedule awaited timer hv hc ih => exact ih

/-- Pickups are accounted for throughout every match in whose arena nobody has anything at first.
Whatever happens to it and whatever its listener asks, the history can be had with a ledger. Then
each pickup that was told of was taken from the grid; nobody has used a pickup of either kind more
often than they had collected one before the turn began; and while the player to move may ask for
something, nothing is queued for them, and the other player has kept something active only if their
last turn ran out of time. -/
theorem pickups_accounted (l : Listener M) {arena : Arena}
    (hnone : ∀ p k, arena.queues p k = false ∧ arena.wields p k = false) (timing : Timing)
    (scripts : Duo Json) (memory : M) :
    let c₀ := fresh arena timing scripts memory
    (∀ es, ∃ c, Booked l c₀ c ∧ c.forget = c₀.live l es) ∧
      ∀ c, Booked l c₀ c →
        let d := c.duel
        let ledger := c.memory.2
        (∀ k, d.arena.grid.countOf k + (pickups d.log.events).countP (·.2 == k) =
            arena.grid.countOf k) ∧
          (∀ p k, ledger.uses.count (p, k) ≤ (pickups (beforeTurn d.log.events)).count (p, k)) ∧
          (d.started = true → d.phase = .idle ∨ d.phase = .editing →
            (∀ k, d.arena.queues d.current k = false) ∧
              ∀ k, d.arena.wields d.current.other k = true →
                ∃ n, d.turnNumber = n + 1 ∧ n ∈ ledger.expired) := by
  intro c₀
  have hstill : Still c₀.duel := still_fresh arena timing scripts
  have hbalanced : c₀.duel.standing.Balanced arena.grid.countOf {} := by
    refine ⟨rfl, fun k => rfl, fun p k => ?_, fun p k => ?_, fun _ _ k => (hnone _ k).1,
      fun _ _ k hk => ?_, fun _ => hnone⟩
    · show 0 + (arena.wields p k).toNat ≤ 0
      simp [hnone]
    · show 0 + (arena.wields p k).toNat + (arena.queues p k).toNat ≤ 0
      simp [hnone]
    · cases (hnone _ k).2.symm.trans hk
  refine ⟨booked_live l c₀, ?_⟩
  intro c hc d ledger
  have hb : d.standing.Balanced arena.grid.countOf ledger := hc.balanced hstill hbalanced
  refine ⟨hb.grid, fun p k => ?_, fun hs ha => ⟨hb.queued hs ha, hb.kept hs ha⟩⟩
  exact Nat.le_trans (Nat.le_add_right _ _) (hb.earlier p k)

/-- A field with a true radar beside the first player. -/
def scoutingField : Arena :=
  { openField with
    grid := { Grid.build 5 5 false with powerups := Std.TreeMap.empty.insert ⟨1, 0⟩ .trueRadar } }

/-- A true radar that is collected in the first turn, kept through a turn that runs out of time, and
used in the next turn of its player. -/
theorem kept_radar_used :
    let c₀ := fresh scoutingField { editLimit := .real 1, tick := .real 1 }
      ⟨.text "MoveRight()", .null⟩ ()
    let go (c : Coordinator (Unit × Ledger)) (hs : List Happening) :=
      hs.foldl (fun c x => (c.noted x).happen Listener.silent.noting x) c
    let kept := go ⟨c₀.duel, c₀.memory, {}⟩ [.request .start, .request (.execute .a), .step, .step,
      .wake, .step, .request (.execute .b), .step, .step, .step, .wake, .step]
    let used := go kept [.step, .wake, .step, .request (.execute .b), .step, .step,
      .request (.setScript .a (.text "Shoot(Radar)")), .request (.execute .a), .step, .step]
    kept.duel.arena.wields .a .trueRadar = true ∧ 2 ∈ kept.memory.2.expired ∧
      used.memory.2.uses = [(.a, .trueRadar)] ∧
      (.a, .trueRadar) ∈ pickups (beforeTurn used.duel.log.events) := by
  intro c₀ go kept used
  have hnone (p : Player) (k : Powerup) :
      scoutingField.queues p k = false ∧ scoutingField.wields p k = false := by
    cases p <;> cases k <;> decide
  obtain ⟨-, hbooks⟩ := pickups_accounted .silent hnone { editLimit := .real 1, tick := .real 1 }
    ⟨.text "MoveRight()", .null⟩ ()
  have hgo {c : Coordinator (Unit × Ledger)} (hc : Booked .silent c₀ c) (hs : List Happening) :
      Booked .silent c₀ (go c hs) :=
    List.foldlRecOn hs _ hc fun c hc x _ => hc.happening x
  have hkept : Booked .silent c₀ kept := hgo .start _
  obtain ⟨-, -, hasks⟩ := hbooks kept hkept
  obtain ⟨-, hactive⟩ := hasks (by decide +kernel) (by decide +kernel)
  have hwields : kept.duel.arena.wields kept.duel.current.other .trueRadar = true := by
    decide +kernel
  obtain ⟨n, hn, hexpired⟩ := hactive .trueRadar hwields
  have hturn : kept.duel.turnNumber = 3 := by decide +kernel
  obtain rfl : n = 2 := by omega
  obtain ⟨-, huses, -⟩ := hbooks used (hgo hkept _)
  have hused : used.memory.2.uses = [(.a, .trueRadar)] := by decide +kernel
  refine ⟨by decide +kernel, hexpired, hused, List.count_pos_iff.mp ?_⟩
  have hle := huses .a .trueRadar
  rw [hused] at hle
  exact Nat.lt_of_lt_of_le (by decide) hle

end Coordinator

end Turn

end MazeDuel
