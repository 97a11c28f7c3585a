import MazeDuel.Proofs.Turn.SealedSteps
/-!
The last word of a match: its end is told last, and its world stays as the end has left it, whatever
the players ask and whatever its tasks still do. A listener that ends the match while it is told of
a move spoils that: the mover still picks up what lies on the new place.
-/

namespace MazeDuel.Turn

namespace Duel

theorem Goes.started {d d' : Duel} (h : Goes d d') (hs : d.started = true) :
    d'.started = true := by
  refine h.keeps_apart (P := fun e => e.started = true) ?_ ?_ ?_ ?_ ?_ ?_ hs
  · exact fun hm hs => hm.started hs
  · exact fun _ _ _ _ hs => hs
  · exact fun _ hs => hs
  · exact fun _ hs => hs
  · exact fun _ hs => hs
  · exact fun _ hs => hs

/-- Before a match is started nobody but callers is there. -/
def Vacant (d : Duel) : Prop := d.started = true ∨ ∀ t ∈ d.schedule.tasks, t.job = .caller

theorem Vacant.visited {d : Duel} (h : Vacant d) {schedule : Schedule Job}
    {timer : Option Nat} (hv : Coordinator.Visited d schedule timer) (awaited : Option Nat) :
    Vacant { d with schedule, awaited, timer } := by
  refine h.imp_right fun h t ht => ?_
  rcases hv.kept t ht with hj | ⟨u, hu, -, hj⟩
  · exact hj
  · exact hj.symm.trans (h u hu)

theorem Vacant.moves {d d' : Duel} (hm : Moves d d') (h : Vacant d) : Vacant d' := by
  refine hm.keeps ?_ ?_ ?_ h
  · intro d d' hm h
    cases hm with
    | accept hs => exact Or.inl hs
    | opening => exact Or.inl rfl
    | _ => exact h
  · intro d winner reason journal _ _ h
    refine h.imp_right fun h t ht => ?_
    obtain ⟨u, hu, -, hj⟩ := of_mem_cancelTimer (d := { d with phase := .over }) ht
    exact hj.symm.trans (h u hu)
  · exact fun h => h

/-- Continuous play ends with the match. -/
def Halted (d : Duel) : Prop := d.phase = .over → d.continuous = false

theorem Halted.moves {d d' : Duel} (hm : Moves d d') (h : Halted d) : Halted d' := by
  refine hm.keeps ?_ (fun _ _ _ _ _ _ _ => rfl) (fun h => h) h
  intro d d' hm h
  cases hm with
  | quiet arena remaining last journal => exact h
  | told n hn => exact h
  | script script hp => exact h
  | edit phase hp hp' =>
    rcases hp' with rfl | rfl
    · exact nofun
    · exact nofun
  | mode continuous hp => exact fun ho => absurd ho hp
  | accept hs hp => exact nofun
  | opening arena journal hs => exact nofun

theorem Halted.goes {d d' : Duel} (hg : Goes d d') (h : Halted d) : Halted d' := by
  refine hg.keeps_apart Halted.moves ?_ ?_ ?_ ?_ ?_ h
  · exact fun _ _ _ _ h => h
  · exact fun _ h => h
  · exact fun _ _ => nofun
  · exact fun _ h => h
  · exact fun _ h => h

end Duel

namespace Coordinator

open Duel

variable {M : Type} {l : Listener M} {seen : M → List Duel} {strict : Prop} {c : Coordinator M}

theorem idles_request_over (ho : c.duel.phase = .over) (hs : c.duel.started = true) {r : Request}
    (hr : r.actsOnWorld = false) : Idles c (c.request l r).2 :=
  idles_handle_over l.tell ho (Or.inl hs) hr

/-- Nothing that happens to a match after its end changes its world, if nobody outside acts on it.
-/
theorem sameWorld_live (ho : c.duel.phase = .over) (hs : c.duel.started = true)
    {es : List Episode} (hes : ∀ e ∈ es, e.leavesWorld) :
    SameWorld c.duel (c.live l es).duel := by
  refine live_keeps (P := fun x => SameWorld c.duel x.duel) ?_ (.refl _)
  intro x e he hx
  have hover {x : Coordinator M} (hx : SameWorld c.duel x.duel) : x.duel.phase = .over :=
    hx.phase.trans ho
  refine keeps_undergo (P := fun x => SameWorld c.duel x.duel) ?_ ?_ ?_ ?_ hx
  · exact fun hstep hx => hx.trans (idles_step?_over l.tell (hover hx) hstep).duel.toSameWorld
  · exact fun hwake hx => hx.trans (idles_wake? hwake).duel.toSameWorld
  · exact fun _ _ _ _ hx => ⟨hx.1, hx.2, hx.3, hx.4, hx.5, hx.6, hx.7, hx.8⟩
  · rintro r rfl
    have hr : r.actsOnWorld = false := by simpa [Episode.leavesWorld] using hes _ he
    exact hx.trans (idles_request_over (hover hx) (hx.started.trans hs) hr).duel.toSameWorld

theorem halted_live (h : Halted c.duel) (es : List Episode) : Halted (c.live l es).duel := by
  refine live_keeps (P := fun x => Halted x.duel) ?_ h
  intro x e _ hx
  refine keeps_undergo (P := fun x => Halted x.duel) ?_ ?_ (fun _ _ _ _ hx => hx) ?_ hx
  · exact fun hstep hx => hx.goes (.stepped (stepped_step? (tells_tell l) hstep))
  · intro x x' hwake hx ho
    have hi := (idles_wake? hwake).duel
    exact hi.continuous.trans (hx (hi.phase.symm.trans ho))
  · exact fun r _ => hx.moves (moves_request l r x)

/-- Nobody outside acts on the world of a match that is over. -/
def HandsOff (l : Listener M) : Coordinator M → List Episode → Prop
  | _, [] => True
  | c, e :: es => (c.duel.phase = .over → e.leavesWorld) ∧ HandsOff l (c.undergo l e) es

theorem started_of_step? {c' : Coordinator M} {tell : Notification → Coordinator M → Coordinator M}
    (hv : Vacant c.duel) (h : c.step? tell = some c') : c.duel.started = true := by
  obtain ⟨t, ready, hr, hj, -⟩ := step?_eq tell h
  refine hv.resolve_right fun h => hj (h t ?_)
  rw [Schedule.mem_tasks, hr]
  exact Or.inl (List.mem_cons_self ..)

/-- Every request of a player keeps the seal, and before the end what acts on the world does, too.
-/
theorem sealed_request (ht : Heard strict seen l.tell) (h : c.Sealed strict seen) {r : Request}
    (hr : c.duel.phase = .over → r.actsOnWorld = false) :
    (c.request l r).2.Sealed strict seen := by
  cases hw : r.actsOnWorld with
  | false => exact ht.sealing.handle h hw
  | true =>
    have hp : c.duel.phase ≠ .over := fun ho => Bool.noConfusion (hw.symm.trans (hr ho))
    cases r with
    | shootAt p cell =>
      unfold request
      rw [handle_shootAt]
      exact sealed_shootAt ht h hp p cell
    | tryMove p dir => exact sealed_tryMove h hp p dir
    | radarFor p => exact sealed_radarFor h hp p
    | _ => cases hw

theorem sealed_live (ht : Heard strict seen l.tell) {es : List Episode} (h : c.Sealed strict seen)
    (hv : Vacant c.duel) (hes : HandsOff l c es) : (c.live l es).Sealed strict seen := by
  -- the seal alone is not kept: a step needs a match that was started
  induction es generalizing c with
  | nil => exact h
  | cons e es ih =>
    have hboth : (c.undergo l e).Sealed strict seen ∧ Vacant (c.undergo l e).duel := by
      refine keeps_undergo (P := fun x => x.Sealed strict seen ∧ Vacant x.duel) ?_ ?_ ?_ ?_ ⟨h, hv⟩
      · intro x x' hstep ⟨h, hv⟩
        have hs := started_of_step? hv hstep
        exact ⟨sealed_step? ht h hs hstep,
          Or.inl (Goes.started (.stepped (stepped_step? (tells_tell l) hstep)) hs)⟩
      · intro x x' hwake ⟨h, hv⟩
        refine ⟨h.idles (idles_wake? hwake), ?_⟩
        unfold wake? at hwake
        obtain ⟨schedule, hw, rfl⟩ := Option.map_eq_some_iff.mp hwake
        exact hv.imp_right fun hv t ht => hv t ((Schedule.tasks_wake? hw t).mp ht)
      · intro x schedule awaited timer hvisited ⟨h, hv⟩
        exact ⟨h.update (idle_beside), hv.visited hvisited _⟩
      · rintro r rfl
        refine ⟨sealed_request ht h ?_, hv.moves (moves_request l r c)⟩
        simpa [Episode.leavesWorld] using hes.1
    exact ih hboth.1 hboth.2 hes.2

theorem sealed_live_fresh {grid : Grid} {a b : Combatant} {damage : Quantity} {arena : Arena}
    (harena : Arena.make grid a b damage = .ok arena) (timing : Timing) (scripts : Duo Json)
    {memory : M} (hm : seen memory = []) (ht : Heard strict seen l.tell) {es : List Episode}
    (hes : HandsOff l (fresh arena timing scripts memory) es) :
    ((fresh arena timing scripts memory).live l es).Sealed strict seen := by
  have hnone : ∀ e ∈ seen memory, e.phase ≠ .over := by simp [hm]
  exact sealed_live ht (sealed_fresh (Arena.grounded_make harena) timing scripts hnone)
    (Or.inr (fun t ht => absurd ht List.not_mem_nil)) hes

/-- A listener that notes down how the match stands whenever it is told of something. -/
def recorder : Listener (List Duel) where
  plan _ := .look fun d noted => .keep (d :: noted) .stop
  depth := 1

/-- A match in continuous play, which the second player gives up during a pause. -/
def givenUp : List Episode :=
  [.happening (.request .start), .happening (.request (.setContinuous true)), .happening .step,
    .happening (.request (.lost .b))]

/-- A listener that gives the match up for the player of some notification as soon as it comes, and
notes down how the match stands whenever it is told of anything else. -/
def spoiler (kind : Notification.Kind) : Listener (List Duel) where
  plan n :=
    if n.kind = kind then .ask (.lost n.player) fun _ => .stop
    else .look fun d noted => .keep (d :: noted) .stop
  depth := 2

theorem fair_spoiler (kind : Notification.Kind) : Fair id (spoiler kind) := by
  intro n d m
  unfold spoiler
  dsimp only
  split
  · exact ⟨rfl, fun _ _ _ => trivial⟩
  · exact ⟨Or.inr rfl, trivial⟩

theorem discreet_spoiler {kind : Notification.Kind} (hk : kind ≠ .positionMoved) :
    Discreet id (spoiler kind) := by
  intro p before d m
  unfold spoiler
  dsimp only
  rw [if_neg (by simpa [Notification.kind] using hk.symm)]
  exact ⟨Or.inr rfl, trivial⟩

/-- A match that the first player gives up as soon as it is started, and somebody starts again. -/
def givenUpAtOnce : List Episode :=
  [.happening (.request .start), .happening .step, .happening (.request .start)]

/-- A field without inner walls, with a pickup beside the first player. -/
def luringField : Arena :=
  { openField with
    grid := { Grid.build 5 5 false with powerups := Std.TreeMap.empty.insert ⟨1, 0⟩ .phase } }

/-- The end of a match freezes its world. As soon as anybody has seen a match over that was started
before, its arena, its scripts, its log, its turn and its mode are what they will always be; and so
they are whenever it is looked at from outside. -/
theorem end_freezes {grid : Grid} {a b : Combatant} {damage : Quantity} {arena : Arena}
    (harena : Arena.make grid a b damage = .ok arena) (timing : Timing) (scripts : Duo Json)
    {memory : M} (hm : seen memory = []) (hl : Mute seen l) (es es' : List Episode) :
    let c := (fresh arena timing scripts memory).live l es
    (c.duel.phase = .over → c.duel.started = true → (∀ e ∈ es', e.leavesWorld) →
        c.duel.continuous = false ∧ SameWorld c.duel (c.live l es').duel) ∧
      (HandsOff l (fresh arena timing scripts memory) es →
        ∀ e ∈ seen c.memory, e.phase = .over → e.started = true → SameWorld e c.duel) := by
  intro c
  constructor
  · intro ho hs hes'
    have hhalted : Halted c.duel := halted_live (c := fresh arena timing scripts memory) nofun es
    exact ⟨hhalted ho, sameWorld_live ho hs hes'⟩
  · intro hes e he ho hs
    have hheard : Heard True seen l.tell := by
      refine heard_tell (fun n d m => ?_) (fun _ p before d m => ?_)
      · exact (hl n d m).mono nofun
      · exact (hl _ d m).mono nofun
    have hsealed := sealed_live_fresh harena timing scripts hm hheard hes
    exact (hsealed.kept e he ho (Or.inl hs)).sameWorld

theorem given_up_in_pause :
    let c := (fresh openField { turnDelay := .whole 1 } ⟨.null, .null⟩ []).live recorder givenUp
    let es : List Episode := [.happening .wake, .happening .step,
      .happening (.request (.setScript .a (.text "Wait();"))), .happening (.request .start), .close]
    (c.duel.continuous = false ∧ SameWorld c.duel (c.live recorder es).duel) ∧
      (∃ e ∈ c.memory, e.phase = .over) ∧ ∀ e ∈ c.memory, e.phase = .over → SameWorld e c.duel := by
  intro c es
  have hmute : Mute id recorder := fun n d m => ⟨Or.inr rfl, trivial⟩
  have hfrozen := end_freezes make_openField { turnDelay := .whole 1 } ⟨.null, .null⟩ rfl hmute
    givenUp es
  refine ⟨hfrozen.1 (by decide +kernel) (by decide +kernel) (by decide), by decide +kernel, ?_⟩
  intro e he ho
  refine hfrozen.2 ?_ e he ho ?_
  · exact ⟨fun _ => rfl, fun _ => rfl, fun _ => rfl, fun _ => rfl, trivial⟩
  · exact (by decide +kernel : ∀ e ∈ c.memory, e.started = true) e he

/-- The end of a match is told last, as long as nobody starts the match after it, and what is seen
of the match since then stays as it is. Only a listener that ends the match while it is told of a
move can make one pickup come after it. -/
theorem end_told_last {grid : Grid} {a b : Combatant} {damage : Quantity} {arena : Arena}
    (harena : Arena.make grid a b damage = .ok arena) (timing : Timing) (scripts : Duo Json)
    {memory : M} (hm : seen memory = []) (hl : Fair seen l) {es : List Episode}
    (hes : HandsOff l (fresh arena timing scripts memory) es) :
    let c := (fresh arena timing scripts memory).live l es
    ¬ c.duel.Reopened →
      (c.duel.phase ≠ .over → ∀ n ∈ c.duel.log.events, n.kind ≠ .matchEnded) ∧
      (c.duel.phase = .over → c.duel.ToldLast (Discreet seen l)) ∧
      ∀ e ∈ seen c.memory, e.phase = .over → Afterwards (Discreet seen l) e c.duel := by
  intro c hre
  have hsealed : c.Sealed (Discreet seen l) seen :=
    sealed_live_fresh harena timing scripts hm (heard_tell hl id) hes
  exact ⟨hsealed.untold hre, hsealed.last hre, fun e he ho => hsealed.kept e he ho (Or.inr hre)⟩

theorem given_up_at_once :
    let c := (fresh openField { turnDelay := .whole 1 } ⟨.null, .null⟩ []).live
      (spoiler .turnChanged) givenUpAtOnce
    (∃ before n, c.duel.log.events = before ++ [n] ∧ n.kind = .matchEnded) ∧
      (∃ e ∈ c.memory, e.phase = .over) ∧ ∀ e ∈ c.memory, e.phase = .over → SameWorld e c.duel := by
  intro c
  have hdiscreet : Discreet id (spoiler .turnChanged) := discreet_spoiler (by decide)
  have hoff : HandsOff (spoiler .turnChanged)
      (fresh openField { turnDelay := .whole 1 } ⟨.null, .null⟩ []) givenUpAtOnce :=
    ⟨fun _ => rfl, fun _ => rfl, fun _ => rfl, trivial⟩
  have hreopened : ¬ c.duel.Reopened := by
    unfold Reopened
    decide +kernel
  have hlast := end_told_last make_openField _ _ rfl (fair_spoiler .turnChanged) hoff hreopened
  refine ⟨?_, by decide +kernel, fun e he ho => ?_⟩
  · obtain ⟨before, n, late, heq, hn, -, hlate⟩ := hlast.2.1 (by decide +kernel)
    obtain rfl := hlate.resolve_right fun hlate => hlate.1 hdiscreet
    exact ⟨before, n, heq, hn⟩
  · cases hlast.2.2 e he ho with
    | same h => exact h
    | pickup hloose => exact absurd hdiscreet hloose

/-- A player who loses on the first step still picks up what lies on the new place, and the pickup
is told after the end. -/
theorem pickup_after_end :
    let c := (fresh luringField { turnDelay := .whole 1 } ⟨.text "MoveRight()", .null⟩ []).live
      (spoiler .positionMoved)
      [.happening (.request .start), .happening (.request (.execute .a)), .happening .step,
        .happening .step]
    Fair id (spoiler .positionMoved) ∧ ¬ c.duel.Reopened ∧
      c.duel.log.events.map (·.kind) =
        [.turnChanged, .positionMoved, .matchEnded, .powerupCollected] ∧
      ∃ e ∈ c.memory, e.phase = .over ∧
        e.arena.grid.powerups.size = 1 ∧ c.duel.arena.grid.powerups.size = 0 := by
  refine ⟨fair_spoiler .positionMoved, ?_⟩
  unfold Reopened
  decide +kernel

end Coordinator

end MazeDuel.Turn
