import MazeDuel.Proofs.Turn.Order
/-!
Listeners that note down what they see, and histories in which a match may also be closed. What the
requests of a listener keep, all of its plan keeps; what steps, wakings and the coming and going of
a caller keep, closing keeps.
-/

namespace MazeDuel.Turn

namespace Request

/-- Whether a request acts on the world, as the actions of a script do; the others are those of the
players, and questions. -/
def actsOnWorld : Request → Bool
  | shootAt _ _ => true
  | tryMove _ _ => true
  | radarFor _ => true
  | _ => false

/-- Whether a request reports the end of the match. -/
def isReport : Request → Bool
  | lost _ => true
  | exited _ => true
  | _ => false

end Request

/-- A listener may note down in its memory how the match stands, and nothing else that it could take
for that; of the match it asks only what it is free to ask. -/
def Plan.Watches {M : Type} (seen : M → List Duel) (free : Request → Prop) :
    Plan M → Duel → M → Prop
  | .stop, _, _ => True
  | .look next, d, m => (next d m).Watches seen free d m
  | .keep m' next, d, m =>
    (seen m' = seen m ∨ seen m' = d :: seen m) ∧ next.Watches seen free d m'
  | .ask r next, _, _ => free r ∧ ∀ reply d m, (next reply).Watches seen free d m

theorem Plan.Watches.mono {M : Type} {seen : M → List Duel} {free free' : Request → Prop}
    (hf : ∀ r, free r → free' r) {plan : Plan M} {d : Duel} {m : M}
    (h : plan.Watches seen free d m) : plan.Watches seen free' d m := by
  induction plan generalizing d m with
  | stop => trivial
  | look next ih => exact ih d m h
  | keep m' next ih => exact ⟨h.1, ih h.2⟩
  | ask r next ih => exact ⟨hf r h.1, fun reply d m => ih reply (h.2 reply d m)⟩

/-- A listener that is free to ask anything watches, if nothing counts as noted down. -/
theorem Plan.watches_any {M : Type} (plan : Plan M) (d : Duel) (m : M) :
    plan.Watches (fun _ => []) (fun _ => True) d m := by
  induction plan generalizing d m with
  | stop => trivial
  | look next ih => exact ih d m d m
  | keep m' next ih => exact ⟨Or.inl rfl, ih d m'⟩
  | ask r next ih => exact ⟨trivial, fun reply d m => ih reply d m⟩

/-- What noting down keeps and each request keeps that a listener is free to make, its plan keeps.
-/
theorem Plan.Watches.keeps {M : Type} {seen : M → List Duel} {free : Request → Prop}
    {handle : Request → Coordinator M → Reply × Coordinator M} {P : Coordinator M → Prop}
    {plan : Plan M} {c : Coordinator M} (hw : plan.Watches seen free c.duel c.memory)
    (hkeep : ∀ c m, seen m = seen c.memory ∨ seen m = c.duel :: seen c.memory → P c →
      P { c with memory := m })
    (hask : ∀ c r, free r → P c → P (handle r c).2) (h : P c) : P (plan.perform handle c) := by
  induction plan generalizing c with
  | stop => exact h
  | look next ih => exact ih _ _ hw h
  | keep m next ih => exact ih hw.2 (hkeep c m hw.1 h)
  | ask r next ih => exact ih _ (hw.2 _ _ _) (hask c r hw.1 h)

/-- What may happen to a match when it may be closed, too. -/
inductive Episode where
  | happening (h : Happening)
  | close

/-- Whether an episode is no request that acts on the world. -/
def Episode.leavesWorld : Episode → Bool
  | .happening (.request r) => !r.actsOnWorld
  | _ => true

namespace Coordinator

variable {M : Type}

def undergo (l : Listener M) (c : Coordinator M) : Episode → Coordinator M
  | .happening h => c.happen l h
  | .close => c.close l.tell

/-- What a match has become after some episodes. -/
def live (l : Listener M) (c : Coordinator M) (es : List Episode) : Coordinator M :=
  es.foldl (undergo l) c

/-- What each of some episodes keeps, all of them keep. -/
theorem live_keeps {l : Listener M} {P : Coordinator M → Prop} {es : List Episode}
    (hp : ∀ c, ∀ e ∈ es, P c → P (c.undergo l e)) {c : Coordinator M} (h : P c) :
    P (c.live l es) := by
  induction es generalizing c with
  | nil => exact h
  | cons e es ih =>
    refine ih (fun c x hx => hp c x (List.mem_cons_of_mem _ hx)) ?_
    exact hp c e (List.mem_cons_self ..) h

/-- Somebody who waits from outside comes or goes: no task gets another number or another job, and
no timer is made known. -/
structure Visited (d : Duel) (schedule : Schedule Job) (timer : Option Nat) : Prop where
  kept : ∀ t ∈ schedule.tasks,
    t.job = .caller ∨ ∃ u ∈ d.schedule.tasks, u.id = t.id ∧ u.job = t.job
  numbered : d.Numbered → Duel.Numbered { d with schedule }
  fresh : d.schedule.fresh ≤ schedule.fresh
  timer : timer = d.timer ∨ timer = none

theorem visited_self (d : Duel) : Visited d d.schedule d.timer :=
  ⟨fun t ht => Or.inr ⟨t, ht, rfl, rfl⟩, id, Nat.le_refl _, Or.inl rfl⟩

theorem visited_take (d : Duel) :
    Visited d { d.schedule with ready := d.schedule.ready.drop 1 } d.timer := by
  have htasks : (d.schedule.ready.drop 1 ++ d.schedule.asleep.map (·.task)).Sublist
      d.schedule.tasks :=
    (List.drop_sublist 1 _).append_right _
  refine ⟨fun t ht => Or.inr ⟨t, htasks.subset ht, rfl, rfl⟩, fun hn => ?_, Nat.le_refl _,
    Or.inl rfl⟩
  have hids : (d.running.toList ++ ((d.schedule.ready.drop 1).map Task.id ++
      d.schedule.asleep.map (·.task.id))).Sublist d.ids :=
    (((List.drop_sublist 1 _).map Task.id).append_right _).append_left _
  exact ⟨hn.nodup.sublist hids, fun id hid => hn.known id (hids.subset hid)⟩

theorem visited_spawn (d : Duel) : Visited d (d.schedule.spawn .caller).2 d.timer := by
  refine ⟨fun t ht => ?_, fun hn => hn.cons (Duel.ids_spawn .caller rfl rfl) rfl, Nat.le_succ _,
    Or.inl rfl⟩
  rcases (Schedule.mem_tasks_spawn _ _ t).mp ht with rfl | ht
  · exact Or.inl rfl
  · exact Or.inr ⟨t, ht, rfl, rfl⟩

theorem visited_cancel (d : Duel) (id : Nat) : Visited d (d.schedule.cancel id) d.timer := by
  refine ⟨fun t ht => ?_, fun hn => ?_, Nat.le_of_eq (d.schedule.fresh_cancel id).symm, Or.inl rfl⟩
  · rcases Schedule.of_mem_tasks_cancel ht with ht | ⟨-, -, hu⟩
    · exact Or.inr ⟨t, ht, rfl, rfl⟩
    · exact Or.inr hu
  · exact hn.perm ((d.schedule.ids_cancel_perm id hn.asleep).append_left _)
      (d.schedule.fresh_cancel id)

theorem visited_clock (d : Duel) (now : Float) : Visited d { d.schedule with now } d.timer :=
  ⟨fun t ht => Or.inr ⟨t, ht, rfl, rfl⟩, fun hn => ⟨hn.nodup, hn.known⟩, Nat.le_refl _, Or.inl rfl⟩

theorem visited_untimed (d : Duel) : Visited d d.schedule none :=
  ⟨(visited_self d).kept, id, Nat.le_refl _, Or.inr rfl⟩

section Closing

variable {tell : Notification → Coordinator M → Coordinator M} {P : Coordinator M → Prop}
  (hstep : ∀ {c c'}, c.step? tell = some c' → P c → P c')
  (hwake : ∀ {c c'}, c.wake? = some c' → P c → P c')
  (hvisit : ∀ {c} schedule awaited timer, Visited c.duel schedule timer → P c →
    P (c.update ({ · with schedule, awaited, timer })))

include hstep in
theorem keeps_drainAt (fuel : Nat) {c : Coordinator M} (h : P c) : P (c.drainAt tell fuel) := by
  induction fuel generalizing c with
  | zero => exact h
  | succ fuel ih =>
    unfold drainAt
    split
    · exact ih (hstep ‹_› h)
    · exact h

include hstep hwake in
theorem keeps_untilCallerAt (fuel : Nat) {c : Coordinator M} (h : P c) :
    P (c.untilCallerAt tell fuel) := by
  induction fuel generalizing c with
  | zero => exact h
  | succ fuel ih =>
    unfold untilCallerAt
    split
    · exact ih (hstep ‹_› h)
    · split
      · split
        · exact ih (hwake ‹_› h)
        · exact h
      · exact h

include hvisit in
theorem keeps_takeCaller {c : Coordinator M} (h : P c) : P c.takeCaller :=
  hvisit _ c.duel.awaited _ (visited_take c.duel) h

include hstep hwake hvisit in
theorem keeps_enter {c : Coordinator M} (h : P c) : P (c.enter tell) := by
  refine keeps_takeCaller hvisit (keeps_untilCallerAt hstep hwake _ ?_)
  exact hvisit _ c.duel.awaited _ (visited_spawn c.duel) h

include hstep hwake hvisit in
theorem keeps_callOffAt (fuel : Nat) (id : Option Nat) {c : Coordinator M} (h : P c) :
    P (c.callOffAt tell fuel id) := by
  unfold callOffAt
  split
  · exact h
  · rename_i id
    split
    · have hcancelled : P (c.update fun d => { d with schedule := d.schedule.cancel id }) :=
        hvisit _ c.duel.awaited _ (visited_cancel c.duel id) h
      unfold awaitTaskAt
      split
      · refine keeps_takeCaller hvisit (keeps_untilCallerAt hstep hwake _ ?_)
        exact hvisit _ (some id) _ (visited_self _) hcancelled
      · exact hcancelled
    · exact h

include hstep hwake hvisit in
/-- What steps, wakings and a caller's coming and going keep, closing keeps. -/
theorem keeps_close {c : Coordinator M} (h : P c) : P (c.close tell) := by
  refine keeps_drainAt hstep _ ?_
  have hoff {id id' : Option Nat} {fuel : Nat} {c : Coordinator M} (h : P c) :
      P ((c.callOffAt tell fuel id).callOffAt tell fuel id') :=
    keeps_callOffAt hstep hwake hvisit _ _ (keeps_callOffAt hstep hwake hvisit _ _ h)
  exact hvisit _ _ none (visited_untimed _) (hoff (keeps_enter hstep hwake hvisit h))

end Closing

/-- What steps, wakings, settings of the clock and a caller's coming and going keep, and a request
if the episode is one, an episode keeps. -/
theorem keeps_undergo {l : Listener M} {P : Coordinator M → Prop}
    (hstep : ∀ {c c'}, c.step? l.tell = some c' → P c → P c')
    (hwake : ∀ {c c'}, c.wake? = some c' → P c → P c')
    (hvisit : ∀ {c} schedule awaited timer, Visited c.duel schedule timer → P c →
      P (c.update ({ · with schedule, awaited, timer })))
    {c : Coordinator M} {e : Episode}
    (hask : ∀ r, e = .happening (.request r) → P (c.request l r).2) (h : P c) :
    P (c.undergo l e) := by
  cases e with
  | close => exact keeps_close hstep hwake hvisit h
  | happening x =>
    cases x with
    | request r => exact hask r rfl
    | step =>
      show P ((c.step? l.tell).getD c)
      cases hs : c.step? l.tell with
      | none => exact h
      | some c' => exact hstep hs h
    | wake =>
      show P (c.wake?.getD c)
      cases hs : c.wake? with
      | none => exact h
      | some c' => exact hwake hs h
    | clock now =>
      exact hvisit _ c.duel.awaited _ (visited_clock c.duel now) h

end Coordinator

end MazeDuel.Turn
