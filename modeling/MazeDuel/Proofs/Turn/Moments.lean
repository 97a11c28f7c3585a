import MazeDuel.Proofs.Number.Floats
import MazeDuel.Proofs.Turn.History
/-!
Moments that somebody waits for. Only tasks that may rest fall asleep, and if all delays are short,
no moment of a match is beyond the largest float: the clock gets to each of them.
-/

namespace MazeDuel.Turn

/-- Whether all tasks rest for a short time only. -/
def Timing.Short (t : Timing) : Prop := t.stepDelay.isShort ∧ t.turnDelay.isShort ∧ t.tick.isShort

instance (t : Timing) : Decidable t.Short :=
  inferInstanceAs (Decidable (t.stepDelay.isShort ∧ t.turnDelay.isShort ∧ t.tick.isShort))

theorem Timing.Short.delay {t : Timing} (h : t.Short) {job : Job} (hj : job.rests) :
    (t.delay job).isShort := by
  cases job with
  | act p rest executed => exact h.1
  | pause result => exact h.2.1
  | tick passed total => exact h.2.2
  | _ => cases hj

namespace Duel

variable {d d' : Duel}

theorem asleep_endTask (d : Duel) (id : Nat) (outcome : Outcome) :
    (d.endTask id outcome).schedule.asleep = d.schedule.asleep := by
  unfold endTask
  dsimp only
  split <;> rfl

theorem asleep_cancelTimer (d : Duel) : d.cancelTimer.schedule.asleep ⊆ d.schedule.asleep := by
  intro x hx
  unfold cancelTimer at hx
  cases ht : d.timer with
  | none => simpa [ht] using hx
  | some id =>
    simp only [ht, Schedule.asleep_cancel] at hx
    exact (List.mem_filter.mp hx).1

/-- No request puts anybody to sleep. -/
theorem Moves.asleep (hm : Moves d d') : d'.schedule.asleep ⊆ d.schedule.asleep := by
  refine hm.keeps (P := fun e => e.schedule.asleep ⊆ d.schedule.asleep) ?_ ?_ ?_
    (List.Subset.refl _)
  · intro e e' hm he
    cases hm with
    | accept hs hp => exact List.Subset.trans (asleep_cancelTimer _) he
    | opening arena journal hs =>
      exact List.Subset.trans (asleep_cancelTimer { e.opened with arena, journal }) he
    | _ => exact he
  · exact fun _ _ _ _ _ he => List.Subset.trans (asleep_cancelTimer _) he
  · exact fun he => he

/-- What is true of every task that rests, and of every sleeper, stays true. -/
theorem Goes.sleepers {P : Task Job → Prop} (hg : Goes d d')
    (hrest : ∀ id job, job.rests → P { id, job }) (h : ∀ x ∈ d.schedule.asleep, P x.task) :
    ∀ x ∈ d'.schedule.asleep, P x.task := by
  refine hg.keeps (P := fun e => ∀ x ∈ e.schedule.asleep, P x.task)
    ?_ ?_ ?_ ?_ ?_ ?_ ?_ ?_ ?_ ?_ ?_ h
  · exact fun hm he x hx => he x (hm.asleep hx)
  · intro e id outcome he
    rw [asleep_endTask]
    exact he
  · intro e id job hj he x hx
    rcases Schedule.of_mem_asleep_rest hx with hx | hx
    · rw [hx]
      exact hrest id job hj
    · exact he x hx
  · exact fun _ _ _ he => he
  · exact fun he => he
  · exact fun _ hw he x hx => he x (Schedule.of_mem_asleep_wake? hw hx)
  · exact fun _ he => he
  · exact fun _ he => he
  · exact fun _ he => he
  · exact fun _ he => he
  · exact fun _ he x hx => he x (asleep_cancelTimer _ hx)

/-- The clock shows a finite time, and so does every moment that tasks of some kind wait for. -/
structure Clocked (kind : Job → Bool) (d : Duel) : Prop where
  now : d.schedule.now.isFinite
  due : ∀ x ∈ d.schedule.asleep, kind x.task.job → x.due.isFinite

variable {kind : Job → Bool}

theorem clocked_fresh (kind : Job → Bool) (arena : Arena) (timing : Timing) (scripts : Duo Json) :
    Clocked kind (fresh arena timing scripts) := by
  have hnow : (0 : Float).isFinite := by decide +kernel
  exact ⟨hnow, nofun⟩

theorem now_cancelTimer (d : Duel) : d.cancelTimer.schedule.now = d.schedule.now := by
  unfold cancelTimer
  cases d.timer with
  | none => rfl
  | some id => exact Schedule.now_cancel _ _

theorem Clocked.cancelTimer (h : Clocked kind d) : Clocked kind d.cancelTimer :=
  ⟨(now_cancelTimer d).symm ▸ h.now, fun x hx => h.due x (asleep_cancelTimer d hx)⟩

theorem Moves.now (hm : Moves d d') : d'.schedule.now = d.schedule.now := by
  refine hm.keeps (P := fun e => e.schedule.now = d.schedule.now) ?_ ?_ ?_ rfl
  · intro e e' hm he
    cases hm with
    | accept hs hp => exact (now_cancelTimer _).trans he
    | opening arena journal hs =>
      exact (now_cancelTimer { e.opened with arena, journal }).trans he
    | _ => exact he
  · exact fun _ _ _ _ _ he => (now_cancelTimer _).trans he
  · exact fun he => he

theorem Clocked.moves (hm : Moves d d') (h : Clocked kind d) : Clocked kind d' :=
  ⟨hm.now.symm ▸ h.now, fun x hx => h.due x (hm.asleep hx)⟩

/-- Whoever rests for a short time is due at a finite moment. -/
theorem Clocked.rest (h : Clocked kind d) {job : Job} {delay : Quantity}
    (hshort : kind job → delay.isShort) (id : Nat) :
    Clocked kind { d with schedule := d.schedule.rest id job delay.toFloat } := by
  refine ⟨(Schedule.now_rest _ _ _ _).symm ▸ h.now, fun x hx hkind => ?_⟩
  rcases Schedule.of_mem_asleep_rest hx with rfl | hx
  · exact Quantity.isFinite_add h.now (hshort hkind)
  · exact h.due x hx hkind

theorem Clocked.endTask (h : Clocked kind d) (id : Nat) (outcome : Outcome) :
    Clocked kind (d.endTask id outcome) := by
  unfold Duel.endTask
  dsimp only
  split <;> exact ⟨h.now, h.due⟩

theorem Clocked.stepped (hshort : ∀ job, job.rests → kind job → (d.timing.delay job).isShort)
    (hs : Stepped d d') (h : Clocked kind d) : Clocked kind d' := by
  cases hs with
  | @dropped t ready hr hc =>
    have htaken : Clocked kind (d.taken t ready) := ⟨h.now, h.due⟩
    have hended := htaken.endTask t.id .cancelled
    exact ⟨hended.now, hended.due⟩
  | @worked t ready e hr hc hw =>
    suffices he : e.timing = d.timing ∧ Clocked kind e from ⟨he.2.now, he.2.due⟩
    refine hw.keeps (P := fun e => e.timing = d.timing ∧ Clocked kind e) ?_ ?_ ?_ ?_ ?_ ?_ ?_
      ⟨rfl, h.now, h.due⟩
    · exact fun hm ⟨ht, he⟩ => ⟨hm.timing.trans ht, he.moves hm⟩
    · intro e id outcome ⟨ht, he⟩
      obtain ⟨schedule, awaited, heq⟩ := endTask_eq e id outcome
      refine ⟨?_, he.endTask _ _⟩
      rw [heq]
      exact ht
    · exact fun id job hj ⟨ht, he⟩ => ⟨ht, he.rest (fun hkind => ht ▸ hshort job hj hkind) id⟩
    · exact fun _ ⟨ht, he⟩ => ⟨ht, he.now, he.due⟩
    · exact fun _ ⟨ht, he⟩ => ⟨ht, he.now, he.due⟩
    · exact fun _ ⟨ht, he⟩ => ⟨ht, he.now, he.due⟩
    · exact fun _ ⟨ht, he⟩ => ⟨ht, he.cancelTimer.now, he.cancelTimer.due⟩

end Duel

namespace Coordinator

open Duel

variable {M : Type} {l : Listener M} {c : Coordinator M} {kind : Job → Bool}

/-- What happens leads from a finite moment to a finite moment, if a task that is woken is of a kind
that rests for a short time only. -/
theorem clocked_happen (hshort : ∀ job, job.rests → kind job → (c.duel.timing.delay job).isShort)
    (h : Clocked kind c.duel) {x : Happening} (hx : ∀ now, x = .clock now → now.isFinite)
    (hw : x = .wake → ∀ y ∈ c.duel.schedule.asleep, kind y.task.job) :
    Clocked kind (c.happen l x).duel := by
  cases x with
  | clock now => exact ⟨hx now rfl, h.due⟩
  | request r => exact h.moves (moves_request l r c)
  | step =>
    unfold happen
    cases hs : c.step? l.tell with
    | none => exact h
    | some c' => exact h.stepped hshort (stepped_step? (tells_tell l) hs)
  | wake =>
    unfold happen wake? Schedule.wake?
    cases ha : c.duel.schedule.asleep with
    | nil => exact h
    | cons x asleep =>
      have hdue := h.due
      have hkind := hw rfl
      rw [ha] at hdue hkind
      exact ⟨hdue x (List.mem_cons_self ..) (hkind x (List.mem_cons_self ..)),
        fun y hy => hdue y (List.mem_cons_of_mem _ hy)⟩

/-- The clock shows a finite time throughout a history, as real clocks do. -/
def OnClock (l : Listener M) (c : Coordinator M) (hs : List Happening) : Prop :=
  ∀ hs', hs' <+: hs → (c.after l hs').duel.schedule.now.isFinite

/-- Steps and wakings alone lead from finite moments to finite moments, all the way. -/
theorem clocked_steps (hshort : ∀ job, job.rests → kind job → (c.duel.timing.delay job).isShort)
    (h : Clocked kind c.duel) {hs : List Happening} (hsteps : ∀ x ∈ hs, x = .step ∨ x = .wake)
    (hw : ∀ hs', hs' ++ [.wake] <+: hs →
      ∀ y ∈ (c.after l hs').duel.schedule.asleep, kind y.task.job) :
    c.OnClock l hs ∧ Clocked kind (c.after l hs).duel := by
  induction hs generalizing c with
  | nil =>
    refine ⟨fun hs' hfirst => ?_, h⟩
    rw [List.prefix_nil.mp hfirst]
    exact h.now
  | cons x hs ih =>
    have htiming : (c.happen l x).duel.timing = c.duel.timing :=
      timing_goes (goes_happen l c x) rfl
    have hnext : Clocked kind (c.happen l x).duel := by
      refine clocked_happen hshort h (fun now hnow => ?_) fun hwake => ?_
      · rcases hsteps x (List.mem_cons_self ..) with rfl | rfl <;> cases hnow
      · exact hw [] (List.cons_prefix_cons.mpr ⟨hwake.symm, List.nil_prefix⟩)
    obtain ⟨hclock, hlast⟩ := ih (htiming ▸ hshort) hnext
      (fun y hy => hsteps y (List.mem_cons_of_mem _ hy))
      fun hs' hfirst => hw (x :: hs') (List.cons_prefix_cons.mpr ⟨rfl, hfirst⟩)
    refine ⟨fun hs' hfirst => ?_, hlast⟩
    cases hs' with
    | nil => exact h.now
    | cons y hs' =>
      obtain ⟨rfl, hrest⟩ := List.cons_prefix_cons.mp hfirst
      exact hclock hs' hrest

end Coordinator

end MazeDuel.Turn
