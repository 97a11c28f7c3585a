import MazeDuel.Proofs.Turn.Ended
import MazeDuel.Proofs.Turn.History
/-!
The queue of tasks: whoever waits in it comes to its step at last, as long as nobody is put before
it.
-/

namespace MazeDuel.Turn

namespace Coordinator

variable {M : Type} {l : Listener M} {tell : Notification → Coordinator M → Coordinator M}
  {c : Coordinator M} {id : Nat} {P : Coordinator M → Prop}

theorem exists_step? (tell : Notification → Coordinator M → Coordinator M)
    {t : Task Job} {ready : List (Task Job)} (hr : c.duel.schedule.ready = t :: ready)
    (hj : t.job ≠ .caller) :
    ∃ c', c.step? tell = some c' := by
  unfold step? Schedule.next?
  rw [hr]
  cases hjob : t.job with
  | caller => exact absurd hjob hj
  | _ =>
    simp only [hjob]
    exact ⟨_, rfl⟩

/-- What holds while a task waits for its step: no waking and no step of another task ends it or
puts anybody before the task, and no caller holds the queue up. -/
structure Waiting (l : Listener M) (id : Nat) (P : Coordinator M → Prop) : Prop where
  there : ∀ {c}, P c → ∃ t ∈ c.duel.schedule.tasks, t.id = id
  callers : ∀ {c}, P c → ∀ t ∈ c.duel.schedule.tasks, t.job ≠ .caller
  wakes : ∀ {c c'}, P c → c.wake? = some c' → P c'
  steps : ∀ {c c' t ready}, P c → c.duel.schedule.ready = t :: ready → t.id ≠ id →
    c.step? l.tell = some c' → P c' ∧ ready <+: c'.duel.schedule.ready

/-- A task that sleeps is woken at last. -/
theorem Waiting.woken (h : Waiting l id P) (hc : P c) :
    ∃ hs, (∀ x ∈ hs, x = .wake) ∧ let x := c.after l hs
      P x ∧ ∃ t ∈ x.duel.schedule.ready, t.id = id := by
  generalize hn : c.duel.schedule.asleep = asleep
  induction asleep generalizing c with
  | nil =>
    obtain ⟨t, hmem, hid⟩ := h.there hc
    simp only [Schedule.tasks, hn, List.map_nil, List.append_nil] at hmem
    exact ⟨[], by simp, hc, t, hmem, hid⟩
  | cons s asleep ih =>
    let schedule : Schedule Job := { c.duel.schedule with
      now := s.due, ready := c.duel.schedule.ready ++ [s.task], asleep }
    have hwake : c.wake? = some (c.update ({ · with schedule })) := by
      unfold wake? Schedule.wake?
      rw [hn]
      rfl
    obtain ⟨hs, hwakes, hx⟩ := ih (h.wakes hc hwake) rfl
    refine ⟨.wake :: hs, fun x hx => ?_, ?_⟩
    · rcases List.mem_cons.mp hx with rfl | hx
      · rfl
      · exact hwakes x hx
    · rw [after_cons, happen_wake hwake]
      exact hx

/-- A task that is ready comes to the head of the queue. -/
theorem Waiting.head (h : Waiting l id P) (hc : P c) {before behind : List (Task Job)}
    {t : Task Job} (hr : c.duel.schedule.ready = before ++ t :: behind) (hid : t.id = id) :
    ∃ hs, (∀ x ∈ hs, x = .step) ∧ let x := c.after l hs
      P x ∧ ∃ t ready, x.duel.schedule.ready = t :: ready ∧ t.id = id := by
  induction before generalizing c behind with
  | nil => exact ⟨[], nofun, hc, t, behind, hr, hid⟩
  | cons u before ih =>
    by_cases huid : u.id = id
    · exact ⟨[], nofun, hc, u, _, hr, huid⟩
    · have hmem : u ∈ c.duel.schedule.tasks := by simp [Schedule.tasks, hr]
      obtain ⟨c', hstep⟩ := exists_step? l.tell hr (h.callers hc u hmem)
      obtain ⟨hc', more, hready⟩ := h.steps hc hr huid hstep
      have hr' : c'.duel.schedule.ready = before ++ t :: (behind ++ more) := by
        rw [← hready]
        simp
      obtain ⟨hs, hsteps, hx⟩ := ih hc' hr'
      refine ⟨.step :: hs, fun x hx => ?_, ?_⟩
      · rcases List.mem_cons.mp hx with rfl | hx
        · rfl
        · exact hsteps x hx
      · rw [after_cons, happen_step hstep]
        exact hx

/-- A task that waits comes to its step. -/
theorem Waiting.turn (h : Waiting l id P) (hc : P c) :
    ∃ hs, (∀ x ∈ hs, x = .step ∨ x = .wake) ∧ let x := c.after l hs
      P x ∧ ∃ t ready x', x.duel.schedule.ready = t :: ready ∧ t.id = id ∧
        x.step? l.tell = some x' := by
  obtain ⟨wakes, hwakes, hwoken, t, hmem, hid⟩ := h.woken hc
  obtain ⟨before, behind, hr⟩ := List.append_of_mem hmem
  obtain ⟨steps, hsteps, hhead, t', ready, hr', hid'⟩ := h.head hwoken hr hid
  have hmem' : t' ∈ (((c.after l wakes).after l steps).duel.schedule).tasks := by
    simp [Schedule.tasks, hr']
  obtain ⟨x', hstep⟩ := exists_step? l.tell hr' (h.callers hhead t' hmem')
  refine ⟨wakes ++ steps, fun x hx => ?_, ?_⟩
  · rcases List.mem_append.mp hx with hx | hx
    · exact Or.inr (hwakes x hx)
    · exact Or.inl (hsteps x hx)
  · rw [after_append]
    exact ⟨hhead, t', ready, x', hr', hid', hstep⟩

end Coordinator

end MazeDuel.Turn
