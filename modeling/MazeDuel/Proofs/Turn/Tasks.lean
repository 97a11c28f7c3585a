import MazeDuel.Turn.Duel
import Mathlib.Data.List.Perm.Basic
import Mathlib.Data.List.Nodup
/-!
The tasks of a schedule, ready or asleep: which of them each operation keeps, adds and calls off.
-/

namespace MazeDuel.Turn

namespace Schedule

variable {J : Type}

def tasks (s : Schedule J) : List (Task J) := s.ready ++ s.asleep.map (·.task)

theorem ids_eq (s : Schedule J) : s.ids = s.tasks.map Task.id := by
  simp only [ids, tasks, List.map_append, List.map_map, Function.comp_def]

theorem mem_insertSleeper (s : Sleeper J) (l : List (Sleeper J)) (x : Sleeper J) :
    x ∈ insertSleeper s l ↔ x = s ∨ x ∈ l := by
  induction l with
  | nil => simp [insertSleeper]
  | cons t rest ih =>
    unfold insertSleeper
    split
    · simp
    · rw [List.mem_cons, ih, List.mem_cons]
      tauto

theorem mem_tasks (s : Schedule J) (t : Task J) :
    t ∈ s.tasks ↔ t ∈ s.ready ∨ ∃ x ∈ s.asleep, x.task = t := by
  simp [tasks]

@[simp] theorem mem_tasks_spawn (s : Schedule J) (job : J) (t : Task J) :
    t ∈ (s.spawn job).2.tasks ↔ t = { id := s.fresh, job } ∨ t ∈ s.tasks := by
  simp only [mem_tasks, spawn, List.mem_append, List.mem_singleton]
  tauto

@[simp] theorem mem_tasks_rest (s : Schedule J) (id : Nat) (job : J) (delay : Float) (t : Task J) :
    t ∈ (s.rest id job delay).tasks ↔ t = { id, job } ∨ t ∈ s.tasks := by
  unfold rest
  split
  · simp only [mem_tasks, List.mem_append, List.mem_singleton]
    tauto
  · simp only [mem_tasks, mem_insertSleeper]
    constructor
    · rintro (h | ⟨x, rfl | hx, rfl⟩)
      · exact Or.inr (Or.inl h)
      · exact Or.inl rfl
      · exact Or.inr (Or.inr ⟨x, hx, rfl⟩)
    · rintro (rfl | h | ⟨x, hx, rfl⟩)
      · exact Or.inr ⟨_, Or.inl rfl, rfl⟩
      · exact Or.inl h
      · exact Or.inr ⟨x, Or.inr hx, rfl⟩

theorem of_mem_asleep_rest {s : Schedule J} {id : Nat} {job : J} {delay : Float} {x : Sleeper J}
    (h : x ∈ (s.rest id job delay).asleep) :
    x = ⟨s.now + delay, s.fresh, { id, job }⟩ ∨ x ∈ s.asleep := by
  unfold rest at h
  split at h
  · exact Or.inr h
  · exact (mem_insertSleeper _ _ _).mp h

@[simp] theorem now_rest (s : Schedule J) (id : Nat) (job : J) (delay : Float) :
    (s.rest id job delay).now = s.now := by
  unfold rest
  split <;> rfl

theorem fresh_le_rest (s : Schedule J) (id : Nat) (job : J) (delay : Float) :
    s.fresh ≤ (s.rest id job delay).fresh := by
  unfold rest
  split <;> simp

@[simp] theorem fresh_cancel (s : Schedule J) (id : Nat) : (s.cancel id).fresh = s.fresh := by
  unfold cancel
  split <;> rfl

/-- Calling off a task makes no new ones: what is there was there under the same number and with the
same job. -/
theorem of_mem_tasks_cancel {s : Schedule J} {id : Nat} {t : Task J} (h : t ∈ (s.cancel id).tasks) :
    t ∈ s.tasks ∨ t.id = id ∧ t.cancelled = true ∧ ∃ u ∈ s.tasks, u.id = t.id ∧ u.job = t.job := by
  unfold cancel at h
  split at h
  · rename_i x hx
    have hid : x.task.id = id := by simpa using List.find?_some hx
    simp only [mem_tasks, List.mem_append, List.mem_singleton, List.mem_filter] at h
    rcases h with (h | rfl) | ⟨y, hy, rfl⟩
    · exact Or.inl ((mem_tasks s t).mpr (Or.inl h))
    · exact Or.inr ⟨hid, rfl, x.task, (mem_tasks s _).mpr (Or.inr ⟨x, List.mem_of_find?_eq_some hx,
        rfl⟩), rfl, rfl⟩
    · exact Or.inl ((mem_tasks s _).mpr (Or.inr ⟨y, hy.1, rfl⟩))
  · simp only [mem_tasks, List.mem_map] at h
    rcases h with ⟨u, hu, rfl⟩ | ⟨y, hy, rfl⟩
    · by_cases hid : u.id = id
      · simp only [hid, beq_self_eq_true, if_true]
        exact Or.inr ⟨trivial, trivial, u, (mem_tasks s u).mpr (Or.inl hu), hid, rfl⟩
      · simp only [beq_iff_eq, hid, if_false]
        exact Or.inl ((mem_tasks s u).mpr (Or.inl hu))
    · exact Or.inl ((mem_tasks s _).mpr (Or.inr ⟨y, hy, rfl⟩))

theorem ids_cancel_perm (s : Schedule J) (id : Nat) (hn : s.ids.Nodup) :
    (s.cancel id).ids.Perm s.ids := by
  unfold cancel
  split
  · rename_i x hx
    have hid : x.task.id = id := by simpa using List.find?_some hx
    have hmem : x.task.id ∈ s.asleep.map (·.task.id) :=
      List.mem_map_of_mem (List.mem_of_find?_eq_some hx)
    have hasleep : (s.asleep.map (·.task.id)).Nodup := (List.nodup_append.mp hn).2.1
    have hfilter : (s.asleep.filter (·.task.id != id)).map (·.task.id) =
        (s.asleep.map (·.task.id)).erase id := by
      rw [hasleep.erase_eq_filter, List.filter_map]
      rfl
    simp only [ids, List.map_append, List.map_cons, List.map_nil, hfilter, List.append_assoc,
      List.singleton_append]
    apply List.Perm.append_left
    rw [hid] at hmem ⊢
    exact (List.perm_cons_erase hmem).symm
  · have hmap : (s.ready.map fun t => if t.id == id then { t with cancelled := true } else t).map
        Task.id = s.ready.map Task.id := by
      rw [List.map_map]
      apply List.map_congr_left
      intro t _
      by_cases h : t.id = id <;> simp [h]
    simp only [ids, hmap]
    exact .refl _

/-- A task that has been called off is not left as it was. -/
theorem of_mem_tasks_cancel_live {s : Schedule J} {id : Nat} {t : Task J} (hn : s.ids.Nodup)
    (h : t ∈ (s.cancel id).tasks) (hl : t.cancelled = false) : t ∈ s.tasks ∧ t.id ≠ id := by
  have hmem : t ∈ s.tasks := by
    rcases of_mem_tasks_cancel h with h | ⟨_, hc, _⟩
    · exact h
    · rw [hc] at hl
      cases hl
  refine ⟨hmem, ?_⟩
  rintro rfl
  unfold cancel at h
  split at h
  · rename_i x hx
    have hid : x.task.id = t.id := by simpa using List.find?_some hx
    have hx' : x.task.id ∈ s.asleep.map (·.task.id) :=
      List.mem_map_of_mem (List.mem_of_find?_eq_some hx)
    simp only [mem_tasks, List.mem_append, List.mem_singleton, List.mem_filter] at h
    rcases h with (h | rfl) | ⟨y, hy, rfl⟩
    · exact (List.nodup_append.mp hn).2.2 _ (List.mem_map_of_mem h) _ hx' hid.symm
    · cases hl
    · simp at hy
  · rename_i hx
    simp only [mem_tasks, List.mem_map] at h
    rcases h with ⟨u, hu, hut⟩ | ⟨y, hy, hyt⟩
    · by_cases hid : u.id = t.id
      · simp only [hid, beq_self_eq_true, if_true] at hut
        rw [← hut] at hl
        cases hl
      · simp only [beq_iff_eq, hid, if_false] at hut
        exact hid (congrArg Task.id hut)
    · have hne := List.find?_eq_none.mp hx y hy
      simp [hyt] at hne

theorem asleep_cancel (s : Schedule J) (id : Nat) :
    (s.cancel id).asleep = s.asleep.filter (·.task.id != id) := by
  unfold cancel
  split
  · rfl
  · rename_i hx
    refine (List.filter_eq_self.mpr ?_).symm
    intro x hmem
    simpa using List.find?_eq_none.mp hx x hmem

theorem of_mem_ready_cancel {s : Schedule J} {id : Nat} {t : Task J} (h : t ∈ (s.cancel id).ready)
    (hl : t.cancelled = false) : t ∈ s.ready := by
  unfold cancel at h
  split at h
  · rcases List.mem_append.mp h with h | h
    · exact h
    · rw [List.mem_singleton] at h
      subst h
      cases hl
  · obtain ⟨u, hu, hut⟩ := List.mem_map.mp h
    by_cases hid : u.id = id
    · simp only [hid, beq_self_eq_true, if_true] at hut
      rw [← hut] at hl
      cases hl
    · simp only [beq_iff_eq, hid, if_false] at hut
      exact hut ▸ hu

theorem mem_ready_cancel_self {s : Schedule J} {id : Nat} (h : id ∈ s.ids) :
    id ∈ (s.cancel id).ready.map Task.id := by
  unfold cancel
  split
  · rename_i x hx
    have hid : x.task.id = id := by simpa using List.find?_some hx
    simp [hid]
  · rename_i hx
    rcases List.mem_append.mp h with h | h
    · obtain ⟨t, ht, rfl⟩ := List.mem_map.mp h
      refine List.mem_map.mpr ⟨{ t with cancelled := true }, List.mem_map.mpr ⟨t, ht, ?_⟩, rfl⟩
      simp
    · obtain ⟨x, hmem, rfl⟩ := List.mem_map.mp h
      simpa using List.find?_eq_none.mp hx x hmem

@[simp] theorem now_cancel (s : Schedule J) (id : Nat) : (s.cancel id).now = s.now := by
  unfold cancel
  split <;> rfl

theorem length_ready_cancel (s : Schedule J) (id : Nat) :
    (s.cancel id).ready.length ≤ s.ready.length + 1 := by
  unfold cancel
  split <;> simp

theorem tasks_wake? {s s' : Schedule J} (h : s.wake? = some s') (t : Task J) :
    t ∈ s'.tasks ↔ t ∈ s.tasks := by
  unfold wake? at h
  split at h
  · cases h
  · rename_i x asleep hs
    cases h
    simp only [mem_tasks, List.mem_append, hs, List.mem_cons, exists_eq_or_imp]
    tauto

theorem of_mem_asleep_wake? {s s' : Schedule J} {x : Sleeper J} (h : s.wake? = some s')
    (hx : x ∈ s'.asleep) : x ∈ s.asleep := by
  unfold wake? at h
  split at h
  · cases h
  · rename_i y asleep hs
    cases h
    rw [hs]
    exact List.mem_cons_of_mem _ hx

/-- More tasks may have come, but behind those that were ready before. -/
structure Extends (s s' : Schedule J) : Prop where
  ready : s.ready <+: s'.ready
  asleep : s.asleep ⊆ s'.asleep

theorem Extends.refl (s : Schedule J) : Extends s s :=
  ⟨List.prefix_refl _, List.Subset.refl _⟩

theorem Extends.trans {s s' s'' : Schedule J} (h : Extends s s') (h' : Extends s' s'') :
    Extends s s'' :=
  ⟨h.ready.trans h'.ready, List.Subset.trans h.asleep h'.asleep⟩

theorem Extends.mem_tasks {s s' : Schedule J} (h : Extends s s') {t : Task J} (ht : t ∈ s.tasks) :
    t ∈ s'.tasks := by
  rcases (Schedule.mem_tasks s t).mp ht with hr | ⟨x, hx, rfl⟩
  · exact (Schedule.mem_tasks s' t).mpr (Or.inl (h.ready.subset hr))
  · exact (Schedule.mem_tasks s' _).mpr (Or.inr ⟨x, h.asleep hx, rfl⟩)

theorem extends_spawn (s : Schedule J) (job : J) : Extends s (s.spawn job).2 :=
  ⟨List.prefix_append _ _, List.Subset.refl _⟩

theorem extends_rest (s : Schedule J) (id : Nat) (job : J) (delay : Float) :
    Extends s (s.rest id job delay) := by
  unfold rest
  split
  · exact ⟨List.prefix_append _ _, List.Subset.refl _⟩
  · exact ⟨List.prefix_refl _, fun x hx => (mem_insertSleeper _ _ _).mpr (Or.inr hx)⟩

/-- A task is the only one of its number. -/
theorem eq_of_id_eq {s : Schedule J} (hn : s.ids.Nodup) {t u : Task J} (ht : t ∈ s.tasks)
    (hu : u ∈ s.tasks) (hid : t.id = u.id) : t = u := by
  rw [ids_eq] at hn
  exact List.inj_on_of_nodup_map hn ht hu hid

theorem fresh_wake? {s s' : Schedule J} (h : s.wake? = some s') : s'.fresh = s.fresh := by
  unfold wake? at h
  split at h
  · cases h
  · cases h
    rfl

end Schedule

end MazeDuel.Turn
