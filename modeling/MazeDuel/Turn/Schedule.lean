/-!
Schedules: tasks that wait for their next step, either in a queue of ready tasks, first in first
out, or asleep until a moment of a virtual clock. Nothing happens between two steps, so the clock
moves only when a sleeper is woken.
-/

namespace MazeDuel.Turn

/-- A task between two of its steps. -/
structure Task (J : Type) where
  id : Nat
  /-- What its next step does. -/
  job : J
  /-- Whether its next step ends it instead. -/
  cancelled : Bool := false

/-- A task that sleeps, and when it is due. -/
structure Sleeper (J : Type) where
  due : Float
  /-- Of those due together the one with the lowest number is woken first. -/
  order : Nat
  task : Task J

def Sleeper.before (s t : Sleeper J) : Bool := s.due < t.due || s.due == t.due && s.order < t.order

structure Schedule (J : Type) where
  now : Float := 0
  /-- A number that no task and no sleeper has had; the numbers are given out in order. -/
  fresh : Nat := 0
  ready : List (Task J) := []
  /-- The earliest due first; of those due together, the one that fell asleep first. -/
  asleep : List (Sleeper J) := []

namespace Schedule

variable {J : Type}

/-- Puts a sleeper behind all that are due no later. -/
def insertSleeper (s : Sleeper J) : List (Sleeper J) → List (Sleeper J)
  | [] => [s]
  | t :: rest => if s.due < t.due then s :: t :: rest else t :: insertSleeper s rest

def spawn (s : Schedule J) (job : J) : Nat × Schedule J :=
  (s.fresh, { s with fresh := s.fresh + 1, ready := s.ready ++ [{ id := s.fresh, job }] })

/-- Lets a task rest for some seconds; without a delay it goes to the end of the queue. -/
def rest (s : Schedule J) (id : Nat) (job : J) (delay : Float) : Schedule J :=
  if delay ≤ 0 then { s with ready := s.ready ++ [{ id, job }] }
  else
    { s with
      fresh := s.fresh + 1
      asleep := insertSleeper ⟨s.now + delay, s.fresh, { id, job }⟩ s.asleep }

/-- The ids of all tasks that wait for a step. -/
def ids (s : Schedule J) : List Nat := s.ready.map Task.id ++ s.asleep.map (·.task.id)

def holds (s : Schedule J) (id : Nat) : Bool := s.ids.contains id

/-- Lets the next step of a task end it. A sleeper is woken for that; a task that is not in the
schedule is left alone. -/
def cancel (s : Schedule J) (id : Nat) : Schedule J :=
  match s.asleep.find? (·.task.id == id) with
  | some sleeper =>
    { s with
      asleep := s.asleep.filter (·.task.id != id)
      ready := s.ready ++ [{ sleeper.task with cancelled := true }] }
  | none =>
    { s with ready := s.ready.map fun t => if t.id == id then { t with cancelled := true } else t }

/-- The first ready task, and the schedule without it. -/
def next? (s : Schedule J) : Option (Task J × Schedule J) :=
  match s.ready with
  | [] => none
  | t :: ready => some (t, { s with ready })

/-- Wakes the first sleeper. One who is due at an infinite moment could be woken too, although no
clock ever comes to it. -/
def wake? (s : Schedule J) : Option (Schedule J) :=
  match s.asleep with
  | [] => none
  | sleeper :: asleep =>
    some { s with now := sleeper.due, ready := s.ready ++ [sleeper.task], asleep }

def first? (s : Schedule J) : Option (Sleeper J) := s.asleep.head?

def due? (s : Schedule J) : Option Float := s.first?.map Sleeper.due

/-- The schedule at the moment of another clock, with numbers that are fresh there too. -/
def setClock (s : Schedule J) (now : Float) (fresh : Nat) : Schedule J := { s with now, fresh }

def isBusy (s : Schedule J) : Bool := !s.ready.isEmpty || !s.asleep.isEmpty

theorem map_id_insertSleeper (s : Sleeper J) (l : List (Sleeper J)) :
    ((insertSleeper s l).map (·.task.id)).Perm (s.task.id :: l.map (·.task.id)) := by
  induction l with
  | nil => exact .refl _
  | cons t rest ih =>
    unfold insertSleeper
    split
    · exact .refl _
    · exact (ih.cons t.task.id).trans (.swap _ _ _)

theorem ids_spawn (s : Schedule J) (job : J) : (s.spawn job).2.ids.Perm (s.fresh :: s.ids) := by
  simp only [spawn, ids, List.map_append, List.map_cons, List.map_nil, List.append_assoc]
  exact List.perm_middle

theorem ids_rest (s : Schedule J) (id : Nat) (job : J) (delay : Float) :
    (s.rest id job delay).ids.Perm (id :: s.ids) := by
  unfold rest
  split
  · simp only [ids, List.map_append, List.map_cons, List.map_nil, List.append_assoc]
    exact List.perm_middle
  · exact ((map_id_insertSleeper _ _).append_left _).trans List.perm_middle

theorem ids_wake? {s s' : Schedule J} (h : s.wake? = some s') : s'.ids.Perm s.ids := by
  unfold wake? at h
  split at h
  · cases h
  · rename_i sleeper asleep hs
    cases h
    simp only [ids, hs, List.map_append, List.map_cons, List.map_nil, List.append_assoc]
    exact .refl _

end Schedule

end MazeDuel.Turn
