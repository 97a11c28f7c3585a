import MazeDuel.Notification
import MazeDuel.Proofs.Number.Order
/-!
Polling: a reader asks a log from time to time for what is new, and remembers only its size. A log
without a limit answers with all that came since. One with a limit lets its oldest entries go, and
the positions of the others shift: the reader misses the first of what came, if the log held
something at the last poll and cannot hold that together with what came since.
-/

namespace MazeDuel

namespace EventLog

variable {α : Type}

/-- How many entries a log can hold; only a whole number is a limit that it can keep to. -/
def capacity (limit : Json) : Option Nat := limit.toInt.toOption.map Int.toNat

/-- As many of the latest entries as can be held. -/
def latest (capacity : Option Nat) (entries : List α) : List α :=
  match capacity with
  | none => entries
  | some n => entries.drop (entries.length - n)

theorem excess_whole {limit : Json} {n : Int} (h : limit.toInt = .ok n) (size : Nat) :
    excess limit size = .ok (if n < size then (size - n).toNat else 0) := by
  have hasked (q : Quantity) (hq : q.toInt? = some n) :
      (if q.lt (Int.ofNat size) then limit.toInt >>= fun n => pure (size - n).toNat else pure 0) =
        (.ok (if n < size then (size - n).toNat else 0) : Except Fault Nat) := by
    have hlt : q.lt (Int.ofNat size) = decide (n < size) := Quantity.lt_of_toInt? hq rfl
    rw [hlt, h]
    by_cases hn : n < size
    · rw [if_pos (decide_eq_true hn), if_pos hn]
      rfl
    · rw [if_neg (by simpa using hn), if_neg hn]
      rfl
  cases limit with
  | whole m => exact hasked (.whole m) (congrArg some (Except.ok.inj h))
  | bool b => exact hasked (.flag b) (congrArg some (Except.ok.inj h))
  | _ => cases h

/-- A limit that cannot be kept to lets nothing go. -/
theorem excess_other {limit : Json} {fault : Fault} (h : limit.toInt = .error fault) (size : Nat) :
    (excess limit size).toOption.getD 0 = 0 := by
  have hasked : ((limit.toQuantity >>= fun q => if q.lt (Int.ofNat size) then
      limit.toInt >>= fun n => pure (size - n).toNat else pure 0).toOption).getD 0 = 0 := by
    rw [h]
    cases limit.toQuantity with
    | error _ => rfl
    | ok q =>
      show ((if q.lt (Int.ofNat size) then Except.error fault else .ok 0).toOption).getD 0 = 0
      split <;> rfl
  cases limit with
  | null => rfl
  | _ => exact hasked

/-- Recording keeps as many of the latest entries as can be held. -/
theorem events_record_latest (log : EventLog α) (entry : α) :
    (log.record entry).events = latest (capacity log.limit) (log.events ++ [entry]) := by
  unfold record capacity
  cases hlimit : log.limit.toInt with
  | error fault =>
    simp only [excess_other hlimit]
    rfl
  | ok n =>
    simp only [excess_whole hlimit]
    show (log.events ++ [entry]).drop (if n < (log.events ++ [entry]).length then _ else 0) =
      (log.events ++ [entry]).drop ((log.events ++ [entry]).length - n.toNat)
    generalize log.events ++ [entry] = entries
    by_cases hneg : n < 0
    · rw [if_pos (by omega), List.drop_eq_nil_of_le (by omega), List.drop_eq_nil_of_le (by omega)]
    · congr 1
      split <;> omega

theorem latest_concat (capacity : Option Nat) (entries : List α) (entry : α) :
    latest capacity (latest capacity entries ++ [entry]) =
      latest capacity (entries ++ [entry]) := by
  cases capacity with
  | none => rfl
  | some n =>
    have hkept : (entries.drop (entries.length - n) ++ [entry]).length - n =
        (entries.length + 1 - n) - (entries.length - n) := by
      rw [List.length_append, List.length_drop, List.length_singleton]
      omega
    show (entries.drop (entries.length - n) ++ [entry]).drop
      ((entries.drop (entries.length - n) ++ [entry]).length - n) =
        (entries ++ [entry]).drop ((entries ++ [entry]).length - n)
    rw [hkept, ← List.drop_append_of_le_length (by omega), List.drop_drop, List.length_append,
      List.length_singleton]
    congr 1
    omega

theorem length_latest (capacity : Option Nat) (entries : List α) :
    (latest capacity entries).length = capacity.elim entries.length (min entries.length) := by
  cases capacity with
  | none => rfl
  | some n =>
    show (entries.drop (entries.length - n)).length = min entries.length n
    rw [List.length_drop]
    omega

end EventLog

/-- What comes to a log: an entry, or a reader who asks for what is new. -/
inductive Visit (α : Type) where
  | record (entry : α)
  | poll

/-- A log and its reader, with what has passed between them. -/
structure Reading (α : Type) where
  log : EventLog α
  /-- The size of the log at the last poll: all that the reader remembers. -/
  position : Nat := 0
  /-- Everything that was ever recorded, oldest first. -/
  recorded : List α := []
  /-- How much of it had been recorded at the last poll. -/
  seen : Nat := 0
  /-- The answers to all polls, one behind the other. -/
  given : List α := []

namespace Reading

variable {α : Type}

/-- What a poll is answered. -/
def answer (r : Reading α) : List α := r.log.since r.position

def visit (r : Reading α) : Visit α → Reading α
  | .record entry => { r with log := r.log.record entry, recorded := r.recorded ++ [entry] }
  | .poll =>
    { r with position := r.log.size, seen := r.recorded.length, given := r.given ++ r.answer }

def start (limit : Json) : Reading α := { log := { limit } }

def after (limit : Json) (visits : List (Visit α)) : Reading α := visits.foldl visit (start limit)

/-- How many entries came since the last poll. -/
def fresh (r : Reading α) : Nat := r.recorded.length - r.seen

/-- The entries that came since the last poll and are still held, when those that are held are the
latest of all. -/
def unread (r : Reading α) : List α :=
  r.recorded.drop (max r.seen (r.recorded.length - r.log.size))

/-- How many of these are missed by a reader of a log that can hold `capacity` entries. -/
def missed (r : Reading α) (capacity : Option Nat) : Nat :=
  capacity.elim 0 fun n => min r.position (r.position + r.fresh - n)

/-- The log holds the latest of what was recorded, and did so at the last poll. -/
structure Kept (limit : Json) (r : Reading α) : Prop where
  limited : r.log.limit = limit
  events : r.log.events = EventLog.latest (EventLog.capacity limit) r.recorded
  seen : r.seen ≤ r.recorded.length
  position : r.position = (EventLog.capacity limit).elim r.seen (min r.seen)
  given : EventLog.capacity limit = none → r.given = r.recorded.take r.seen

variable {limit : Json} {r : Reading α}

theorem Kept.size (h : r.Kept limit) :
    r.log.size = (EventLog.capacity limit).elim r.recorded.length (min r.recorded.length) := by
  rw [EventLog.size, h.events, EventLog.length_latest]

theorem answer_eq (r : Reading α) : r.answer = r.log.events.drop r.position := by
  rw [answer, EventLog.since, if_neg (by omega)]
  rfl

/-- A log without a limit answers with everything that has not been seen. -/
theorem Kept.answer_unlimited (h : r.Kept limit) (hnone : EventLog.capacity limit = none) :
    r.answer = r.recorded.drop r.seen := by
  rw [answer_eq, h.events, h.position, hnone]
  rfl

theorem kept_start (limit : Json) : (start limit : Reading α).Kept limit where
  limited := rfl
  events := by
    cases hcapacity : EventLog.capacity limit <;> simp [start, EventLog.latest]
  seen := Nat.le_refl _
  position := by
    cases hcapacity : EventLog.capacity limit <;> simp [start]
  given _ := rfl

theorem Kept.visit (h : r.Kept limit) (v : Visit α) : (r.visit v).Kept limit := by
  cases v with
  | record entry =>
    constructor
    case limited => exact h.limited
    case events =>
      show (r.log.record entry).events = _
      rw [EventLog.events_record_latest, h.limited, h.events, EventLog.latest_concat]
      rfl
    case seen =>
      show r.seen ≤ (r.recorded ++ [entry]).length
      rw [List.length_append]
      exact Nat.le_add_right_of_le h.seen
    case position => exact h.position
    case given =>
      intro hnone
      show r.given = (r.recorded ++ [entry]).take r.seen
      rw [List.take_append_of_le_length h.seen]
      exact h.given hnone
  | poll =>
    constructor
    case limited => exact h.limited
    case events => exact h.events
    case seen => exact Nat.le_refl _
    case position => exact h.size
    case given =>
      intro hnone
      show r.given ++ r.answer = r.recorded.take r.recorded.length
      rw [h.given hnone, h.answer_unlimited hnone, List.take_append_drop, List.take_length]

theorem kept_after (limit : Json) (visits : List (Visit α)) : (after limit visits).Kept limit := by
  have hrun {r : Reading α} (h : r.Kept limit) : (visits.foldl Reading.visit r).Kept limit := by
    induction visits generalizing r with
    | nil => exact h
    | cons v visits ih => exact ih (h.visit v)
  exact hrun (kept_start limit)

/-- A poll is answered with what is unread, but for the first entries that are missed. -/
theorem Kept.answer (h : r.Kept limit) :
    r.answer = r.unread.drop (r.missed (EventLog.capacity limit)) := by
  have hseen := h.seen
  rw [answer_eq, unread, missed, fresh, List.drop_drop, h.events, h.size, h.position]
  cases EventLog.capacity limit with
  | none =>
    show r.recorded.drop r.seen = r.recorded.drop (max r.seen (_ - r.recorded.length) + 0)
    congr 1
    omega
  | some n =>
    show (r.recorded.drop (r.recorded.length - n)).drop (min r.seen n) = r.recorded.drop
      (max r.seen (_ - min r.recorded.length n) +
        min (min r.seen n) (min r.seen n + (r.recorded.length - r.seen) - n))
    rw [List.drop_drop]
    congr 1
    omega

theorem Kept.missed_le (h : r.Kept limit) :
    r.missed (EventLog.capacity limit) ≤ r.unread.length := by
  have hseen := h.seen
  rw [missed, unread, fresh, List.length_drop, h.size, h.position]
  cases EventLog.capacity limit with
  | none => exact Nat.zero_le _
  | some n =>
    show min (min r.seen n) (min r.seen n + (r.recorded.length - r.seen) - n) ≤
      r.recorded.length - max r.seen (r.recorded.length - min r.recorded.length n)
    omega

/-- A reader who polls a log. Whatever came in whatever order, the log holds the latest of all
entries, and the next poll is answered, in order, with those of them that came since the last one,
but for the first few that are missed. Nothing is missed just if the log was empty at the last poll
or can hold what it held then together with what came since; so without a limit the answers put
together are all that has been recorded, each entry once. -/
theorem poll_exact_iff (limit : Json) (visits : List (Visit α)) :
    let r := after limit visits
    let capacity := EventLog.capacity limit
    r.log.events = r.recorded.drop (r.recorded.length - r.log.size) ∧
      r.answer = r.unread.drop (r.missed capacity) ∧
      (r.answer = r.unread ↔
        r.position = 0 ∨ ∀ n, capacity = some n → r.position + r.fresh ≤ n) ∧
      (capacity = none → r.given = r.recorded.take r.seen) := by
  intro r capacity
  have hr : r.Kept limit := kept_after limit visits
  refine ⟨?_, hr.answer, ?_, hr.given⟩
  · rw [hr.size, hr.events]
    cases hcapacity : EventLog.capacity limit with
    | none =>
      show r.recorded = r.recorded.drop (r.recorded.length - r.recorded.length)
      rw [Nat.sub_self, List.drop_zero]
    | some n =>
      show r.recorded.drop _ = r.recorded.drop (_ - min _ n)
      congr 1
      omega
  · have hnothing : r.answer = r.unread ↔ r.missed capacity = 0 := by
      have hle := hr.missed_le
      rw [hr.answer]
      constructor
      · intro heq
        have hlength := congrArg List.length heq
        rw [List.length_drop] at hlength
        show r.missed (EventLog.capacity limit) = 0
        omega
      · intro hzero
        show r.unread.drop (r.missed capacity) = r.unread
        rw [hzero, List.drop_zero]
    rw [hnothing, missed]
    cases capacity with
    | none => simp
    | some n =>
      show min _ _ = 0 ↔ _
      simp only [Option.some.injEq, forall_eq']
      omega

/-- Without a limit nothing is missed, and the answers to two polls are the first two entries. -/
theorem poll_exact_unlimited :
    let r := after .null [.record 1, .poll, .record 2, .poll, .record 3]
    r.answer = r.unread ∧ r.given = [1, 2] ∧ r.answer = [3] := by
  obtain ⟨-, -, hexact, hgiven⟩ :=
    poll_exact_iff .null [.record 1, .poll, .record 2, .poll, .record 3]
  exact ⟨hexact.mpr (.inr nofun), hgiven rfl, rfl⟩

/-- A log of two entries that is full at a poll: the one that comes next is held, but missed. -/
theorem poll_misses_held :
    let r := after (.whole 2) [.record (.turnChanged .a), .record (.turnChanged .b), .poll,
      .record (Notification.turnChanged .a)]
    r.log.events = [.turnChanged .b, .turnChanged .a] ∧ r.unread = [.turnChanged .a] ∧
      r.answer = [] :=
  ⟨rfl, rfl, rfl⟩

end Reading

end MazeDuel
