import MazeDuel.Match.Runner
/-!
The hall: the match that is played, and those before it, under one clock. A match that was replaced
had its timer and its latest run called off; an earlier run of it may still be in its pause, and
goes on from there.
-/

namespace MazeDuel

open Turn

structure Hall where
  /-- The match that is played; the present moment is that of its clock. -/
  active : Runner
  /-- The matches before it that still have something to do. -/
  retired : List Runner := []
  /-- The records that have not been handed out, the latest first. -/
  records : List Record := []

namespace Hall

def update (h : Hall) (f : Runner → Runner) : Hall :=
  let r := f h.active
  { h with active := r.withoutRecords, records := r.duel.journal ++ h.records }

def ask (h : Hall) (f : Runner → α × Runner) : α × Hall :=
  let (a, r) := f h.active
  (a, h.update fun _ => r)

/-- The records are handed out once. -/
def handOut (h : Hall) : Logged Hall := ⟨{ h with records := [] }, h.records.reverse⟩

/-- Lets one of the matches work at the present moment; the one that is played comes first, and the
others are counted on from it. -/
def work (h : Hall) (f : Runner → Runner) : Nat → Hall
  | 0 => h.update f
  | i + 1 =>
    match h.retired[i]? with
    | none => h
    | some r =>
      let r := f (r.atMoment h.active)
      { active := h.active.atMoment r
        retired := h.retired.set i r.withoutRecords
        records := r.duel.journal ++ h.records }

/-- The sleeper of all matches that is woken next, with the number of its match. -/
def first? (h : Hall) : Option (Sleeper Job × Nat) :=
  (h.active :: h.retired).zipIdx.foldl (fun best (r, i) =>
    match best, r.duel.schedule.first? with
    | best, none => best
    | none, some s => some (s, i)
    | some (t, j), some s => if s.before t then some (s, i) else some (t, j)) none

/-- A new match takes the place of the one that was played, at the same moment. -/
def replace (h : Hall) (r : Runner) : Hall :=
  { h with
    active := r.atMoment h.active
    retired := (h.active :: h.retired).filter (·.duel.schedule.isBusy) }

def drain (h : Hall) : Hall := h.update (·.drain)

def passAt (target : Float) : Nat → Hall → Hall
  | 0, h => h
  | fuel + 1, h =>
    match h.first? with
    | some (s, i) => if s.due ≤ target then passAt target fuel (h.work Runner.wake i) else h
    | none => h

def advance (seconds : Float) (h : Hall) : Hall :=
  let target := h.active.now + seconds
  (h.drain.passAt target Coordinator.patience).update (·.setNow target)

def untilCallerAt : Nat → Hall → Hall
  | 0, h => h
  | fuel + 1, h =>
    if h.active.duel.schedule.ready.isEmpty then
      match h.first? with
      | some (_, i) => untilCallerAt fuel (h.work Runner.wake i)
      | none => h
    else h

def awaitTask (id : Nat) (h : Hall) : Hall :=
  if h.active.duel.isPending id then
    let h := h.update (·.update (·.update ({ · with awaited := some id })))
    (h.drain.untilCallerAt Coordinator.patience).update (·.update (·.takeCaller))
  else h

/-- Takes the place of the caller for some work and then lets everything ready run. -/
def asCaller (h : Hall) (work : Hall → α × Hall) : α × Hall :=
  let (a, h) := work (h.update (·.update (·.enter Runner.tell)))
  (a, h.drain)

end Hall

end MazeDuel
