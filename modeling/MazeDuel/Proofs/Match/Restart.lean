import MazeDuel.Proofs.Match.Playable
import MazeDuel.Proofs.Match.Reached
import MazeDuel.Proofs.Turn.Wakeful
/-!
Requests for a new match that fail. Settings that cannot be read are refused before anything is
done. Settings that can be read may still be no match: by then the timer of the active match and its
latest run have been called off, and the active match goes on without them.
-/

namespace MazeDuel

namespace Turn

/-- With nobody in the queue the sleeper that is called off becomes the only one there. -/
theorem Schedule.exists_cancel {J : Type} {s : Schedule J} {x : Sleeper J} (hr : s.ready = [])
    (hx : x ∈ s.asleep) :
    ∃ y ∈ s.asleep, y.task.id = x.task.id ∧ s.cancel x.task.id =
      { s with
        asleep := s.asleep.filter (·.task.id != x.task.id)
        ready := [{ y.task with cancelled := true }] } := by
  obtain ⟨y, hfind⟩ : ∃ y, s.asleep.find? (·.task.id == x.task.id) = some y :=
    Option.isSome_iff_exists.mp (List.find?_isSome.mpr ⟨x, hx, beq_self_eq_true _⟩)
  have hid : y.task.id = x.task.id := by simpa using List.find?_some hfind
  refine ⟨y, List.mem_of_find?_eq_some hfind, hid, ?_⟩
  unfold cancel
  rw [hfind, hr]
  rfl

namespace Duel

/-- Whether nobody is ready, and no caller waits for a task. -/
structure AtRest (d : Duel) : Prop where
  queue : d.schedule.ready = []
  unawaited : d.awaited = none

/-- A match of whose sleepers only some are left; those that were called off have ended. -/
def keeping (kept : Nat → Bool) (fresh : Nat) (ended : List Nat) (d : Duel) : Duel :=
  { d with
    schedule := { d.schedule with
      fresh, asleep := d.schedule.asleep.filter fun x => kept x.task.id }
    outcomes := ended.map (fun id => (id, .cancelled)) ++ d.outcomes }

/-- A match without its timer and the run accepted last. -/
def calledOff (fresh : Nat) (ended : List Nat) (d : Duel) : Duel :=
  { d.keeping (fun id => d.timer != some id && d.execution != some id) fresh ended with
    timer := none }

theorem keeping_keeping (kept kept' : Nat → Bool) (fresh fresh' : Nat) (ended ended' : List Nat)
    (d : Duel) : (d.keeping kept fresh ended).keeping kept' fresh' ended' =
      d.keeping (fun id => kept id && kept' id) fresh' (ended' ++ ended) := by
  simp only [keeping, List.filter_filter, List.map_append, List.append_assoc, Bool.and_comm]

/-- Whatever is called off now need not have been kept before. -/
theorem calledOff_keeping (fresh fresh' : Nat) (ended : List Nat) (d : Duel) :
    (d.keeping (fun _ => true) fresh []).calledOff fresh' ended = d.calledOff fresh' ended := by
  simp [calledOff, keeping]

/-- What was called off in a match at rest is gone. -/
theorem isPending_calledOff {d : Duel} (hs : d.running = none) (hr : AtRest d) {id : Nat}
    (h : d.timer = some id ∨ d.execution = some id) (fresh : Nat) (ended : List Nat) :
    (d.calledOff fresh ended).isPending id = false := by
  rw [← Bool.not_eq_true, Coordinator.isPending_iff (d := d.calledOff fresh ended) hs]
  intro hmem
  have hasleep : id ∈ (d.schedule.asleep.filter fun x =>
      d.timer != some x.task.id && d.execution != some x.task.id).map (·.task.id) := by
    have hready : (d.calledOff fresh ended).schedule.ready = [] := hr.queue
    rwa [Schedule.ids, hready, List.map_nil, List.nil_append] at hmem
  obtain ⟨x, hx, rfl⟩ := List.mem_map.mp hasleep
  have hkept := (List.mem_filter.mp hx).2
  rcases h with h | h
  · simp [h] at hkept
  · simp [h] at hkept

theorem Steady.keeping {d : Duel} (h : Steady d) (kept : Nat → Bool) (fresh : Nat)
    (ended : List Nat) : Steady (d.keeping kept fresh ended) :=
  ⟨h.still, fun x hx => h.nobody x (List.mem_filter.mp hx).1⟩

theorem AtRest.keeping {d : Duel} (h : AtRest d) (kept : Nat → Bool) (fresh : Nat)
    (ended : List Nat) : AtRest (d.keeping kept fresh ended) :=
  ⟨h.queue, h.unawaited⟩

end Duel

/-! ## Closing a match at rest -/

namespace Coordinator

open Duel

variable {M : Type} (tell : Notification → Coordinator M → Coordinator M) {c : Coordinator M}

theorem drainAt_atRest (hr : c.duel.schedule.ready = []) (fuel : Nat) :
    c.drainAt tell fuel = c := by
  have hstep : c.step? tell = none := by
    unfold step? Schedule.next?
    rw [hr]
  cases fuel with
  | zero => rfl
  | succ fuel =>
    unfold drainAt
    rw [hstep]

theorem drain_atRest (hr : c.duel.schedule.ready = []) : c.drain tell = c :=
  drainAt_atRest tell hr patience

/-- One step may be all there is to do. -/
theorem drain_step {c' : Coordinator M} (hstep : c.step? tell = some c')
    (hr : c'.duel.schedule.ready = []) : c.drain tell = c' := by
  have hall {fuel : Nat} (hf : 0 < fuel) : c.drainAt tell fuel = c' := by
    obtain ⟨fuel, rfl⟩ : ∃ n, fuel = n + 1 := ⟨fuel - 1, by omega⟩
    unfold drainAt
    rw [hstep]
    exact drainAt_atRest tell hr fuel
  exact hall (by decide)

/-- The caller's turn comes at once, and only a number has been given out. -/
theorem enter_atRest (hr : c.duel.schedule.ready = []) :
    c.enter tell = c.update (·.keeping (fun _ => true) (c.duel.schedule.fresh + 1) []) := by
  let queued := c.update fun d => { d with schedule := (d.schedule.spawn .caller).2 }
  have hready : queued.duel.schedule.ready = [{ id := c.duel.schedule.fresh, job := .caller }] := by
    simp [queued, update, Schedule.spawn, hr]
  show (queued.untilCallerAt tell patience).takeCaller = _
  rw [untilCallerAt_caller tell patience hready rfl]
  simp [queued, takeCaller, update, Schedule.spawn, keeping, hr]

/-- Waiting for a task that was called off, with nobody else in the queue, takes one step. -/
theorem untilCallerAt_cancelled {t : Task Job} {fuel : Nat} (hr : c.duel.schedule.ready = [t])
    (hc : t.cancelled = true) (hj : t.job ≠ .caller) (ha : c.duel.awaited = some t.id)
    (hn : c.duel.running = none) (hf : 0 < fuel) :
    (c.untilCallerAt tell fuel).takeCaller = c.update fun d =>
      { d with
        schedule := { d.schedule with ready := [], fresh := d.schedule.fresh + 1 }
        awaited := none, outcomes := (t.id, .cancelled) :: d.outcomes } := by
  obtain ⟨fuel, rfl⟩ : ∃ n, fuel = n + 1 := ⟨fuel - 1, by omega⟩
  have hend : (c.duel.taken t []).endTask t.id .cancelled =
      { c.duel.taken t [] with
        outcomes := (t.id, .cancelled) :: c.duel.outcomes, awaited := none
        schedule := ((c.duel.taken t []).schedule.spawn .caller).2 } := by
    unfold Duel.endTask
    simp [taken, ha]
  unfold untilCallerAt
  simp only [step?_cancelled tell hr hc hj, update, hend]
  rw [untilCallerAt_caller tell fuel (t := { id := c.duel.schedule.fresh, job := .caller }) rfl rfl]
  simp [takeCaller, update, taken, Schedule.spawn, hn]

/-- A sleeper that is called off ends at once. -/
theorem callOffAt_asleep (hs : Steady c.duel) (hr : AtRest c.duel) {x : Sleeper Job} {fuel : Nat}
    (hx : x ∈ c.duel.schedule.asleep) (hf : 0 < fuel) :
    c.callOffAt tell fuel (some x.task.id) = c.update
      (·.keeping (fun id => some x.task.id != some id) (c.duel.schedule.fresh + 1)
        [x.task.id]) := by
  have hmem : x.task.id ∈ c.duel.schedule.ids :=
    List.mem_append_right _ (List.mem_map.mpr ⟨x, hx, rfl⟩)
  obtain ⟨y, hy, hid, hcancel⟩ := Schedule.exists_cancel hr.queue hx
  have hjob : y.task.job ≠ .caller := hs.nobody y hy
  have hpending : c.duel.isPending x.task.id = true := (isPending_iff hs.still _).mpr hmem
  let cut : Coordinator M := c.update fun d =>
    { d with schedule := d.schedule.cancel x.task.id }
  have hpending' : cut.duel.isPending x.task.id = true :=
    (isPending_iff (d := cut.duel) hs.still _).mpr
      (List.mem_append_left _ (Schedule.mem_ready_cancel_self hmem))
  have hrun := untilCallerAt_cancelled tell
    (c := cut.update ({ · with awaited := some x.task.id }))
    (t := { y.task with cancelled := true }) (by simp only [cut, update, hcancel]) rfl hjob
    (by simp only [cut, update, hid]) hs.still hf
  have hother (z : Sleeper Job) :
      (z.task.id != x.task.id) = (some x.task.id != some z.task.id) := by
    rw [Bool.eq_iff_iff, bne_iff_ne, bne_iff_ne, ne_comm, ne_eq, ne_eq, Option.some.injEq]
  have hcall : c.callOffAt tell fuel (some x.task.id) =
      ((cut.update ({ · with awaited := some x.task.id })).untilCallerAt tell fuel).takeCaller := by
    show (if c.duel.isPending x.task.id = true then
      if cut.duel.isPending x.task.id = true then _ else _ else _) = _
    rw [if_pos hpending, if_pos hpending']
  rw [hcall, hrun]
  simp only [cut, update, keeping, hcancel, hother, hid, hr.unawaited, hr.queue, List.map_cons,
    List.map_nil, List.cons_append, List.nil_append]

/-- Only a sleeper has to be called off. -/
theorem callOffAt_atRest (hs : Steady c.duel) (hr : AtRest c.duel) (id : Option Nat) {fuel : Nat}
    (hf : 0 < fuel) :
    ∃ fresh ended, (∀ x ∈ ended, id = some x) ∧
      c.callOffAt tell fuel id = c.update (·.keeping (fun x => id != some x) fresh ended) := by
  by_cases hasleep : ∃ x ∈ c.duel.schedule.asleep, id = some x.task.id
  · obtain ⟨x, hx, rfl⟩ := hasleep
    exact ⟨_, [x.task.id], by simp, callOffAt_asleep tell hs hr hx hf⟩
  · have hall : c.duel.schedule.asleep.filter (fun x => id != some x.task.id) =
        c.duel.schedule.asleep :=
      List.filter_eq_self.mpr fun x hx => bne_iff_ne.mpr fun heq => hasleep ⟨x, hx, heq⟩
    have hsame : c = c.update (·.keeping (fun x => id != some x) c.duel.schedule.fresh []) := by
      simp [update, keeping, hall]
    refine ⟨c.duel.schedule.fresh, [], fun _ h => absurd h List.not_mem_nil, Eq.trans ?_ hsame⟩
    cases id with
    | none => rfl
    | some id =>
      have hpending : ¬ c.duel.isPending id = true := by
        rw [isPending_iff hs.still, Schedule.ids, hr.queue]
        intro hmem
        obtain ⟨x, hx, rfl⟩ := List.mem_map.mp hmem
        exact hasleep ⟨x, hx, rfl⟩
      show (if c.duel.isPending id = true then _ else c) = c
      rw [if_neg hpending]

/-- Closing a match at rest calls off its timer and the run accepted last, as far as they have not
ended, and does nothing else. -/
theorem callOffAll_atRest (hs : Steady c.duel) (hr : AtRest c.duel) :
    ∃ fresh ended, (∀ id ∈ ended, c.duel.timer = some id ∨ c.duel.execution = some id) ∧
      c.callOffAll tell = c.update (·.calledOff fresh ended) := by
  have hfuel : 0 < patience + c.duel.schedule.ready.length := Nat.add_pos_left (by decide) _
  obtain ⟨fresh, ended, htimer, heq⟩ := callOffAt_atRest tell hs hr c.duel.timer hfuel
  let kept (id : Nat) : Bool := c.duel.timer != some id
  let cut := c.update (·.keeping kept fresh ended)
  have hs' : Steady cut.duel := hs.keeping kept fresh ended
  obtain ⟨fresh', ended', hrun, heq'⟩ := callOffAt_atRest tell hs' (hr.keeping kept fresh ended)
    c.duel.execution hfuel
  refine ⟨fresh', ended' ++ ended, ?_, ?_⟩
  · intro id hid
    rcases List.mem_append.mp hid with hid | hid
    · exact .inr (hrun id hid)
    · exact .inl (htimer id hid)
  · unfold callOffAll callOffAllAt
    rw [heq]
    show ((cut.callOffAt tell _ c.duel.execution).update ({ · with timer := none })) = _
    rw [heq']
    simp only [cut, kept, update, keeping_keeping, calledOff]

end Coordinator

end Turn

open Turn

theorem Frame.combatant_toJson {radar : Json} {p : Player} {fixes : Fixes} (c : Combatant)
    (h : radar.fieldD (word p) (.object []) = .ok fixes.toJson) :
    Frame.combatant radar (word p, c.toJson) =
      .ok ((c.toJson.insert "alive" (.bool !c.health.atMost 0)).insert "known_to_opponent"
        fixes.prev.toJson) := by
  have halive : Frame.alive c.toJson = .ok !c.health.atMost 0 := by
    show (c.health.toJson.toQuantity >>= fun q => Except.ok !q.atMost 0) = _
    rw [Quantity.toQuantity_toJson]
    rfl
  unfold Frame.combatant
  show (Frame.alive c.toJson >>= fun alive => _) = _
  rw [halive]
  show (radar.fieldD (word p) (.object []) >>= fun known => _) = _
  rw [h]
  rfl

/-- A frame of a match can be written. -/
theorem Runner.exists_document (r : Runner) :
    ∃ document, (r.frame none []).toJson = .ok document := by
  let arena := r.duel.arena
  have hradar (p : Player) : arena.radarJson.fieldD (word p) (.object []) =
      .ok (arena.fixes.get p).toJson := by
    cases p <;> rfl
  have ha := Frame.combatant_toJson arena.combatants.a (hradar .a)
  have hb := Frame.combatant_toJson arena.combatants.b (hradar .b)
  have hmap : ∃ documents, Frame.combatants arena.toJson = .ok documents := by
    show ∃ documents, [(word Player.a, arena.combatants.a.toJson),
      (word Player.b, arena.combatants.b.toJson)].mapM (Frame.combatant arena.radarJson) =
        .ok documents
    simp only [List.mapM_cons, List.mapM_nil, ha, hb]
    exact ⟨_, rfl⟩
  obtain ⟨documents, hdocuments⟩ := hmap
  unfold Frame.toJson
  show ∃ document, (Frame.combatants arena.toJson >>= fun combatants => _) = .ok document
  rw [hdocuments]
  exact ⟨_, rfl⟩

theorem Service.report_done (r : Runner) (members : List (String × Json)) :
    ∃ reply, report r members = .ok (.done reply) := by
  obtain ⟨document, hdocument⟩ := r.exists_document
  unfold report
  rw [hdocument]
  exact ⟨_, rfl⟩

namespace Hall

variable {h : Hall}

/-- What reports nothing only changes the match. -/
theorem update_silent {f : Coordinator Unit → Coordinator Unit} {g : Duel → Duel}
    (hf : f h.active.coordinator = h.active.coordinator.update g)
    (hj : (g h.active.duel).journal = []) (hr : h.records = []) :
    h.update (·.update f) = { h with active := h.active.update (·.update g) } := by
  have hactive : h.active.update f = h.active.update (·.update g) := by
    simp only [Runner.update, hf]
  have hsame : (h.active.update (·.update g)).withoutRecords = h.active.update (·.update g) := by
    show (h.active.update (·.update g)).update (·.update fun d => { d with journal := [] }) = _
    rw [← hj]
    rfl
  show ({ h with
    active := (h.active.update f).withoutRecords
    records := (h.active.update f).duel.journal ++ h.records } : Hall) = _
  rw [hactive, hsame, hr, List.append_nil]
  exact congrArg (Hall.mk _ _) hj

theorem duel_drain (h : Hall) : h.drain.active.duel =
    { (h.active.coordinator.drain Runner.tell).duel with journal := [] } :=
  rfl

end Hall

namespace Service

variable {s : Service} {h : Hall}

/-- Closing a match at rest takes its timer and its latest run away and leaves the rest as it
was. -/
theorem closeActive_atRest (hs : Sound s) (hhall : s.hall = some h)
    (hrest : h.active.duel.AtRest) :
    ∃ fresh ended,
      (∀ id ∈ ended, h.active.duel.timer = some id ∨ h.active.duel.execution = some id) ∧
      s.closeActive.value = { s with
        hall := some { h with
          active := h.active.update (·.update (·.calledOff fresh ended)) } } := by
  obtain ⟨hsteady, hj, hr, hclock⟩ := hs h hhall
  let next : Nat := h.active.duel.schedule.fresh + 1
  let inside : Hall := { h with
    active := h.active.update (·.update (·.keeping (fun _ => true) next [])) }
  have henter : h.update (·.update (·.enter Runner.tell)) = inside :=
    Hall.update_silent (Coordinator.enter_atRest Runner.tell hrest.queue) hj hr
  have hs' : inside.active.duel.Steady := hsteady.active.keeping (fun _ => true) next []
  have hrest' : inside.active.duel.AtRest := hrest.keeping (fun _ => true) next []
  obtain ⟨fresh, ended, hended, hoff⟩ := Coordinator.callOffAll_atRest Runner.tell hs' hrest'
  let closed : Hall := { h with active := h.active.update (·.update (·.calledOff fresh ended)) }
  have hclosed : inside.update (·.update (·.callOffAll Runner.tell)) = closed := by
    rw [Hall.update_silent hoff hj hr]
    simp only [inside, closed, Runner.update, Coordinator.update, Duel.calledOff_keeping]
  have hdrain : closed.drain = closed :=
    Hall.update_silent (g := id) (Coordinator.drain_atRest Runner.tell hrest.queue) hj hr
  refine ⟨fresh, ended, hended, ?_⟩
  unfold closeActive Hall.asCaller
  rw [hhall]
  simp only [henter, hclosed, hdrain]
  show (⟨h.active.now, some { closed with records := [] }⟩ : Service) = ⟨s.clock, some closed⟩
  rw [hclock, ← hr]

variable {Output : Type} {framework : Framework Output} {seeds : Json → Random.Twister}

/-- The settings that a request for a new match asks for, if they can be read. -/
def settings? (framework : Framework Output) (body : Json) : Option MatchConfig :=
  match Call.read framework "/start" body with
  | some (.start settings) => (requested settings).toOption
  | _ => none

theorem read_start {body : Json} {call : Call}
    (h : Call.read framework "/start" body = some call) : ∃ settings, call = .start settings := by
  cases body with
  | object members =>
    obtain ⟨settings, -, hstart⟩ := Option.bind_eq_some_iff.mp h
    exact ⟨settings, (Option.some.inj hstart).symm⟩
  | _ => cases h

theorem value_start_unreadable {settings : Json} {fault : Fault}
    (h : requested settings = .error fault) :
    (s.start seeds settings).value = (.ok (.refused fault.message), s) := by
  unfold start
  rw [h]
  rfl

/-- The active match is closed even if there is no new one then. -/
theorem value_start_unbuilt {settings : Json} {config : MatchConfig} {fault : Fault}
    (h : requested settings = .ok config)
    (hmake : (Runner.make seeds config false).value = .error fault) :
    (s.start seeds settings).value = (.error fault, s.closeActive.value) := by
  unfold start
  rw [h]
  simp only [Logged.value_bind, hmake]
  rfl

/-- The hall with a new match that has been started. -/
def opened (s : Service) (config : MatchConfig) (r : Runner) : Hall :=
  (s.closeActive.value.welcome r).update fun r => r.start.2.update (·.update (·.record
    ⟨.info, logger, "Started match " ++ config.display⟩))

theorem value_start_built {settings : Json} {config : MatchConfig} {r : Runner}
    (h : requested settings = .ok config)
    (hmake : (Runner.make seeds config false).value = .ok r) :
    (s.start seeds settings).value = (report (s.opened config r).active [("success", .bool true)],
      (withHall (s.opened config r).drain).value) := by
  unfold start
  rw [h]
  simp only [Logged.value_bind, hmake]
  rfl

theorem handle_start {body settings : Json}
    (h : Call.read framework "/start" body = some (.start settings)) :
    s.handle framework seeds "/start" body = s.start seeds settings := by
  unfold handle
  rw [h]
  rfl

/-- A request for a new match that fails, in a state that requests and the clock lead to. If its
settings cannot be read, nothing changes. Otherwise there is no match with these settings, and the
active match has been closed all the same. If it was at rest, it stays what it is but for its timer
and the run accepted last: these are called off. -/
theorem start_failed (hs : Reached framework s) (hhall : s.hall = some h)
    (seeds : Json → Random.Twister) (body : Json)
    (hfails : ∀ reply, (s.handle framework seeds "/start" body).value.1 ≠ .ok (.done reply)) :
    (settings? framework body = none ∧ (s.handle framework seeds "/start" body).value.2 = s) ∨
    ∃ config fault, settings? framework body = some config ∧
      (Runner.make seeds config false).value = .error fault ∧
      (s.handle framework seeds "/start" body).value = (.error fault, s.closeActive.value) ∧
      (h.active.duel.AtRest → ∃ fresh ended,
        (∀ id ∈ ended, h.active.duel.timer = some id ∨ h.active.duel.execution = some id) ∧
        s.closeActive.value = { s with
          hall := some { h with
            active := h.active.update (·.update (·.calledOff fresh ended)) } }) := by
  cases hread : Call.read framework "/start" body with
  | none =>
    have hhandle : s.handle framework seeds "/start" body = pure (.ok .invalid, s) := by
      unfold handle
      rw [hread]
    rw [settings?, hread, hhandle]
    exact .inl ⟨rfl, rfl⟩
  | some call =>
    obtain ⟨settings, rfl⟩ := read_start hread
    have hhandle : s.handle framework seeds "/start" body = s.start seeds settings :=
      handle_start hread
    have hsettings : settings? framework body = (requested settings).toOption := by
      rw [settings?, hread]
    rw [hhandle] at hfails
    rw [hsettings, hhandle]
    cases hconfig : requested settings with
    | error fault =>
      rw [value_start_unreadable hconfig]
      exact .inl ⟨rfl, rfl⟩
    | ok config =>
      cases hmake : (Runner.make seeds config false).value with
      | error fault =>
        exact .inr ⟨config, fault, rfl, hmake, value_start_unbuilt hconfig hmake,
          closeActive_atRest hs.sound hhall⟩
      | ok r =>
        obtain ⟨reply, hreply⟩ := report_done (s.opened config r).active [("success", .bool true)]
        rw [value_start_built hconfig hmake] at hfails
        exact absurd hreply (hfails reply)

/-! ## A match that a failed request stops -/

/-- A timer that is the only one in the queue counts its ticks and falls asleep. -/
theorem drain_timer {c : Coordinator Unit} {id : Nat}
    (hr : c.duel.schedule.ready = [{ id, job := .timer }]) (ht : c.duel.timing.Sound)
    (hd : ¬ c.duel.timing.tick.toFloat ≤ 0) :
    ∃ schedule : Schedule Job, schedule.ready = [] ∧ id ∈ schedule.ids ∧
      c.drain Runner.tell = c.update fun d => { d with schedule, running := none } := by
  obtain ⟨total, hticks⟩ := ht.count
  let schedule : Schedule Job := { c.duel.schedule with ready := [] }.rest id (.tick 1 total)
    c.duel.timing.tick.toFloat
  have hready : schedule.ready = [] := by
    simp only [schedule, Schedule.rest, if_neg hd]
  have hid : id ∈ schedule.ids :=
    (Schedule.ids_rest _ id _ _).mem_iff.mpr List.mem_cons_self
  have hstep : c.step? Runner.tell =
      some (c.update fun d => { d with schedule, running := none }) := by
    unfold Coordinator.step? Schedule.next?
    rw [hr]
    simp only [Coordinator.runTask, Coordinator.runJob, Coordinator.rest, Coordinator.update,
      hticks, Duel.rest_eq ht.tick, Bool.false_eq_true, if_false, schedule]
  exact ⟨schedule, hready, hid, Coordinator.drain_step Runner.tell hstep hready⟩

/-- The first match of a service is at rest when the request for it is answered, and its timer
sleeps. -/
theorem start_first (hs : s.hall = none) {body settings : Json} {config : MatchConfig}
    (hread : Call.read framework "/start" body = some (.start settings))
    (hconfig : requested settings = .ok config) (hplayable : config.Playable)
    (ht : config.timing.Sound) (hd : ¬ config.timing.tick.toFloat ≤ 0)
    (seeds : Json → Random.Twister) :
    ∃ h, (s.handle framework seeds "/start" body).value.2.hall = some h ∧ h.active.duel.AtRest ∧
      h.active.duel.timer = some 0 ∧ h.active.duel.isPending 0 = true := by
  obtain ⟨-, -, -, arena, hduel, -⟩ := hplayable.exists_duel seeds
  let r : Runner :=
    { config, coordinator := ⟨.fresh arena config.timing config.scripts, ()⟩ }
  have hmake : (Runner.make seeds config false).value = .ok r := Runner.make_built hduel false
  let entered := s.opened config r
  have hentered : entered = ({ active := r.setNow s.clock } : Hall).update fun r =>
      r.start.2.update (·.update (·.record
        ⟨.info, logger, "Started match " ++ config.display⟩)) := by
    have hclose : s.closeActive.value = s := by
      unfold closeActive
      rw [hs]
      rfl
    show (s.closeActive.value.welcome r).update _ = _
    rw [hclose, welcome, hs]
  have hready : entered.active.duel.schedule.ready = [{ id := 0, job := .timer }] := by
    rw [hentered]
    rfl
  have htiming : entered.active.duel.timing = config.timing := by
    rw [hentered]
    rfl
  obtain ⟨schedule, hempty, hid, hdrain⟩ := drain_timer (c := entered.active.coordinator) hready
    (htiming ▸ ht) (htiming ▸ hd)
  have hdrained : entered.drain.active.duel =
      { entered.active.duel with schedule, running := none, journal := [] } := by
    rw [Hall.duel_drain, hdrain]
    rfl
  rw [handle_start hread, value_start_built hconfig hmake]
  refine ⟨{ entered.drain with records := [] }, rfl, ?_⟩
  rw [hdrained, hentered]
  refine ⟨⟨hempty, rfl⟩, rfl, ?_⟩
  exact (Coordinator.isPending_iff rfl 0).mpr hid

/-- For a witness: every seed that is no number, as though it were zero. -/
def zeroSeeds : Json → Random.Twister := fun _ => .ofSeed 0

/-- A request for a match in a maze of five rows. -/
def sized (width : Json) : Json :=
  .object [("match", .object [("config", .object
    [("width", width), ("height", .whole 5), ("seed", .whole 9)])])]

/-- The settings that it asks for. -/
def fiveRows (width : Quantity) : MatchConfig where
  width
  height := .whole 5
  seed := .whole 9
  timing := {}
  shotDamage := .whole 20
  maxHealth := .whole 100
  powerupsPerType := none
  names := []
  scripts := MatchConfig.defaultScripts

theorem sound_defaults : Timing.Sound {} :=
  ⟨by decide +kernel, by decide +kernel, by decide +kernel, _, rfl, by decide +kernel⟩

theorem playable_fiveRows : (fiveRows (.whole 5)).Playable where
  width := ⟨5, rfl, by decide⟩
  height := ⟨5, rfl, by decide⟩
  seed := Maze.isSeed_ofOption (some 9)
  pickups := nofun
  health := rfl
  damage := rfl
  timing := rfl
  pace := sound_defaults.step

/-- The service with a match in a maze of five columns. -/
theorem exists_fiveRows :
    ∃ h, (({} : Service).handle .strict zeroSeeds "/start" (sized (.whole 5))).value.2.hall =
        some h ∧ h.active.duel.AtRest ∧ h.active.duel.timer = some 0 ∧
      h.active.duel.isPending 0 = true :=
  start_first rfl rfl rfl playable_fiveRows sound_defaults (by decide +kernel) zeroSeeds

/-- With half a column more there is no match. -/
theorem start_half (s : Service) :
    (s.handle .strict zeroSeeds "/start" (sized (.real 5.5))).value =
      (.error .wrongType, s.closeActive.value) := by
  have hmake : (Runner.make zeroSeeds (fiveRows (.real 5.5)) false).value = .error .wrongType := rfl
  rw [handle_start rfl, value_start_unbuilt rfl hmake]

theorem start_failed_half :
    let s := (({} : Service).handle .strict zeroSeeds "/start" (sized (.whole 5))).value.2
    Reached .strict s ∧ ∃ h, s.hall = some h ∧ h.active.duel.AtRest ∧
      (∀ reply, (s.handle .strict zeroSeeds "/start" (sized (.real 5.5))).value.1 ≠
        .ok (.done reply)) ∧
      ∃ fresh ended, (s.handle .strict zeroSeeds "/start" (sized (.real 5.5))).value.2 = { s with
        hall := some { h with
          active := h.active.update (·.update (·.calledOff fresh ended)) } } := by
  intro s
  obtain ⟨h, hhall, hrest, -, -⟩ := exists_fiveRows
  have hs : Reached .strict s := .handled zeroSeeds _ _ .fresh
  have hfails : ∀ reply, (s.handle .strict zeroSeeds "/start" (sized (.real 5.5))).value.1 ≠
      .ok (.done reply) := by
    rw [start_half s]
    exact fun _ => nofun
  refine ⟨hs, h, hhall, hrest, hfails, ?_⟩
  rcases start_failed hs hhall zeroSeeds _ hfails with ⟨hnone, -⟩ | ⟨_, _, -, -, hvalue, hclosed⟩
  · cases hnone
  · obtain ⟨fresh, ended, -, heq⟩ := hclosed hrest
    exact ⟨fresh, ended, by rw [hvalue, heq]⟩

/-- The timer of the match in five columns is gone after the request for half a column more has
failed. -/
theorem start_stops_timer :
    let s := (({} : Service).handle .strict zeroSeeds "/start" (sized (.whole 5))).value.2
    (s.handle .strict zeroSeeds "/start" (sized (.real 5.5))).value.1 = .error .wrongType ∧
    ∃ h h', s.hall = some h ∧
      (s.handle .strict zeroSeeds "/start" (sized (.real 5.5))).value.2.hall = some h' ∧
      h.active.duel.timer = some 0 ∧ h.active.duel.isPending 0 = true ∧
      h'.active.duel.timer = none ∧ h'.active.duel.isPending 0 = false := by
  intro s
  obtain ⟨h, hhall, hrest, htimer, hpending⟩ := exists_fiveRows
  have hs : Reached .strict s := .handled zeroSeeds _ _ .fresh
  have hsound : Sound s := hs.sound
  obtain ⟨fresh, ended, -, hclosed⟩ := closeActive_atRest hsound hhall hrest
  rw [start_half s, hclosed]
  refine ⟨rfl, h, _, hhall, rfl, htimer, hpending, rfl, ?_⟩
  exact Duel.isPending_calledOff (hsound h hhall).active.still hrest (.inl htimer) fresh ended

end Service

end MazeDuel
