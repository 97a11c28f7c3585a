import MazeDuel.Proofs.Match.Restart
import MazeDuel.Proofs.Turn.Alternation
import MazeDuel.Proofs.Turn.Awaiting
import MazeDuel.Proofs.Turn.Onward
import MazeDuel.Proofs.Turn.Route
/-!
Histories: whoever plays a match from its start on gets a frame for the start and one for each turn,
and together they tell all of it. Every turn is one by the rules, since a run is accepted whenever
the one before it has ended, and nobody else changes anything in between.
-/

namespace MazeDuel

open Turn Duel Coordinator

/-- Counted from one, the odd turns are those of the first player. -/
theorem Player.ofTurn_eq (n : Nat) : ofTurn n = if (n + 1) % 2 = 1 then .a else .b :=
  if_congr (by omega) rfl rfl

/-- What has been added to a log that kept everything is what there is after the old end. -/
theorem EventLog.since_size {α : Type} {log log' : EventLog α} {more : List α}
    (h : log.events ++ more = log'.events) : log'.since log.size = more := by
  unfold since size
  rw [if_neg (by omega), ← h]
  simp

namespace Turn.Standing

variable {s : Standing} {n : Nat}

/-- How a match stands after some turns from its start on: they have been counted, but for one in
which it ended, and the players take turns. -/
structure Tallied (n : Nat) (s : Standing) : Prop where
  unlimited : s.log.limit = .null
  going : s.phase ≠ .over → s.turnNumber = n ∧ s.current = Player.ofTurn n
  ended : s.phase = .over → s.turnNumber + 1 = n

theorem Tallied.play (h : Tallied n s) (hp : s.phase ≠ .over) {program : List Action}
    {result : ExecutionResult} (hok : (s.play s.current program).1 = .ok result) :
    let s' := (s.play s.current program).2
    result.player = Player.ofTurn n ∧ Tallied (n + 1) s' ∧ s.log.events <+: s'.log.events := by
  intro s'
  obtain ⟨hnumber, hcurrent⟩ := h.going hp
  obtain ⟨hplayer, hplayed⟩ := played_play h.unlimited hok
  refine ⟨hplayer.trans hcurrent, ⟨hplayed.unlimited, fun hgoes => ?_, fun hover => ?_⟩,
    hplayed.heard⟩
  · obtain ⟨hnext, hother⟩ := hplayed.passed hgoes
    exact ⟨by rw [hnext, hnumber], by rw [hother, hcurrent, Player.ofTurn_succ]⟩
  · rw [hplayed.ended hover, hnumber]

end Turn.Standing

/-- What a frame shows of how a match stands. -/
structure Frame.Shows (f : Frame) (s : Standing) : Prop where
  arena : f.arena = s.arena.toJson
  board : f.board = .text ("\n".intercalate s.arena.picture)
  current : f.state.current = s.current
  phase : f.state.phase = s.phase
  turnNumber : f.state.turnNumber = .whole s.turnNumber
  winner : f.state.winner = s.winner

theorem Frame.Shows.done {f : Frame} {s : Standing} (h : f.Shows s) : f.done = s.isOver := by
  unfold Frame.done Standing.isOver
  rw [h.phase]

/-- The frame after some turns shows how the match stands. It has the number of these turns, less
one if the match is over, and what came of the run of the player whose turn it was. -/
structure Frame.After (f : Frame) (n : Nat) (s : Standing) : Prop where
  shows : f.Shows s
  turnNumber : f.state.turnNumber = .whole (if f.done then (n - 1 : Nat) else n)
  executed : 1 ≤ n → ∃ result : ExecutionResult, f.execution = some result.toJson ∧
    result.player = if n % 2 = 1 then .a else .b

/-- The frames of a match that began like this and has been played with these programs. There is one
for each number of turns up to now, only the last one can be the end, and of all that was reported
they leave out nothing but that the first turn began. -/
structure History (programs : Duo (List Action)) (first : Standing) (frames : List Frame)
    (events : List Notification) : Prop where
  after : ∀ n (h : n < frames.length), frames[n].After n (first.turns programs n)
  going : ∀ n (h : n + 1 < frames.length), frames[n].done = false
  told : ∃ told, events = .turnChanged .a :: told ∧
    frames.flatMap Frame.events = told.map Notification.toJson

variable {programs : Duo (List Action)} {first s : Standing} {f : Frame} {frames : List Frame}
  {events : List Notification} {n : Nat}

theorem Frame.Shows.after_tallied (h : f.Shows s) (ht : s.Tallied n) :
    f.state.turnNumber = .whole (if f.done then (n - 1 : Nat) else n) := by
  rw [h.turnNumber, h.done]
  unfold Standing.isOver
  by_cases hover : s.phase = .over
  · obtain rfl := ht.ended hover
    rw [hover]
    rfl
  · rw [(ht.going hover).1, beq_false_of_ne hover]
    rfl

/-- The first frame is there before anything but the first turn has been reported. -/
theorem history_first (h : f.Shows first) (ht : first.Tallied 0) (hf : f.events = [])
    (hevents : first.log.events = [.turnChanged .a]) :
    History programs first [f] first.log.events where
  after n hn := by
    obtain rfl : n = 0 := by simpa using hn
    exact ⟨h, h.after_tallied ht, nofun⟩
  going n hn := by simp at hn
  told := ⟨[], hevents, by simp [hf]⟩

/-- Another frame tells of one more turn, from where the others end. -/
theorem History.turn (h : History programs first frames events) (hn : frames.length = n + 1)
    (hgoing : (first.turns programs n).phase ≠ .over)
    (hf : f.After (n + 1) (first.turns programs (n + 1)))
    {more : List Notification} (hmore : f.events = more.map Notification.toJson) :
    History programs first (frames ++ [f]) (events ++ more) where
  after m hm := by
    rcases Nat.lt_or_eq_of_le (Nat.le_of_lt_succ (by simpa using hm)) with hlt | rfl
    · rw [List.getElem_append_left hlt]
      exact h.after m hlt
    · rw [List.getElem_concat_length rfl]
      exact hn ▸ hf
  going m hm := by
    have hlt : m < frames.length := by simpa using hm
    rw [List.getElem_append_left hlt]
    by_cases hlast : m + 1 < frames.length
    · exact h.going m hlast
    · obtain rfl : m = n := by omega
      rw [(h.after m hlt).shows.done]
      exact beq_false_of_ne hgoing
  told := by
    obtain ⟨told, rfl, htold⟩ := h.told
    refine ⟨told ++ more, rfl, ?_⟩
    rw [List.flatMap_append, List.map_append, htold, List.flatMap_singleton, hmore]

/-! ## One turn -/

namespace Runner

variable {r : Runner} {g : Setting}

theorem mute_silent : Mute (fun _ : Unit => []) .silent := fun _ _ _ => trivial

/-- A match that is played turn by turn, between two of its turns. -/
structure Paused (g : Setting) (s : Standing) (r : Runner) : Prop where
  started : r.started = true
  settled : Settled g s r.duel
  poised : Poised r.duel

theorem Paused.done (h : r.Paused g s) : r.done = s.isOver := by
  rw [← h.settled.standing]
  rfl

theorem Paused.note (h : r.Paused g s) (message : String) : (r.note message).Paused g s := by
  have hstill : Still (r.note message).duel := h.settled.toStill.moves (moves_record _ _)
  exact ⟨h.started, h.settled.apart (apart_beside rfl) hstill, h.poised.awaited, h.poised.meek⟩

theorem Paused.shows_frame (h : r.Paused g s) (execution : Option ExecutionResult)
    (events : List Notification) : (r.frame execution events).Shows s := by
  obtain rfl := h.settled.standing
  exact ⟨rfl, rfl, rfl, rfl, rfl, rfl⟩

/-- Whoever has a run accepted learns what came of it once they have waited for it. -/
theorem executeTurn_accepted {p : Player} {z : Coordinator Unit} {id : Nat}
    (haccepted : r.coordinator.onDuel (·.execute p) = (true, z))
    (hid : z.duel.execution = some id) (hpending : z.duel.isPending id = true) :
    let y : Runner := { r with
      coordinator := ((z.awaiting id).untilCallerAt tell (effort z.duel p)).takeCaller }
    (∀ fault, y.duel.outcome? id = some (.failed fault) →
      r.executeTurn p = (.error fault, y)) ∧
    ∀ result, y.duel.outcome? id = some (.done (some result)) →
      r.executeTurn p = (.ok (result, y.duel.log.since r.duel.log.size), y) := by
  intro y
  have hwait : { r with coordinator := z.awaitTaskAt tell (effort z.duel p) id } = y :=
    congrArg (fun c => { r with coordinator := c }) (if_pos hpending)
  constructor
  · intro fault ho
    simp only [Runner.executeTurn, haccepted, hid, hwait, ho]
  · intro result ho
    simp only [Runner.executeTurn, haccepted, hid, hwait, ho]

/-- The bound on a wait leaves room for every action and for every task that there is. -/
theorem le_effort {d : Duel} {p : Player} {program : List Action}
    (hread : (Script.parseGiven p (d.scripts.get p)).value = .ok program) :
    2 * program.length + d.schedule.tasks.length + d.schedule.asleep.length + 3 ≤ effort d p := by
  have hids : d.schedule.ids.length = d.schedule.tasks.length := by
    rw [Schedule.ids_eq, List.length_map]
  have hasleep : d.schedule.asleep.length ≤ d.schedule.tasks.length := by
    simp [Schedule.tasks]
  have hpatience : patience = 1000000000 := rfl
  unfold effort
  rw [hread]
  dsimp only
  omega

/-- Why a turn that is played in this setting, and of which the rules make this, can break off: a
pause of it is too long for any clock, or an action of it fails. -/
def Broken (g : Setting) (x : Except Fault ExecutionResult × Standing) (fault : Fault) : Prop :=
  fault = .numberTooLarge ∧ ¬ g.timing.stepDelay.fitsReal ∨ x.1 = .error fault

/-- Between two turns a run of the player to move is accepted and waited for, and it comes to what
the rules make of it, unless it breaks off. -/
theorem Paused.executeTurn (h : r.Paused g s) (hgoing : s.phase ≠ .over)
    (hmanual : g.continuous = false) (hread : Reads g.scripts programs) :
    let x := s.play s.current (programs.get s.current)
    let y := r.executeTurn s.current
    (∃ fault, y.1 = .error fault ∧ Broken g x fault) ∨ ∃ result, x.1 = .ok result ∧
      y.1 = .ok (result, x.2.log.since s.log.size) ∧ y.2.Paused g x.2 := by
  intro x y
  obtain rfl := h.settled.standing
  obtain ⟨-, -, hsetting⟩ := h.settled.going hgoing
  have hscripts : r.duel.scripts = g.scripts := congrArg Setting.scripts hsetting
  obtain ⟨q, hq, hplayed, hreply, hid, -, hway, halone⟩ := away_accepted h.settled h.poised hgoing
    (Reads.program? (hscripts ▸ hread) r.duel.current) .silent
  let z := (r.coordinator.request .silent (.execute r.duel.current)).2
  have haccepted : r.coordinator.onDuel (·.execute r.duel.current) = (true, z) :=
    Prod.ext (Reply.flag.inj hreply) rfl
  have hscripts' : z.duel.scripts = g.scripts :=
    hway.scripts.trans (congrArg Setting.scripts hq)
  have henough := le_effort (d := z.duel) (hscripts' ▸ hread r.duel.current)
  have hcame := awaits_arrives mute_silent ((congrArg Setting.continuous hq).trans hmanual)
    (.away hway halone rfl henough) le_rfl
  obtain ⟨hfails, hends⟩ := executeTurn_accepted haccepted hid hway.pending
  have hresult : q.result = x.1 := congrArg Prod.fst hplayed
  have hstanding : q.standing = x.2 := congrArg Prod.snd hplayed
  rcases hcame with ⟨fault, hfailed, hbreaks⟩ | ⟨hdone, hsettled, hpoised⟩
  · refine Or.inl ⟨fault, congrArg Prod.fst (hfails _ hfailed), ?_⟩
    cases hbreaks with
    | action hfault => exact Or.inr (hresult.symm.trans hfault)
    | pause hlong =>
      rw [show q.timing = g.timing from congrArg Setting.timing hq] at hlong
      exact Or.inl ⟨rfl, hlong⟩
  · right
    rw [hq, hstanding] at hsettled
    obtain ⟨result, hok⟩ : ∃ result, q.result = .ok result := by
      cases hran : q.result with
      | ok result => exact ⟨result, rfl⟩
      | error fault =>
        have hphase := Standing.play_phase r.duel.standing r.duel.current
          (programs.get r.duel.current)
        have hx : r.duel.standing.play r.duel.current (programs.get r.duel.current) =
            (.error fault, x.2) := Prod.ext (hresult.symm.trans hran) rfl
        rw [hx] at hphase
        exact absurd ((congrArg Standing.phase hsettled.standing).trans hphase) hsettled.resting
    rw [Accepted.outcome, hok] at hdone
    refine ⟨result, hresult.symm.trans hok, ?_⟩
    rw [show y = _ from hends _ hdone, ← hsettled.standing]
    exact ⟨rfl, h.started, hsettled.standing ▸ hsettled, hpoised⟩

/-- A turn that is played breaks off with its run, or its frame shows what the rules make of it. -/
theorem Paused.playTurn (h : r.Paused g s) (hgoing : s.phase ≠ .over)
    (hmanual : g.continuous = false) (hread : Reads g.scripts programs) :
    let x := s.play s.current (programs.get s.current)
    let y := r.playTurn ⟨none, none⟩
    (∃ fault, y.1 = .error fault ∧ Broken g x fault) ∨
      ∃ result f, x.1 = .ok result ∧ y.1 = .ok f ∧ y.2.Paused g x.2 ∧ f.Shows x.2 ∧
        f.execution = some result.toJson ∧
          f.events = (x.2.log.since s.log.size).map Notification.toJson := by
  intro x y
  have hdone : r.done = false := h.done.trans (beq_false_of_ne hgoing)
  have hcurrent : r.duel.current = s.current := congrArg Standing.current h.settled.standing
  have hnone : (⟨none, none⟩ : Duo (Option Json)).get s.current = none := by
    cases s.current <;> rfl
  have hrun := h.executeTurn hgoing hmanual hread
  dsimp only at hrun
  simp only [y, Runner.playTurn, h.started, hdone, hcurrent, hnone, if_true, if_false,
    Bool.false_eq_true]
  rcases hran : r.executeTurn s.current with ⟨answer, r'⟩
  rw [hran] at hrun
  rcases hrun with ⟨fault, hfailed, hbroken⟩ | ⟨result, hok, hended, hpaused⟩
  · subst hfailed
    exact Or.inl ⟨fault, rfl, hbroken⟩
  · subst hended
    refine Or.inr ⟨result, _, hok, rfl, ?_, hpaused.shows_frame _ _, rfl, rfl⟩
    dsimp only
    split
    · exact hpaused.note _
    · exact hpaused

/-- So many turns of a match have been played, and these are the frames, the latest first. -/
structure Reel (g : Setting) (programs : Duo (List Action)) (first : Standing) (n : Nat)
    (frames : List Frame) (r : Runner) : Prop where
  paused : r.Paused g (first.turns programs n)
  lasts : first.Lasts programs n
  tallied : (first.turns programs n).Tallied n
  length : frames.length = n + 1
  history : History programs first frames.reverse r.duel.log.events

/-- Why a match that is played turn by turn can break off: one of its turns does. -/
def BreaksOff (g : Setting) (programs : Duo (List Action)) (first : Standing) (fault : Fault) :
    Prop :=
  ∃ n, first.Lasts programs n ∧
    let s := first.turns programs n
    Broken g (s.play s.current (programs.get s.current)) fault

theorem Reel.playTurn (h : Reel g programs first n frames r) (hdone : r.done = false)
    (hmanual : g.continuous = false) (hread : Reads g.scripts programs) :
    let y := r.playTurn ⟨none, none⟩
    (∃ fault, y.1 = .error fault ∧ BreaksOff g programs first fault) ∨
      ∃ f, y.1 = .ok f ∧ Reel g programs first (n + 1) (f :: frames) y.2 := by
  intro y
  let s := first.turns programs n
  have hgoing : s.phase ≠ .over := by
    rw [h.paused.done] at hdone
    simpa [Standing.isOver] using hdone
  rcases h.paused.playTurn hgoing hmanual hread with
    ⟨fault, hfailed, hbroken⟩ |
      ⟨result, f, hok, hframe, hpaused, hshows, hexecution, hevents⟩
  · exact Or.inl ⟨fault, hfailed, n, h.lasts, hbroken⟩
  · obtain ⟨hplayer, htallied, more, hmore⟩ := h.tallied.play hgoing hok
    have hidle : s.phase = .idle := by
      have hphase : r.duel.phase = s.phase :=
        congrArg Standing.phase h.paused.settled.standing
      exact hphase.symm.trans (h.paused.settled.going (hphase ▸ hgoing)).1
    have hafter : f.After (n + 1) (first.turns programs (n + 1)) := by
      refine ⟨hshows, hshows.after_tallied htallied, fun _ => ⟨_, hexecution, ?_⟩⟩
      exact hplayer.trans (Player.ofTurn_eq n)
    refine Or.inr ⟨f, hframe, hpaused, h.lasts.succ hidle, htallied,
      by rw [List.length_cons, h.length], ?_⟩
    have hlog : r.duel.log.events ++ more = y.2.duel.log.events := by
      rw [show r.duel.log = s.log from congrArg Standing.log h.paused.settled.standing,
        show y.2.duel.log = _ from congrArg Standing.log hpaused.settled.standing]
      exact hmore
    have hlength : frames.reverse.length = n + 1 := by rw [List.length_reverse, h.length]
    rw [EventLog.since_size hmore] at hevents
    rw [List.reverse_cons, ← hlog]
    exact h.history.turn hlength hgoing hafter hevents

/-- What comes of playing on, with so many turns left if there is a limit: a turn breaks off, or the
frames go on until the match is over or none are left. -/
def Concludes (g : Setting) (programs : Duo (List Action)) (first : Standing) (n : Nat)
    (left : Option Nat) (x : Except Fault (List Frame) × Runner) : Prop :=
  (∃ fault, x.1 = .error fault ∧ BreaksOff g programs first fault) ∨
    ∃ frames more, x.1 = .ok frames ∧ Reel g programs first (n + more) frames x.2 ∧
      (∀ most, left = some most → more ≤ most) ∧ (x.2.done = false → left = some more)

/-- One turn more, if one is left. -/
theorem Concludes.turn {left : Option Nat} {x : Except Fault (List Frame) × Runner}
    (h : Concludes g programs first (n + 1) (left.map (· - 1)) x) (hleft : left ≠ some 0) :
    Concludes g programs first n left x := by
  rcases h with hfailed | ⟨frames, more, hframes, hreel, hmost, hstopped⟩
  · exact Or.inl hfailed
  · have hcount : n + 1 + more = n + (more + 1) := by omega
    refine Or.inr ⟨frames, more + 1, hframes, hcount ▸ hreel, ?_, fun hdone => ?_⟩
    · rintro most rfl
      have hpositive : most ≠ 0 := fun hzero => hleft (hzero ▸ rfl)
      have hless := hmost (most - 1) rfl
      omega
    · obtain ⟨most, rfl, hmore⟩ := Option.map_eq_some_iff.mp (hstopped hdone)
      have hpositive : most ≠ 0 := fun hzero => hleft (hzero ▸ rfl)
      exact congrArg some (by omega)

/-- Turn by turn the frames go on as they began. -/
theorem Reel.playTurns (hmanual : g.continuous = false) (hread : Reads g.scripts programs)
    {left : Option Nat} {x : Except Fault (List Frame) × Runner}
    (hx : playTurns frames left r = some x) (h : Reel g programs first n frames r) :
    Concludes g programs first n left x := by
  -- the loop need not end, so the induction is on how far it has been unrolled
  refine playTurns.partial_correctness (fun frames left r x => ∀ n,
    Reel g programs first n frames r → Concludes g programs first n left x)
    ?_ frames left r x hx n h
  intro loop ih frames left r x hx n h
  split at hx
  · rename_i hstop
    cases hx
    refine Or.inr ⟨frames, 0, rfl, h, fun _ _ => Nat.zero_le _, fun hdone => ?_⟩
    simpa [show r.done = false from hdone] using hstop
  · rename_i hgoes
    simp only [Bool.or_eq_true, beq_iff_eq, not_or, Bool.not_eq_true] at hgoes
    obtain ⟨hdone, hleft⟩ := hgoes
    have hturn := h.playTurn hdone hmanual hread
    rcases hplayed : r.playTurn ⟨none, none⟩ with ⟨answer, r'⟩
    rw [hplayed] at hx hturn
    rcases hturn with ⟨fault, hfailed, hbreaks⟩ | ⟨f, hf, hnext⟩
    · cases hfailed
      cases hx
      exact Or.inl ⟨fault, rfl, hbreaks⟩
    · cases hf
      exact (ih _ _ _ _ hx _ hnext).turn hleft

/-- With a limit on the turns the end is always reached. -/
theorem exists_playTurns (frames : List Frame) (left : Nat) (r : Runner) :
    ∃ x, playTurns frames (some left) r = some x := by
  induction left generalizing frames r with
  | zero =>
    rw [playTurns]
    simp
  | succ left ih =>
    rw [playTurns]
    split
    · exact ⟨_, rfl⟩
    · split
      · exact ⟨_, rfl⟩
      · exact ih _ _

/-! ## From the start of a match on -/

/-- Whoever runs a match that has just been made starts it, and the first frame shows that. -/
theorem reel_start {config : MatchConfig} {seeds : Json → Random.Twister} {verbose : Bool}
    (hmake : (Runner.make seeds config verbose).value = .ok r) (programs : Duo (List Action)) :
    let y := (r.update (·.enter tell)).start
    Reel ⟨false, config.timing, config.scripts⟩ programs r.duel.standing.opening 0 [y.1] y.2 := by
  intro y
  obtain ⟨arena, hproper, rfl⟩ := make_eq hmake
  let c : Coordinator Unit := ⟨.fresh arena config.timing config.scripts, ()⟩
  -- nobody else is in the queue, so that entering it only uses up a number
  have hentered : c.enter tell = c.update (·.keeping (fun _ => true) 1 []) :=
    enter_atRest tell rfl
  let e := c.update (·.keeping (fun _ => true) 1 [])
  have hvisited : Visited c.duel e.duel.schedule none :=
    ⟨nofun, fun _ => ⟨List.nodup_nil, nofun⟩, Nat.zero_le _, Or.inl rfl⟩
  have hstill : Still e.duel :=
    (still_fresh arena config.timing config.scripts).visited hvisited none
  have hy : y.2.coordinator = (e.request .silent .start).2 :=
    congrArg (Coordinator.start tell) hentered
  have hstarted := settled_opening mute_silent hstill hproper rfl rfl rfl rfl nofun
  dsimp only at hstarted
  rw [← hy] at hstarted
  have hpaused : y.2.Paused ⟨false, config.timing, config.scripts⟩ (Standing.first arena) :=
    ⟨rfl, hstarted.1, hstarted.2⟩
  have htallied : (Standing.first arena).Tallied 0 := ⟨rfl, fun _ => ⟨rfl, rfl⟩, nofun⟩
  have hlog : y.2.duel.log = (Standing.first arena).log :=
    congrArg Standing.log hpaused.settled.standing
  refine ⟨hpaused, nofun, htallied, rfl, ?_⟩
  rw [hlog]
  exact history_first (hpaused.shows_frame none []) htallied rfl rfl

/-- A whole number allows so many turns, and none at all if it is negative. -/
theorem turnsAllowed_whole (maxTurns : Option Int) :
    turnsAllowed (Json.ofOption .whole maxTurns) = .ok (maxTurns.map Int.toNat) := by
  cases maxTurns <;> rfl

/-- The match has come to an end, or so many turns have been played as there should be. What was
played is told by the frames. -/
structure Recorded (programs : Duo (List Action)) (first : Standing) (maxTurns : Option Int)
    (frames : List Frame) (r : Runner) (k : Nat) : Prop where
  length : frames.length = 1 + k
  most : ∀ m, maxTurns = some m → (k : Int) ≤ max 0 m
  stopped : r.done = false → ∃ m, maxTurns = some m ∧ (k : Int) = max 0 m
  standing : r.duel.standing = first.turns programs k
  history : History programs first frames r.duel.log.events

theorem Reel.recorded {maxTurns : Option Int} (h : Reel g programs first n frames r)
    (hmost : ∀ most, maxTurns.map Int.toNat = some most → n ≤ most)
    (hstopped : r.done = false → maxTurns.map Int.toNat = some n) :
    Recorded programs first maxTurns frames.reverse r n where
  length := by rw [List.length_reverse, h.length, Nat.add_comm]
  most := by
    rintro m rfl
    have hle := hmost m.toNat rfl
    omega
  stopped hdone := by
    obtain ⟨m, hm, hcount⟩ := Option.map_eq_some_iff.mp (hstopped hdone)
    exact ⟨m, hm, by omega⟩
  standing := h.paused.settled.standing
  history := h.history

theorem Recorded.note {maxTurns : Option Int} {k : Nat}
    (h : Recorded programs first maxTurns frames r k) (message : String) :
    Recorded programs first maxTurns frames (r.note message) k :=
  ⟨h.length, h.most, h.stopped, h.standing, h.history⟩

/-- Once the match is on, a run of it is its loop, with a note if the match goes on after that. -/
theorem play_started {limit : Json} {left : Option Nat} (hdone : r.start.2.done = false)
    (hleft : turnsAllowed limit = .ok left) :
    r.play limit = match Runner.playTurns [r.start.1] left r.start.2 with
      | none => (.error .endlessMatch, r)
      | some (.error fault, r) => (.error fault, r)
      | some (.ok frames, r) => (.ok frames.reverse, if r.done then r else r.note
          ("Stopped after " ++ toString (frames.length - 1) ++ " turn(s) without a winner")) := by
  unfold play play?
  dsimp only
  rw [hdone, if_neg Bool.false_ne_true, hleft]
  dsimp only
  rcases Runner.playTurns [r.start.1] left r.start.2 with _ | ⟨_ | _, _⟩ <;> rfl

/-- Whoever runs a match that has just been made, with scripts that can be read, gets its history,
unless a turn of it breaks off. No run is ever refused. -/
theorem run_history {config : MatchConfig} {seeds : Json → Random.Twister} {verbose : Bool}
    (hmake : (Runner.make seeds config verbose).value = .ok r)
    (hread : Reads config.scripts programs) (maxTurns : Option Int) :
    let limit := Json.ofOption .whole maxTurns
    let x := (r.update (·.enter tell)).play limit
    r.run limit = (x.1, x.2.drain) ∧ match x.1 with
      | .error fault => BreaksOff ⟨false, config.timing, config.scripts⟩ programs
            r.duel.standing.opening fault ∨
          fault = .endlessMatch ∧ maxTurns = none
      | .ok frames => ∃ k, Recorded programs r.duel.standing.opening maxTurns frames x.2 k := by
  intro limit x
  refine ⟨rfl, ?_⟩
  have hreel := reel_start hmake programs
  have hx : x = _ := play_started hreel.paused.done (turnsAllowed_whole maxTurns)
  rw [hx]
  cases hplayed : Runner.playTurns [(r.update (·.enter tell)).start.1] (maxTurns.map Int.toNat)
      (r.update (·.enter tell)).start.2 with
  | none =>
    -- only a loop without a limit can go on forever
    refine Or.inr ⟨rfl, ?_⟩
    cases maxTurns with
    | none => rfl
    | some m =>
      obtain ⟨y, hy⟩ := exists_playTurns _ m.toNat _
      cases hplayed.symm.trans hy
  | some y =>
    obtain ⟨answer, r'⟩ := y
    rcases hreel.playTurns rfl hread hplayed with ⟨fault, hfailed, hbreaks⟩ |
      ⟨frames, k, hframes, hreel', hmost, hstopped⟩
    · cases hfailed
      exact Or.inl hbreaks
    · cases hframes
      rw [Nat.zero_add] at hreel'
      have hrecorded := hreel'.recorded hmost hstopped
      refine ⟨k, ?_⟩
      dsimp only
      split
      · exact hrecorded
      · exact hrecorded.note _

/-- What the default scripts say. -/
def defaultPrograms : Duo (List Action) :=
  ⟨[⟨.a, .move .right⟩, ⟨.a, .move .up⟩, ⟨.a, .move .up⟩], [⟨.b, .move .left⟩, ⟨.b, .move .down⟩]⟩

theorem defaultPrograms_moves (p : Player) :
    ∃ moves : List MoveDir, defaultPrograms.get p = moves.map fun dir => ⟨p, .move dir⟩ := by
  cases p with
  | a => exact ⟨[.right, .up, .up], rfl⟩
  | b => exact ⟨[.left, .down], rfl⟩

theorem reads_default : Reads MatchConfig.defaultScripts defaultPrograms := by
  let d : Duel := .fresh luringField {} MatchConfig.defaultScripts
  have ha : d.program? (.begin .a) = some (.a, defaultPrograms.a, []) := by decide +kernel
  have hb : d.program? (.begin .b) = some (.b, defaultPrograms.b, []) := by decide +kernel
  intro p
  cases p with
  | a => exact (parseGiven_of_program? ha).2.2
  | b => exact (parseGiven_of_program? hb).2.2

/-- Three turns in a maze of five rows are told by four frames, unless the match is over before. -/
theorem run_history_fiveRows :
    ∃ r frames k,
      (Runner.make Service.zeroSeeds (Service.fiveRows (.whole 5)) false).value = .ok r ∧
      (r.run (.whole 3)).1 = .ok frames ∧
      Recorded defaultPrograms r.duel.standing.opening (some 3) frames
        ((r.update (·.enter tell)).play (.whole 3)).2 k := by
  obtain ⟨-, -, -, arena, hduel, -⟩ :=
    Service.playable_fiveRows.exists_duel Service.zeroSeeds
  have hmake := make_built hduel false
  obtain ⟨hrun, hhistory⟩ := run_history hmake reads_default (some 3)
  split at hhistory
  · rcases hhistory with ⟨n, -, ⟨-, hlong⟩ | hfailed⟩ | ⟨-, hnone⟩
    · exact absurd (by decide +kernel) hlong
    · obtain ⟨moves, hmoves⟩ := defaultPrograms_moves (Standing.turns defaultPrograms _ n).current
      obtain ⟨result, hok, -⟩ := Standing.play_moves (Standing.turns defaultPrograms _ n) _ moves
      rw [hmoves] at hfailed
      cases hok.symm.trans hfailed
    · cases hnone
  · rename_i frames hframes
    obtain ⟨k, hrecorded⟩ := hhistory
    exact ⟨_, frames, k, hmake, (congrArg Prod.fst hrun).trans hframes, hrecorded⟩

end Runner

end MazeDuel
