import MazeDuel.Turn.Coordinator
/-!
What requests make of a match: every request, and everything that a listener asks for while it is
told of something, comes down to a few kinds of moves. What all of them keep, no request can break.
-/

namespace MazeDuel

theorem Phase.next?_execute {phase phase' : Phase} (h : phase.next? .execute = some phase') :
    (phase = .idle ∨ phase = .editing) ∧ phase' = .executing := by
  cases phase <;> simp_all [Phase.next?]

theorem Phase.next?_endMatch {phase phase' : Phase} (h : phase.next? .endMatch = some phase') :
    phase ≠ .over ∧ phase' = .over := by
  cases phase <;> simp [Phase.next?] at h ⊢ <;> exact h.symm

theorem Phase.next?_finish {phase phase' : Phase} (h : phase.next? .finish = some phase') :
    phase = .executing ∧ phase' = .idle := by
  cases phase <;> simp_all [Phase.next?]

theorem Phase.next?_timeout {phase phase' : Phase} (h : phase.next? .timeout = some phase') :
    (phase = .idle ∨ phase = .editing) ∧ phase' = .idle := by
  cases phase <;> simp_all [Phase.next?]

theorem Phase.next?_timeout_none {phase : Phase} (h : phase.next? .timeout = none) :
    phase = .executing ∨ phase = .over := by
  cases phase <;> simp_all [Phase.next?]

namespace Turn

namespace Duel

/-- One change that a request makes to a match which goes on. -/
inductive Move : Duel → Duel → Prop where
  /-- Nothing changes that the turns depend on. -/
  | quiet (d : Duel) (arena : Arena) (remaining : Quantity) (last : Option ExecutionResult)
      (journal : List Record) : Move d { d with arena, remaining, lastExecution := last, journal }
  | told (d : Duel) (n : Notification) (h : n.kind ≠ .matchEnded) :
      Move d { d with log := d.log.record n }
  | script (d : Duel) (script : Json) (h : d.phase = .idle ∨ d.phase = .editing) :
      Move d ({ d with scripts := d.scripts.set d.current script }.remember
        (.scripted d.current script d.phase d.current))
  | edit (d : Duel) (phase : Phase) (h : d.phase = .idle ∨ d.phase = .editing)
      (h' : phase = .idle ∨ phase = .editing) : Move d { d with phase }
  | mode (d : Duel) (continuous : Bool) (h : d.phase ≠ .over) : Move d { d with continuous }
  | accept (d : Duel) (hs : d.started = true) (hp : d.phase = .idle ∨ d.phase = .editing) :
      Move d ({ d with phase := .executing }.accept d.current)
  | opening (d : Duel) (arena : Arena) (journal : List Record) (h : d.started = false) :
      Move d { d.opened with arena, journal }.startTimer

/-- The end of a match, as far as it has come when the listener hears of it. -/
def struck (d : Duel) (winner : Player) (reason : GameResult) (journal : List Record) : Duel :=
  { { d with phase := .over }.ended winner reason with
    journal, log := d.log.record (.matchEnded winner winner.other reason) }

/-- Moves one after the other. A match that is ended is finished only after its listener has heard
of the end and has made its own moves. -/
inductive Moves : Duel → Duel → Prop where
  | refl (d : Duel) : Moves d d
  | move {d d' d'' : Duel} : Moves d d' → Move d' d'' → Moves d d''
  | ended {d d' d'' : Duel} (winner : Player) (reason : GameResult) (journal : List Record) :
      Moves d d' → d'.phase ≠ .over → reason ≠ .inProgress →
      Moves (d'.struck winner reason journal) d'' → Moves d { d'' with finished := true }

/-- What each move keeps and the end of a match keeps, all moves keep. -/
theorem Moves.keeps {P : Duel → Prop} {d d' : Duel} (h : Moves d d')
    (hmove : ∀ {d d'}, Move d d' → P d → P d')
    (hstruck : ∀ {d} winner reason journal, d.phase ≠ .over → reason ≠ .inProgress → P d →
      P (d.struck winner reason journal))
    (hfinished : ∀ {d}, P d → P { d with finished := true }) : P d → P d' := by
  induction h with
  | refl => exact id
  | move _ hm ih => exact fun hp => hmove hm (ih hp)
  | ended w r j _ ho hr _ ih ih' => exact fun hp => hfinished (ih' (hstruck w r j ho hr (ih hp)))

theorem Moves.trans {d d' d'' : Duel} (h : Moves d d') (h' : Moves d' d'') : Moves d d'' := by
  induction h' with
  | refl => exact h
  | move _ hm ih => exact (ih h).move hm
  | ended w r j _ ho hr hn ih _ => exact (ih h).ended w r j ho hr hn

theorem Move.moves {d d' : Duel} (h : Move d d') : Moves d d' := (Moves.refl d).move h

theorem moves_note (d : Duel) (level : Level) (message : String) :
    Moves d (d.note level message) :=
  (Move.quiet d d.arena d.remaining d.lastExecution _).moves

theorem moves_record (d : Duel) (r : Record) : Moves d (d.record r) :=
  (Move.quiet d d.arena d.remaining d.lastExecution _).moves

theorem moves_setArena (d : Duel) (x : Logged Arena) : Moves d (d.setArena x) :=
  (Move.quiet d x.value d.remaining d.lastExecution _).moves

theorem moves_onArena (d : Duel) (f : Arena → Logged (α × Arena)) : Moves d (d.onArena f).2 :=
  moves_setArena d _

theorem accepts_cases (d : Duel) (p : Player) (request : String) :
    (d.accepts p request = (true, d) ∧ d.phase ≠ .over ∧ p = d.current) ∨
      ∃ message, d.accepts p request = (false, d.note .debug message) := by
  unfold accepts
  split
  · exact Or.inr ⟨_, rfl⟩
  · rename_i ho
    split
    · exact Or.inr ⟨_, rfl⟩
    · rename_i hp
      refine Or.inl ⟨rfl, ?_, Decidable.not_not.mp hp⟩
      simpa [isOver] using ho

theorem fire_cases (d : Duel) (e : TurnEvent) :
    (d.phase.next? e = none ∧ ∃ message, d.fire e = (false, d.note .debug message)) ∨
      ∃ phase message, d.phase.next? e = some phase ∧
        d.fire e = (true, { d.note .debug message with phase }) := by
  unfold fire
  split
  · exact Or.inl ⟨‹_›, _, rfl⟩
  · exact Or.inr ⟨_, _, ‹_›, rfl⟩

theorem moves_setScript (d : Duel) (p : Player) (script : Json) :
    Moves d (d.setScript p script).2 := by
  unfold setScript
  rcases d.accepts_cases p "set_script" with ⟨h, ho, rfl⟩ | ⟨message, h⟩
  · rw [h]
    dsimp only
    split
    · exact moves_note _ _ _
    · rename_i hbusy
      have hidle : d.phase = .idle ∨ d.phase = .editing := by
        cases hp : d.phase <;> simp_all
      have hset := (Move.script d script hidle).moves
      split
      · exact hset.trans (moves_note _ _ _)
      · exact hset
  · rw [h]
    exact moves_note _ _ _

theorem moves_beginEditing (d : Duel) (p : Player) : Moves d (d.beginEditing p).2 := by
  unfold beginEditing
  rcases d.accepts_cases p "begin_editing" with ⟨h, -, -⟩ | ⟨message, h⟩
  · rw [h]
    rcases d.fire_cases .beginEdit with ⟨-, m, hf⟩ | ⟨phase, m, hn, hf⟩
    · simp only [hf]
      exact moves_note _ _ _
    · simp only [hf]
      have hp : d.phase = .idle ∧ phase = .editing := by
        cases hd : d.phase <;> simp_all [Phase.next?]
      exact (moves_note d _ _).move (Move.edit _ phase (Or.inl hp.1) (Or.inr hp.2))
  · rw [h]
    exact moves_note _ _ _

theorem moves_execute (d : Duel) (p : Player) : Moves d (d.execute p).2 := by
  unfold execute
  split
  · exact moves_note _ _ _
  · rename_i h
    have hs : d.started = true := by simpa using h
    rcases d.accepts_cases p "request_execute" with ⟨h, -, hp⟩ | ⟨message, h⟩
    · rw [h]
      rcases d.fire_cases .execute with ⟨-, m, hf⟩ | ⟨phase, m, hn, hf⟩
      · simp only [hf]
        exact moves_note _ _ _
      · simp only [hf]
        obtain ⟨hi, rfl⟩ := Phase.next?_execute hn
        rw [hp]
        exact (moves_note d _ _).move (Move.accept (d.note .debug m) hs hi)
    · rw [h]
      exact moves_note _ _ _

theorem moves_autoExecute (d : Duel) : Moves d d.autoExecute := by
  unfold autoExecute
  split
  · exact moves_execute _ _
  · exact .refl _

theorem moves_endEditing (d : Duel) (p : Player) : Moves d (d.endEditing p).2 := by
  unfold endEditing
  rcases d.accepts_cases p "end_editing" with ⟨h, -, -⟩ | ⟨message, h⟩
  · rw [h]
    rcases d.fire_cases .endEdit with ⟨-, m, hf⟩ | ⟨phase, m, hn, hf⟩
    · simp only [hf]
      exact moves_note _ _ _
    · simp only [hf]
      have hp : d.phase = .editing ∧ phase = .idle := by
        cases hd : d.phase <;> simp_all [Phase.next?]
      exact ((moves_note d _ _).move (Move.edit _ phase (Or.inr hp.1) (Or.inl hp.2))).trans
        (moves_autoExecute _)
  · rw [h]
    exact moves_note _ _ _

theorem moves_setContinuous (d : Duel) (on : Bool) : Moves d (d.setContinuous on) := by
  unfold setContinuous
  split
  · exact moves_note _ _ _
  · rename_i ho
    have hp : d.phase ≠ .over := by simpa [isOver] using ho
    exact ((Move.mode d on hp).moves.trans (moves_note _ _ _)).trans (moves_autoExecute _)

theorem moves_toggleContinuous (d : Duel) : Moves d d.toggleContinuous.2 :=
  moves_setContinuous d _

end Duel

namespace Coordinator

open Duel

variable {M : Type} {tell : Notification → Coordinator M → Coordinator M}

/-- A way to tell that comes down to moves, once the log has heard. -/
def Tells (tell : Notification → Coordinator M → Coordinator M) : Prop :=
  ∀ n c, Moves (c.logEvent n).duel (tell n c).duel

theorem Tells.moves (ht : Tells tell) {d : Duel} {n : Notification} {c : Coordinator M}
    (hn : n.kind ≠ .matchEnded) (h : Moves d c.duel) : Moves d (tell n c).duel :=
  (h.move (Move.told c.duel n hn)).trans (ht n c)

theorem Tells.ended (ht : Tells tell) {d : Duel} {c : Coordinator M} {winner : Player}
    {reason : GameResult} {journal : List Record} (ho : d.phase ≠ .over)
    (hr : reason ≠ .inProgress)
    (hc : (c.logEvent (.matchEnded winner winner.other reason)).duel =
      d.struck winner reason journal) :
    Moves d { (tell (.matchEnded winner winner.other reason) c).duel with finished := true } :=
  Moves.ended winner reason journal (.refl d) ho hr (hc ▸ ht _ c)

theorem moves_start (ht : Tells tell) (c : Coordinator M) : Moves c.duel (c.start tell).duel := by
  unfold start
  split
  · exact moves_note _ _ _
  · rename_i hs
    let x := c.duel.opened.arena.promote .a
    have hopen : Moves c.duel (c.duel.opened.setArena x).startTimer :=
      (Move.opening c.duel x.value _ (by simpa using hs)).moves
    refine Moves.trans (ht.moves ?_ (hopen.trans (moves_note _ _ _))) (moves_autoExecute _)
    simp [Notification.kind]

theorem moves_endMatch (ht : Tells tell) {d : Duel} {c : Coordinator M} (winner : Player)
    {reason : GameResult} (hr : reason ≠ .inProgress) (h : Moves d c.duel) :
    Moves d (c.endMatch tell winner reason).duel := by
  refine h.trans ?_
  unfold endMatch
  rcases c.duel.fire_cases .endMatch with ⟨-, m, hf⟩ | ⟨phase, m, hn, hf⟩
  · simp only [onDuel, hf]
    exact moves_note _ _ _
  · simp only [onDuel, hf]
    obtain ⟨ho, rfl⟩ := Phase.next?_endMatch hn
    exact ht.ended ho hr rfl

theorem moves_shootAt (ht : Tells tell) {d : Duel} {c : Coordinator M} (p : Player) (cell : Place)
    (h : Moves d c.duel) : Moves d (c.shootAt tell p cell).2.duel := by
  have hfired : Moves d (c.onDuel (·.onArena (·.shootAt p cell))).2.duel :=
    h.trans (moves_onArena c.duel (·.shootAt p cell))
  rcases shootAt_cases tell p cell c with ⟨fault, -, heq⟩ | ⟨result, -, heq⟩
  · rw [heq]
    exact hfired
  · have htold := ht.moves (n := .shot result) (by simp [Notification.kind]) hfired
    rw [heq]
    dsimp only
    split
    · exact moves_endMatch ht _ (by decide) htold
    · exact htold

theorem moves_handle (ht : Tells tell) (r : Request) (c : Coordinator M) :
    Moves c.duel (c.handle tell r).2.duel := by
  cases r with
  | start => exact moves_start ht c
  | setScript p script =>
    have h := moves_setScript c.duel p script
    simp only [handle, onDuel]
    split <;> exact h
  | beginEditing p => exact moves_beginEditing c.duel p
  | endEditing p => exact moves_endEditing c.duel p
  | execute p => exact moves_execute c.duel p
  | setContinuous on => exact moves_setContinuous c.duel on
  | toggleContinuous => exact moves_toggleContinuous c.duel
  | lost p => exact moves_endMatch ht _ (by decide) (.refl _)
  | exited p => exact moves_endMatch ht _ (by decide) (.refl _)
  | shootAt p cell =>
    rw [handle_shootAt]
    exact moves_shootAt ht p cell (.refl _)
  | tryMove p dir => exact moves_onArena c.duel (·.tryMove p dir)
  | radarFor p => exact moves_onArena c.duel (·.radarFor p)
  | position p => exact .refl _
  | facing p => exact .refl _

/-- A listener's plan comes down to the moves of its requests. -/
theorem moves_perform (ht : Tells tell) (plan : Plan M) (c : Coordinator M) :
    Moves c.duel (plan.perform (handle tell) c).duel := by
  induction plan generalizing c with
  | stop => exact .refl _
  | look next ih => exact ih _ _ c
  | keep memory next ih => exact ih { c with memory }
  | ask r next ih => exact (moves_handle ht r c).trans (ih _ _)

theorem tells_tellAt (l : Listener M) (depth : Nat) : Tells (l.tellAt depth) := by
  induction depth with
  | zero => exact fun n c => .refl _
  | succ depth ih => exact fun n c => moves_perform ih (l.plan n) (c.logEvent n)

theorem tells_tell (l : Listener M) : Tells l.tell := tells_tellAt l l.depth

theorem moves_request (l : Listener M) (r : Request) (c : Coordinator M) :
    Moves c.duel (c.request l r).2.duel :=
  moves_handle (tells_tell l) r c

end Coordinator

end Turn

end MazeDuel
