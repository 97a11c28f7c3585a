import MazeDuel.Proofs.Turn.Sealed
import MazeDuel.Proofs.Turn.Order
/-!
Listeners and the seal on the end of a match: it is kept while they ask whatever players may ask,
and what they ask leaves the arena of a started match alone.
-/

namespace MazeDuel.Turn

namespace Coordinator

open Duel

variable {M : Type} {tell : Notification → Coordinator M → Coordinator M} {strict : Prop}
  {seen : M → List Duel} {c c' : Coordinator M}

/-- The seal on a match, with what its listener has seen of it. -/
def Sealed (strict : Prop) (seen : M → List Duel) (c : Coordinator M) : Prop :=
  Duel.Sealed strict (seen c.memory) c.duel

theorem Sealed.idles (h : c.Sealed strict seen) (hi : Idles c c') : c'.Sealed strict seen := by
  unfold Sealed
  rw [hi.memory]
  exact Duel.Sealed.idle h hi.duel

theorem Sealed.update {f : Duel → Duel} (h : c.Sealed strict seen)
    (hi : Idle c.duel (f c.duel)) : (c.update f).Sealed strict seen :=
  Duel.Sealed.idle h hi

theorem Sealed.steers {f : Duel → Duel} (h : c.Sealed strict seen)
    (hs : Steers c.duel (f c.duel)) : (c.update f).Sealed strict seen :=
  Duel.Sealed.steers h hs

/-- Whether telling keeps the seal, once the log has heard. -/
def Sealing (seen : M → List Duel) (tell : Notification → Coordinator M → Coordinator M) : Prop :=
  ∀ (strict : Prop) n c, (c.logEvent n).Sealed strict seen → (tell n c).Sealed strict seen

theorem Sealing.told (ht : Sealing seen tell) (h : c.Sealed strict seen)
    (hp : c.duel.phase ≠ .over) {n : Notification} (hn : n.kind ≠ .matchEnded) :
    (tell n c).Sealed strict seen :=
  ht strict n c (Duel.Sealed.told h hp n hn)

theorem Sealing.start (ht : Sealing seen tell) (h : c.Sealed strict seen) :
    (c.start tell).Sealed strict seen := by
  by_cases hs : c.duel.started = true
  · exact h.idles (idles_start_started tell hs)
  · unfold Coordinator.start
    rw [if_neg hs]
    have hg : (c.duel.opened.arena.promote .a).value.Grounded :=
      h.grounded.sameFixes (Arena.sameFixes_promote _ _)
    have hopened : ((c.update Duel.opened).promoteCurrent).Sealed strict seen :=
      Duel.Sealed.opened h (Bool.eq_false_iff.mpr hs) _ hg
    refine (ht.told ((hopened.update (idle_startTimer _)).update ?_) ?_ ?_).steers
      (steers_autoExecute _)
    · exact idle_note _ _ _
    · show Phase.idle ≠ .over
      decide
    · simp [Notification.kind]

theorem Sealing.endMatch (ht : Sealing seen tell) (h : c.Sealed strict seen)
    (winner : Player) (reason : GameResult) :
    (c.endMatch tell winner reason).Sealed strict seen := by
  unfold Coordinator.endMatch
  rcases c.duel.fire_cases .endMatch with ⟨-, m, hf⟩ | ⟨phase, m, hn, hf⟩
  · simp only [onDuel, hf]
    exact h.idles ⟨rfl, idle_note _ _ _⟩
  · simp only [onDuel, hf]
    obtain ⟨hp, rfl⟩ := Phase.next?_endMatch hn
    -- listeners hear of the end when the seal is on already; what follows is the flag for waiters
    refine Sealed.idles (ht strict _ _ ?_) ⟨rfl, idle_beside⟩
    exact Duel.Sealed.struck h hp winner reason _

theorem Sealing.handle (ht : Sealing seen tell) (h : c.Sealed strict seen) {r : Request}
    (hr : r.actsOnWorld = false) : (c.handle tell r).2.Sealed strict seen := by
  by_cases hstart : r = .start
  · subst hstart
    exact ht.start h
  · cases hr' : r.isReport with
    | false =>
      obtain ⟨hm, hs⟩ := steers_handle tell (Or.inr hstart) hr hr'
      unfold Sealed
      rw [hm]
      exact Duel.Sealed.steers h hs
    | true =>
      cases r with
      | lost p => exact ht.endMatch h _ _
      | exited p => exact ht.endMatch h _ _
      | _ => cases hr'

/-- Noting down the present moment, or nothing, keeps the seal. -/
theorem Sealed.keep (h : c.Sealed strict seen) (m : M)
    (hm : seen m = seen c.memory ∨ seen m = c.duel :: seen c.memory) :
    Sealed strict seen { c with memory := m } := by
  unfold Sealed
  rcases hm with hm | hm
  · rw [show seen ({ c with memory := m } : Coordinator M).memory = seen c.memory from hm]
    exact h
  · rw [show seen ({ c with memory := m } : Coordinator M).memory = c.duel :: seen c.memory from hm]
    exact Duel.Sealed.noteDown h

/-- A listener that notes down what it sees and asks what players may ask. -/
def Fair (seen : M → List Duel) (l : Listener M) : Prop :=
  ∀ n d m, (l.plan n).Watches seen (fun r => r.actsOnWorld = false) d m

/-- A listener that does not end the match while it is told of a move. -/
def Discreet (seen : M → List Duel) (l : Listener M) : Prop :=
  ∀ p before d m, (l.plan (.positionMoved p before)).Watches seen
    (fun r => r.actsOnWorld = false ∧ r.isReport = false) d m

/-- A listener that notes down what it sees and asks nothing. -/
def Mute (seen : M → List Duel) (l : Listener M) : Prop :=
  ∀ n d m, (l.plan n).Watches seen (fun _ => False) d m

theorem Mute.fair {l : Listener M} (h : Mute seen l) : Fair seen l :=
  fun n d m => (h n d m).mono nofun

theorem sealing_tellAt {l : Listener M} (hl : Fair seen l) (depth : Nat) :
    Sealing seen (l.tellAt depth) := by
  -- on the depth: the requests of a listener are told one level further down
  induction depth with
  | zero => exact fun strict n c h => h
  | succ depth ih =>
    intro strict n c h
    exact (hl n _ _).keeps (P := fun c => c.Sealed strict seen) (fun c m hm h => h.keep m hm)
      (fun c r hr h => ih.handle h hr) h

/-- Telling that leaves the arena of a started match alone. -/
def Spares (tell : Notification → Coordinator M → Coordinator M) : Prop :=
  ∀ n c, c.duel.started = true → (tell n c).duel.arena = c.duel.arena

theorem Spares.endMatch (ht : Spares tell) (hs : c.duel.started = true) (winner : Player)
    (reason : GameResult) : (c.endMatch tell winner reason).duel.arena = c.duel.arena := by
  unfold Coordinator.endMatch
  rcases c.duel.fire_cases .endMatch with ⟨-, m, hf⟩ | ⟨phase, m, hn, hf⟩
  · simp only [onDuel, hf]
    rfl
  · simp only [onDuel, hf]
    exact ht _ _ hs

theorem Spares.handle (ht : Spares tell) (hs : c.duel.started = true) {r : Request}
    (hr : r.actsOnWorld = false) : (c.handle tell r).2.duel.arena = c.duel.arena := by
  cases hr' : r.isReport with
  | false => exact (steers_handle tell (Or.inl hs) hr hr').2.arena
  | true =>
    cases r with
    | lost p => exact ht.endMatch hs _ _
    | exited p => exact ht.endMatch hs _ _
    | _ => cases hr'

theorem spares_tellAt {l : Listener M} (hl : Fair seen l) (depth : Nat) :
    Spares (l.tellAt depth) := by
  induction depth with
  | zero => exact fun n c hs => rfl
  | succ depth ih =>
    intro n c hs
    refine And.right (a := (l.tellAt (depth + 1) n c).duel.started = true) ?_
    refine (hl n _ _).keeps (c := c.logEvent n)
      (P := fun x => x.duel.started = true ∧ x.duel.arena = c.duel.arena) (fun x m _ h => h) ?_
      ⟨hs, rfl⟩
    intro x r hr h
    exact ⟨(moves_handle (tells_tellAt l depth) r x).started h.1, (ih.handle h.1 hr).trans h.2⟩

/-- Telling of a move that does not end the match. -/
def Patient (tell : Notification → Coordinator M → Coordinator M) : Prop :=
  ∀ p before c, c.duel.started = true → c.duel.phase ≠ .over →
    (tell (.positionMoved p before) c).duel.phase ≠ .over

theorem patient_tellAt {l : Listener M} (hl : Discreet seen l) (depth : Nat) :
    Patient (l.tellAt depth) := by
  intro p before c hs hp
  cases depth with
  | zero => exact hp
  | succ depth =>
    let n : Notification := .positionMoved p before
    refine And.right (a := (l.tellAt (depth + 1) n c).duel.started = true) ?_
    refine (hl p before _ _).keeps (c := c.logEvent n)
      (P := fun x => x.duel.started = true ∧ x.duel.phase ≠ .over) (fun x m _ h => h) ?_ ⟨hs, hp⟩
    intro x r hr h
    obtain ⟨-, hsteers⟩ := steers_handle (l.tellAt depth) (Or.inl h.1) hr.1 hr.2
    exact ⟨hsteers.started.trans h.1, hsteers.going h.2⟩

/-- What telling keeps of a match whose end is sealed. -/
structure Heard (strict : Prop) (seen : M → List Duel)
    (tell : Notification → Coordinator M → Coordinator M) : Prop where
  tells : Tells tell
  sealing : Sealing seen tell
  spares : Spares tell
  patient : strict → Patient tell

theorem heard_tell {l : Listener M} (hl : Fair seen l) (hd : strict → Discreet seen l) :
    Heard strict seen l.tell :=
  ⟨tells_tell l, sealing_tellAt hl l.depth, spares_tellAt hl l.depth,
    fun hs => patient_tellAt (hd hs) l.depth⟩

/-- One action of a run, with all that comes of it. -/
def carryOut (tell : Notification → Coordinator M → Coordinator M) (p : Player) (a : Action)
    (c : Coordinator M) : Except Fault Unit × Coordinator M :=
  match Execution.perform (surroundings tell) p c a with
  | (.error fault, c) => (.error fault, c)
  | (.ok changed, c) =>
    (.ok (), match changed with
      | some before => c.onMoved tell p before
      | none => c)

/-- A run goes on after an action unless the action has failed. -/
theorem act_cons (hp : c.duel.phase ≠ .over) (id : Nat) (p : Player) (executed : List String)
    (a : Action) (later : List Action) :
    let done := (c.update fun d => d.remember (.began id a d.phase d.current)).carryOut tell p a
    c.act tell id p executed (a :: later) = match done.1 with
      | .error fault => done.2.endTask id (.failed fault)
      | .ok () =>
        done.2.rest id (.act p later (executed ++ [a.label])) done.2.duel.timing.stepDelay := by
  rw [act, if_neg (by simpa [isOver] using hp)]
  unfold carryOut
  dsimp only
  generalize Execution.perform (surroundings tell) p _ a = x
  obtain ⟨fault | changed, w⟩ := x <;> rfl

end Coordinator

end MazeDuel.Turn
