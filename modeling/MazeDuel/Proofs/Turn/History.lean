import MazeDuel.Proofs.Turn.Steps
import MazeDuel.Proofs.Turn.Tasks
/-!
Histories of a match: requests from outside, steps of tasks and movements of the clock in any order.
Everything that the clock loops do is such a history.
-/

namespace MazeDuel.Turn

inductive Happening where
  | request (r : Request)
  /-- The first task in the queue makes its step. -/
  | step
  /-- The first sleeper becomes ready. -/
  | wake
  /-- The clock is set. -/
  | clock (now : Float)

def Happening.isRequest : Happening → Bool
  | .request _ => true
  | _ => false

namespace Coordinator

variable {M : Type}

def happen (l : Listener M) (c : Coordinator M) : Happening → Coordinator M
  | .request r => (c.request l r).2
  | .step => (c.step? l.tell).getD c
  | .wake => c.wake?.getD c
  | .clock now => c.setNow now

/-- What a match has become after a history. -/
def after (l : Listener M) (c : Coordinator M) (hs : List Happening) : Coordinator M :=
  hs.foldl (happen l) c

/-- A match that has not been started, with its listener. -/
def fresh (arena : Arena) (timing : Timing) (scripts : Duo Json) (memory : M) : Coordinator M :=
  ⟨.fresh arena timing scripts, memory⟩

variable (l : Listener M) (c : Coordinator M)

@[simp] theorem after_nil : c.after l [] = c := rfl

@[simp] theorem after_cons (h : Happening) (hs : List Happening) :
    c.after l (h :: hs) = (c.happen l h).after l hs := rfl

theorem after_append (hs hs' : List Happening) :
    c.after l (hs ++ hs') = (c.after l hs).after l hs' :=
  List.foldl_append

theorem after_concat (hs : List Happening) (h : Happening) :
    c.after l (hs ++ [h]) = (c.after l hs).happen l h :=
  after_append l c hs [h]

variable {l c} {c' : Coordinator M}

theorem happen_step (h : c.step? l.tell = some c') : c.happen l .step = c' := by
  rw [happen, h]
  rfl

theorem happen_wake (h : c.wake? = some c') : c.happen l .wake = c' := by
  rw [happen, h]
  rfl

end Coordinator

namespace Duel

/-- What one thing that happens makes of a match. -/
inductive Goes (d : Duel) : Duel → Prop where
  | moved {d' : Duel} : Moves d d' → Goes d d'
  | stepped {d' : Duel} : Stepped d d' → Goes d d'
  | woken {schedule : Schedule Job} : d.schedule.wake? = some schedule →
      Goes d { d with schedule }
  | timed (now : Float) : Goes d { d with schedule := { d.schedule with now } }

/-- What moves keep and each change of a step keeps, everything that happens keeps. -/
theorem Goes.keeps {P : Duel → Prop} {d d' : Duel} (h : Goes d d')
    (hmoves : ∀ {d d'}, Moves d d' → P d → P d')
    (hend : ∀ {d} id outcome, P d → P (d.endTask id outcome))
    (hrest : ∀ {d} id job, job.rests → P d →
      P { d with schedule := d.schedule.rest id job (d.timing.delay job).toFloat })
    (htaken : ∀ {d} t ready, d.schedule.ready = t :: ready → P d → P (d.taken t ready))
    (hstop : ∀ {d}, P d → P { d with running := none })
    (hwake : ∀ {d} schedule, d.schedule.wake? = some schedule → P d → P { d with schedule })
    (hclock : ∀ {d} now, P d → P { d with schedule := { d.schedule with now } })
    (hremember : ∀ {d x}, (∀ phase, x ≠ .opened phase) → P d → P (d.remember x))
    (hidle : ∀ {d}, d.phase ≠ .over → P d → P { d with phase := .idle })
    (hpass : ∀ {d}, d.phase ≠ .over → P d → P d.passTurn)
    (htimer : ∀ {d}, d.phase = .idle ∨ d.phase = .editing → P d → P d.startTimer) :
    P d → P d' := by
  intro hp
  cases h with
  | moved hm => exact hmoves hm hp
  | stepped hs =>
    cases hs with
    | dropped hr hc => exact hstop (hend _ _ (htaken _ _ hr hp))
    | worked hr hc hw =>
      have htaken := htaken _ _ hr hp
      exact hstop (hw.keeps hmoves hend hrest hremember hidle hpass htimer htaken)
  | woken hw => exact hwake _ hw hp
  | timed now => exact hclock now hp

/-- The same for what does not depend on the tasks. -/
theorem Goes.keeps_apart {P : Duel → Prop} {d d' : Duel} (h : Goes d d')
    (hmoves : ∀ {d d'}, Moves d d' → P d → P d')
    (htasks : ∀ {d} schedule running awaited outcomes, P d →
      P { d with schedule, running, awaited, outcomes })
    (hremember : ∀ {d x}, (∀ phase, x ≠ .opened phase) → P d → P (d.remember x))
    (hidle : ∀ {d}, d.phase ≠ .over → P d → P { d with phase := .idle })
    (hpass : ∀ {d}, d.phase ≠ .over → P d → P d.passTurn)
    (htimer : ∀ {d}, d.phase = .idle ∨ d.phase = .editing → P d → P d.startTimer) :
    P d → P d' := by
  refine h.keeps hmoves ?_ ?_ ?_ ?_ ?_ ?_ hremember hidle hpass htimer
  · intro e id outcome he
    obtain ⟨schedule, awaited, heq⟩ := endTask_eq e id outcome
    rw [heq]
    exact htasks schedule e.running awaited _ he
  · exact fun _ _ _ he => htasks _ _ _ _ he
  · exact fun _ _ _ he => htasks _ _ _ _ he
  · exact fun he => htasks _ _ _ _ he
  · exact fun _ _ he => htasks _ _ _ _ he
  · exact fun _ he => htasks _ _ _ _ he

/-- No deed is forgotten. -/
theorem Moves.deeds {d d' : Duel} (h : Moves d d') : d.deeds <:+ d'.deeds := by
  refine h.keeps (P := fun e => d.deeds <:+ e.deeds) ?_ ?_ ?_ List.suffix_rfl
  · intro e e' hm he
    cases hm with
    | script => exact he.trans (List.suffix_cons _ _)
    | accept => exact he.trans (List.suffix_cons _ _)
    | opening => exact (he.trans (List.suffix_cons _ _)).trans (List.suffix_cons _ _)
    | _ => exact he
  · intro e winner reason journal hp hr he
    exact he
  · intro e he
    exact he

theorem Goes.deeds {d d' : Duel} (h : Goes d d') : d.deeds <:+ d'.deeds := by
  refine h.keeps_apart (P := fun e => d.deeds <:+ e.deeds) ?_ ?_ ?_ ?_ ?_ ?_ List.suffix_rfl
  · exact fun hm he => he.trans hm.deeds
  · exact fun _ _ _ _ he => he
  · exact fun _ he => he.trans (List.suffix_cons _ _)
  · exact fun _ he => he
  · exact fun _ he => he
  · exact fun _ he => he.trans (List.suffix_cons _ _)

theorem Moves.timing {d d' : Duel} (hm : Moves d d') : d'.timing = d.timing := by
  refine hm.keeps (P := fun e => e.timing = d.timing) ?_ ?_ ?_ rfl
  · intro e e' hm he
    cases hm <;> exact he
  · exact fun winner reason journal hp hr he => he
  · exact fun he => he

theorem timing_goes {d d' : Duel} {timing : Timing} (hg : Goes d d') (h : d.timing = timing) :
    d'.timing = timing := by
  refine hg.keeps_apart (P := fun e => e.timing = timing) ?_ ?_ ?_ ?_ ?_ ?_ h
  · exact fun hm he => hm.timing.trans he
  · exact fun _ _ _ _ he => he
  · exact fun _ he => he
  · exact fun _ he => he
  · exact fun _ he => he
  · exact fun _ he => he

end Duel

namespace Coordinator

open Duel

variable {M : Type}

theorem goes_happen (l : Listener M) (c : Coordinator M) (h : Happening) :
    Goes c.duel (c.happen l h).duel := by
  cases h with
  | request r => exact .moved (moves_request l r c)
  | step =>
    unfold happen
    cases hs : c.step? l.tell with
    | none => exact .moved (.refl _)
    | some c' => exact .stepped (stepped_step? (tells_tell l) hs)
  | wake =>
    unfold happen wake?
    cases hs : c.duel.schedule.wake? with
    | none => exact .moved (.refl _)
    | some schedule => exact .woken hs
  | clock now => exact .timed now

/-- What everything that happens keeps holds after every history. -/
theorem after_keeps {P : Duel → Prop} (hp : ∀ {d d' : Duel}, Goes d d' → P d → P d')
    (l : Listener M) (c : Coordinator M) (hs : List Happening) (h : P c.duel) :
    P (c.after l hs).duel := by
  induction hs generalizing c with
  | nil => exact h
  | cons x hs ih => exact ih (c.happen l x) (hp (goes_happen l c x) h)

/-- A history of the clock alone. -/
def Passes (l : Listener M) (c c' : Coordinator M) : Prop :=
  ∃ hs : List Happening, (∀ h ∈ hs, h.isRequest = false) ∧ c' = c.after l hs

theorem Passes.refl (l : Listener M) (c : Coordinator M) : Passes l c c :=
  ⟨[], by simp, rfl⟩

theorem Passes.trans {l : Listener M} {c c' c'' : Coordinator M} (h : Passes l c c')
    (h' : Passes l c' c'') : Passes l c c'' := by
  obtain ⟨hs, hn, rfl⟩ := h
  obtain ⟨hs', hn', rfl⟩ := h'
  refine ⟨hs ++ hs', ?_, (after_append l c hs hs').symm⟩
  intro x hx
  rcases List.mem_append.mp hx with hx | hx
  · exact hn x hx
  · exact hn' x hx

theorem passes_step? {l : Listener M} {c c' : Coordinator M} (h : c.step? l.tell = some c') :
    Passes l c c' :=
  ⟨[.step], by simp [Happening.isRequest], (happen_step h).symm⟩

theorem passes_wake? {l : Listener M} {c c' : Coordinator M} (h : c.wake? = some c') :
    Passes l c c' :=
  ⟨[.wake], by simp [Happening.isRequest], (happen_wake (l := l) h).symm⟩

theorem passes_setNow (l : Listener M) (c : Coordinator M) (now : Float) :
    Passes l c (c.setNow now) :=
  ⟨[.clock now], by simp [Happening.isRequest], rfl⟩

theorem passes_drainAt (l : Listener M) (fuel : Nat) (c : Coordinator M) :
    Passes l c (c.drainAt l.tell fuel) := by
  induction fuel generalizing c with
  | zero => exact .refl l c
  | succ fuel ih =>
    unfold drainAt
    split
    · exact (passes_step? ‹_›).trans (ih _)
    · exact .refl l c

theorem passes_passAt (l : Listener M) (target : Float) (fuel : Nat) (c : Coordinator M) :
    Passes l c (c.passAt l.tell target fuel) := by
  induction fuel generalizing c with
  | zero => exact .refl l c
  | succ fuel ih =>
    unfold passAt
    split
    · split
      · split
        · exact ((passes_wake? ‹_›).trans (passes_drainAt l _ _)).trans (ih _)
        · exact .refl l c
      · exact .refl l c
    · exact .refl l c

/-- Letting time pass is a history of the clock. -/
theorem passes_advance (l : Listener M) (c : Coordinator M) (seconds : Float) :
    Passes l c (c.advance l.tell seconds) :=
  ((passes_drainAt l _ c).trans (passes_passAt l _ _ _)).trans (passes_setNow l _ _)

def standing (p : Player) (c : Cell) : Combatant where
  player := p
  pos := .cell c
  maxHealth := Combatant.defaultHealth
  health := Combatant.defaultHealth

/-- Two players in opposite corners of an open field. -/
def openField : Arena :=
  let a := standing .a ⟨0, 0⟩
  let b := standing .b ⟨4, 4⟩
  ⟨.build 5 5 false, ⟨a, b⟩, ⟨.fresh a.fix, .fresh b.fix⟩, .whole 20⟩

theorem make_openField :
    Arena.make openField.grid (standing .a ⟨0, 0⟩) (standing .b ⟨4, 4⟩) (.whole 20) =
      .ok openField :=
  rfl

/-- A match on the open field with a pause of a second after each turn, without scripts. -/
def fieldMatch : Coordinator Unit :=
  fresh openField { turnDelay := .whole 1 } ⟨.null, .null⟩ ()

/-- Two runs in a row, the second during the pause of the first. -/
def twoPauses : List Happening :=
  [.request .start, .request (.setContinuous true), .step, .step, .request (.execute .b), .step]

end Coordinator

end MazeDuel.Turn
