import MazeDuel.Proofs.Turn.Solo
/-!
Completed runs: the runs of a player that came to their end before the match did. The step that ends
such a run is the only thing that completes it.
-/

namespace MazeDuel.Turn

namespace Deed

/-- How many runs of a player have come to their end before the match did. -/
def completions (p : Player) : List Deed → Nat
  | [] => 0
  | closed run _ :: deeds => completions p deeds + if (run, p) ∈ unfinished deeds then 1 else 0
  | _ :: deeds => completions p deeds

theorem completions_closed (p : Player) (run : Nat) (taken : Bool) (deeds : List Deed) :
    completions p (closed run taken :: deeds) =
      completions p deeds + if (run, p) ∈ unfinished deeds then 1 else 0 := rfl

/-- Whether a deed ends a run. -/
def isClosed : Deed → Bool
  | closed _ _ => true
  | _ => false

theorem completions_cons {x : Deed} (h : x.isClosed = false) (p : Player) (deeds : List Deed) :
    completions p (x :: deeds) = completions p deeds := by
  cases x with
  | closed => cases h
  | _ => rfl

theorem unfinished_subset_cons {x : Deed} (h : x.isClosed = false) (deeds : List Deed) :
    unfinished deeds ⊆ unfinished (x :: deeds) := by
  cases x with
  | closed => cases h
  | accepted => exact List.subset_cons_self _ _
  | _ => exact List.Subset.refl _

/-- Nothing has come to its end between two moments. -/
structure Unclosed (deeds deeds' : List Deed) : Prop where
  count : ∀ p, completions p deeds' = completions p deeds
  kept : unfinished deeds ⊆ unfinished deeds'

theorem Unclosed.refl (deeds : List Deed) : Unclosed deeds deeds :=
  ⟨fun _ => rfl, List.Subset.refl _⟩

theorem Unclosed.trans {deeds deeds' deeds'' : List Deed} (h : Unclosed deeds deeds')
    (h' : Unclosed deeds' deeds'') : Unclosed deeds deeds'' :=
  ⟨fun p => (h'.count p).trans (h.count p), List.Subset.trans h.kept h'.kept⟩

theorem Unclosed.cons {deeds deeds' : List Deed} (h : Unclosed deeds deeds') {x : Deed}
    (hx : x.isClosed = false) : Unclosed deeds (x :: deeds') :=
  h.trans ⟨fun p => completions_cons hx p deeds', unfinished_subset_cons hx deeds'⟩

end Deed

namespace Duel

open Deed

variable {d d' : Duel}

theorem Moves.unclosed (h : Moves d d') : Unclosed d.deeds d'.deeds := by
  refine h.keeps (P := fun e => Unclosed d.deeds e.deeds) ?_ ?_ (fun he => he) (.refl _)
  · intro e e' hm he
    cases hm with
    | script => exact he.cons rfl
    | accept => exact he.cons rfl
    | opening => exact (he.cons rfl).cons rfl
    | _ => exact he
  · exact fun _ _ _ _ _ he => he

theorem unclosed_endTask (d : Duel) (id : Nat) (outcome : Outcome) :
    Unclosed d.deeds (d.endTask id outcome).deeds := by
  obtain ⟨schedule, awaited, heq⟩ := endTask_eq d id outcome
  rw [heq]
  exact .refl _

theorem unclosed_rest (d : Duel) (id : Nat) (job : Job) (delay : Quantity) :
    Unclosed d.deeds (d.rest id job delay).deeds := by
  obtain ⟨schedule, awaited, outcomes, heq⟩ := d.rest_beside id job delay
  rw [heq]
  exact .refl _

theorem unclosed_beginTurn (d : Duel) : Unclosed d.deeds d.beginTurn.deeds := by
  rcases d.beginTurn_cases with ⟨-, heq⟩ | ⟨-, hm⟩
  · rw [heq]
    exact .refl _
  · exact ((Unclosed.refl d.deeds).cons rfl).trans hm.unclosed

/-- A task that has actions left, or none at all, completes no run; and nobody completes one after
the end of the match. -/
theorem Work.unclosed {id : Nat} {job : Job} (hw : Work id job d d')
    (hgoes : ∀ {p executed}, d.program? job = some (p, [], executed) → d.phase = .over) :
    Unclosed d.deeds d'.deeds := by
  cases hw with
  | unread fault hp hq => exact hq.moves.unclosed.trans (unclosed_endTask _ _ _)
  | acted hp hover hq hm =>
    exact ((hq.moves.unclosed.cons rfl).trans hm.unclosed).trans (unclosed_rest _ _ _ _)
  | broke hp hover hf hq hm =>
    exact ((hq.moves.unclosed.cons rfl).trans hm.unclosed).trans (unclosed_endTask _ _ _)
  | stopped result hp hover hq => exact hq.moves.unclosed.trans (unclosed_endTask _ _ _)
  | closed result hp hover hq hm hc => exact absurd (hgoes hp) hover
  | paused result hp hover hq hm hc => exact absurd (hgoes hp) hover
  | woke _ result =>
    have hwoke : Unclosed d.deeds (d.remember (.woke id d.turnNumber d.phase)).deeds :=
      (Unclosed.refl _).cons rfl
    exact (hwoke.trans (unclosed_beginTurn _)).trans (unclosed_endTask _ _ _)
  | uncounted ht => exact unclosed_endTask _ _ _
  | counted ht => exact unclosed_rest _ _ _ _
  | ticked hp hq => exact hq.moves.unclosed.trans (unclosed_rest _ _ _ _)
  | late hp hover hq => exact hq.moves.unclosed.trans (unclosed_endTask _ _ _)
  | @expired _ e d'' passed total hp hi hq hm =>
    have hpassed : Unclosed d.deeds d''.deeds := hq.moves.unclosed.trans hm.unclosed
    exact (hpassed.trans (unclosed_beginTurn _)).trans (unclosed_endTask _ _ _)

/-- What a step has completed that completes the run of a player. -/
structure Completes (p : Player) (d d' : Duel) : Prop where
  own : completions p d'.deeds = completions p d.deeds + 1
  other : ∀ q, q ≠ p → completions q d'.deeds = completions q d.deeds
  only : ∀ x ∈ unfinished d.deeds, x.2 = p

/-- A task without actions left completes its run, and nobody else's. -/
theorem Sole.completes {id : Nat} {job : Job} {p : Player} {executed : List String}
    (h : Sole id job d) (hw : Work id job d d') (hp : d.program? job = some (p, [], executed))
    (hover : d.phase ≠ .over) : Completes p d d' := by
  have hmem : (id, p) ∈ unfinished d.deeds := h.player p (program?_own hp).1
  obtain ⟨hbusy, -, hun⟩ := h.executing_of_mem hmem hover
  have hclose {e e' : Duel} (hq : Quiet d e)
      (ho : Unclosed (e.closeRun id).passTurn.deeds e'.deeds) : Completes p d e' := by
    obtain ⟨message, heq⟩ := closeRun_executing (hq.phase.trans hbusy) id
    have hdeeds : (e.closeRun id).passTurn.deeds = Deed.closed id true :: d.deeds := by
      rw [heq, ← hq.deeds]
      rfl
    rw [hdeeds] at ho
    refine ⟨?_, fun q hq' => ?_, fun x hx => ?_⟩
    · rw [ho.count, completions_closed, if_pos hmem]
    · have hnone : (id, q) ∉ unfinished d.deeds := by
        rw [hun, List.mem_singleton]
        exact fun heq => hq' (Prod.ext_iff.mp heq).2
      rw [ho.count, completions_closed, if_neg hnone]
      omega
    · rw [hun, List.mem_singleton] at hx
      rw [hx]
  cases hw with
  | unread fault hnone => cases hnone.symm.trans hp
  | acted hp' => cases hp'.symm.trans hp
  | broke hp' => cases hp'.symm.trans hp
  | stopped result hp' hover' => exact absurd hover' hover
  | closed result hp' hover' hq hm hc =>
    cases hp'.symm.trans hp
    exact hclose hq ((hm.unclosed.trans (unclosed_beginTurn _)).trans (unclosed_endTask _ _ _))
  | @paused _ _ e d'' _ _ result hp' hover' hq hm hc =>
    cases hp'.symm.trans hp
    have hpaused : Unclosed (e.closeRun id).passTurn.deeds
        (d''.remember (.paused id d''.turnNumber)).deeds := hm.unclosed.cons rfl
    exact hclose hq (hpaused.trans (unclosed_rest _ _ _ _))
  | woke => cases hp
  | uncounted => cases hp
  | counted => cases hp
  | ticked => cases hp
  | late => cases hp
  | expired => cases hp

/-- A step completes no run unless the first task in the queue has come to the end of one. -/
theorem Stepped.unclosed (h : Stepped d d') (hno : ∀ t ready p executed,
      d.schedule.ready = t :: ready → t.cancelled = false →
      d.program? t.job = some (p, [], executed) → d.phase = .over) :
    Unclosed d.deeds d'.deeds := by
  cases h with
  | @dropped t ready hr hc => exact (d.taken t ready).unclosed_endTask t.id .cancelled
  | @worked t ready d' hr hc hw =>
    have hgoes {p : Player} {executed : List String}
        (hp : (d.taken t ready).program? t.job = some (p, [], executed)) : d.phase = .over := by
      refine hno t ready p executed hr hc ?_
      rw [← hp]
      cases t.job <;> rfl
    exact hw.unclosed hgoes

theorem Still.completes (h : Still d) (hs : d.started = true) (hg : Stepped d d') {t : Task Job}
    {ready : List (Task Job)} {p : Player} {executed : List String}
    (hr : d.schedule.ready = t :: ready) (hc : t.cancelled = false)
    (hp : d.program? t.job = some (p, [], executed)) (hover : d.phase ≠ .over) :
    Completes p d d' := by
  cases hg with
  | dropped hr' hc' =>
    cases hr.symm.trans hr'
    cases hc.symm.trans hc'
  | worked hr' hc' hw =>
    cases hr.symm.trans hr'
    have hp' : (d.taken t ready).program? t.job = some (p, [], executed) := by
      rw [← hp]
      cases t.job <;> rfl
    have hcompletes := (h.toSolo.sole h.still hs hr).completes hw hp' hover
    exact ⟨hcompletes.own, hcompletes.other, hcompletes.only⟩

end Duel

end MazeDuel.Turn
