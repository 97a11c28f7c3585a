import MazeDuel.Proofs.Turn.Alike
import MazeDuel.Proofs.Turn.Watching
import MazeDuel.Turn.StandingOrders
/-!
Requests that are refused. A player who asks for something out of turn, or when the phase does not
allow it, is refused, and that leaves nothing behind but a record in the journal. A match goes on
after such a request, and around it, as it would have gone on without.
-/

namespace MazeDuel.Turn

namespace Duel

/-- Whether a request is one that players make, and is refused as the match stands. -/
def refuses (d : Duel) : Request → Bool
  | .setScript p _ => !(p == d.current && (d.phase == .idle || d.phase == .editing))
  | .beginEditing p => !(p == d.current && d.phase == .idle)
  | .endEditing p => !(p == d.current && d.phase == .editing)
  | .execute p => !(d.started && p == d.current && (d.phase == .idle || d.phase == .editing))
  | _ => false

theorem refuses_setScript {d : Duel} {p : Player} {script : Json} :
    d.refuses (.setScript p script) = false ↔
      p = d.current ∧ (d.phase = .idle ∨ d.phase = .editing) := by
  simp only [refuses, Bool.not_eq_false', Bool.and_eq_true, Bool.or_eq_true, beq_iff_eq]

theorem refuses_beginEditing {d : Duel} {p : Player} :
    d.refuses (.beginEditing p) = false ↔ p = d.current ∧ d.phase = .idle := by
  simp only [refuses, Bool.not_eq_false', Bool.and_eq_true, beq_iff_eq]

theorem refuses_endEditing {d : Duel} {p : Player} :
    d.refuses (.endEditing p) = false ↔ p = d.current ∧ d.phase = .editing := by
  simp only [refuses, Bool.not_eq_false', Bool.and_eq_true, beq_iff_eq]

theorem refuses_execute {d : Duel} {p : Player} :
    d.refuses (.execute p) = false ↔
      d.started = true ∧ p = d.current ∧ (d.phase = .idle ∨ d.phase = .editing) := by
  simp only [refuses, Bool.not_eq_false', Bool.and_eq_true, Bool.or_eq_true, beq_iff_eq, and_assoc]

/-- An answer together with what is left: yes if a request is not refused, and otherwise no, with
nothing changed but the journal. -/
def Answers (d : Duel) (r : Request) (x : Bool × Duel) : Prop :=
  d.refuses r = false ∧ x.1 = true ∨
    d.refuses r = true ∧ ∃ journal, x = (false, d.under journal)

variable (d : Duel) (p : Player)

/-- Only the player to move is heard, and only before the end. -/
theorem accepts_heard (request : String) :
    d.accepts p request = (true, d) ∧ p = d.current ∧ d.phase ≠ .over ∨
      (∃ journal, d.accepts p request = (false, d.under journal)) ∧
        (p ≠ d.current ∨ d.phase = .over) := by
  unfold accepts
  split
  · rename_i ho
    exact .inr ⟨⟨_, rfl⟩, .inr (by simpa [isOver] using ho)⟩
  · rename_i ho
    split
    · rename_i hp
      exact .inr ⟨⟨_, rfl⟩, .inl hp⟩
    · rename_i hp
      exact .inl ⟨rfl, not_not.mp hp, by simpa [isOver] using ho⟩

/-- What is fired is taken just if it leads somewhere. -/
theorem fire_taken (e : TurnEvent) :
    d.phase.next? e ≠ none ∧ (∃ d', d.fire e = (true, d')) ∨
      d.phase.next? e = none ∧ ∃ journal, d.fire e = (false, d.under journal) := by
  rcases d.fire_cases e with ⟨hn, m, hf⟩ | ⟨phase, m, hn, hf⟩
  · exact .inr ⟨hn, _, hf⟩
  · exact .inl ⟨by simp [hn], _, hf⟩

/-- A request that is heard and fires an event is refused if it is not heard, or if the event leads
nowhere. -/
theorem answers_fired (request : String) {r : Request} {e : TurnEvent} {x : Bool × Duel}
    (hr : d.refuses r = false ↔ p = d.current ∧ d.phase.next? e ≠ none)
    (hdeaf : ∀ d', d.accepts p request = (false, d') → x = (false, d'))
    (hfails : ∀ d', d.accepts p request = (true, d) → d.fire e = (false, d') → x = (false, d'))
    (hfires : ∀ d', d.accepts p request = (true, d) → d.fire e = (true, d') → x.1 = true) :
    d.Answers r x := by
  have hrefused (hnot : ¬ (p = d.current ∧ d.phase.next? e ≠ none)) : d.refuses r = true :=
    Bool.not_eq_false _ ▸ mt hr.mp hnot
  rcases d.accepts_heard p request with ⟨ha, hp, -⟩ | ⟨⟨journal, ha⟩, hnot⟩
  · rcases d.fire_taken e with ⟨hn, d', hf⟩ | ⟨hn, journal, hf⟩
    · exact .inl ⟨hr.mpr ⟨hp, hn⟩, hfires d' ha hf⟩
    · exact .inr ⟨hrefused fun h => h.2 hn, journal, hfails _ ha hf⟩
  · refine .inr ⟨hrefused fun ⟨hp, hn⟩ => ?_, journal, hdeaf _ ha⟩
    rcases hnot with hother | hover
    · exact hother hp
    · rw [hover] at hn
      exact hn (Phase.next?_over e)

theorem answers_beginEditing : d.Answers (.beginEditing p) (d.beginEditing p) := by
  have hphase : d.phase = .idle ↔ d.phase.next? .beginEdit ≠ none := by
    cases d.phase <;> simp [Phase.next?]
  refine d.answers_fired p "begin_editing" (refuses_beginEditing.trans (and_congr_right' hphase))
    (fun d' ha => ?_) (fun d' ha hf => ?_) (fun d' ha hf => ?_)
  · simp only [beginEditing, ha]
  · simp only [beginEditing, ha, hf]
  · simp only [beginEditing, ha, hf]

theorem answers_endEditing : d.Answers (.endEditing p) (d.endEditing p) := by
  have hphase : d.phase = .editing ↔ d.phase.next? .endEdit ≠ none := by
    cases d.phase <;> simp [Phase.next?]
  refine d.answers_fired p "end_editing" (refuses_endEditing.trans (and_congr_right' hphase))
    (fun d' ha => ?_) (fun d' ha hf => ?_) (fun d' ha hf => ?_)
  · simp only [endEditing, ha]
  · simp only [endEditing, ha, hf]
  · simp only [endEditing, ha, hf]

/-- Before the start nobody is heard. -/
theorem answers_execute : d.Answers (.execute p) (d.execute p) := by
  cases hs : d.started with
  | false =>
    unfold execute
    rw [hs]
    exact .inr ⟨by simp [refuses, hs], _, rfl⟩
  | true =>
    have hphase : d.phase = .idle ∨ d.phase = .editing ↔ d.phase.next? .execute ≠ none := by
      cases d.phase <;> simp [Phase.next?]
    have hr := (refuses_execute (d := d) (p := p)).trans (and_iff_right hs)
    refine d.answers_fired p "request_execute" (hr.trans (and_congr_right' hphase))
      (fun d' ha => ?_) (fun d' ha hf => ?_) (fun d' ha hf => ?_)
    · simp only [execute, hs, ha, Bool.not_true, Bool.false_eq_true, if_false]
    · simp only [execute, hs, ha, hf, Bool.not_true, Bool.false_eq_true, if_false]
    · simp only [execute, hs, ha, hf, Bool.not_true, Bool.false_eq_true, if_false]

/-- A script that is not refused is taken, whatever can then be said about it. -/
theorem answers_setScript (script : Json) :
    d.refuses (.setScript p script) = false ∧ (d.setScript p script).1 =
        script.length?.elim (.error .wrongType) (fun _ => .ok true) ∨
      d.refuses (.setScript p script) = true ∧
        ∃ journal, d.setScript p script = (.ok false, d.under journal) := by
  unfold setScript
  rcases d.accepts_heard p "set_script" with ⟨ha, rfl, ho⟩ | ⟨⟨journal, ha⟩, hp | hp⟩
  · rw [ha]
    dsimp only
    split
    · rename_i hp
      exact .inr ⟨by simp [refuses, hp], _, rfl⟩
    · rename_i hp
      refine .inl ⟨?_, ?_⟩
      · cases hphase : d.phase <;> simp_all [refuses]
      · cases script.length? <;> rfl
  all_goals
    rw [ha]
    exact .inr ⟨by simp [refuses, hp], journal, rfl⟩

end Duel

/-- A plan that goes on the same whatever is in the journal: what is recorded is for those who read
the log of a program, not for its listeners. -/
def Plan.Blind {M : Type} : Plan M → Prop
  | .stop => True
  | .look next => ∀ d m, (∀ journal, next (d.under journal) m = next d m) ∧ (next d m).Blind
  | .keep _ next => next.Blind
  | .ask _ next => ∀ reply, (next reply).Blind

def Listener.Blind {M : Type} (l : Listener M) : Prop := ∀ n, (l.plan n).Blind

theorem StandingOrder.blind_ask (kind : Notification.Kind) (requests : List Request)
    {next : Plan Memory} (h : next.Blind) : (ask kind requests next).Blind := by
  induction requests with
  | nil => exact h
  | cons r rest ih => exact fun d m => ⟨fun _ => rfl, fun _ d' m' => ⟨fun _ => rfl, ih⟩⟩

theorem StandingOrder.blind_listener (rules : List StandingOrder) : (listener rules).Blind := by
  intro n
  show (plan n 0 rules).Blind
  generalize 0 = i
  induction rules generalizing i with
  | nil => trivial
  | cons rule rest ih =>
    refine fun d m => ⟨fun _ => rfl, ?_⟩
    dsimp only
    split
    · exact blind_ask _ _ (ih _)
    · exact ih _

section Pestering

variable {M : Type}

/-- Makes those of some requests that are refused when their turn comes, and then goes on. -/
def Plan.pester (next : Plan M) : List Request → Plan M
  | [] => next
  | r :: rest => .look fun d _ => if d.refuses r then .ask r fun _ => pester next rest
    else pester next rest

/-- Which requests to try may depend on all that there is. -/
def Plan.bothered (bother : Duel → M → List Request) (next : Plan M) : Plan M :=
  .look fun d m => next.pester (bother d m)

/-- The same plan with refused requests at each of its points. -/
def Plan.pestered (bother : Duel → M → List Request) : Plan M → Plan M
  | .stop => bothered bother .stop
  | .look next => bothered bother (.look fun d m => (next d m).pestered bother)
  | .keep memory next => bothered bother (.keep memory (next.pestered bother))
  | .ask r next => bothered bother (.ask r fun reply => (next reply).pestered bother)

/-- The same listener, but for refused requests that it makes besides. -/
def Listener.pestered (bother : Duel → M → List Request) (l : Listener M) : Listener M :=
  ⟨fun n => (l.plan n).pestered bother, l.depth⟩

end Pestering

namespace Coordinator

variable {M : Type} {tell : Notification → Coordinator M → Coordinator M} {c c' : Coordinator M}

/-- The same memory, whatever is in the journals. -/
def recalling (M : Type) : Likeness M M where
  holds _ n _ m := m = n
  more := fun _ h => h

/-- What a refused request answers, and that nothing has changed but the journal. -/
theorem handle_refused {r : Request} (h : c.duel.refuses r = true) :
    ∃ journal, c.handle tell r = (.flag false, ⟨c.duel.under journal, c.memory⟩) := by
  have hanswers {x : Bool × Duel} (hx : c.duel.Answers r x) :
      ∃ journal, x = (false, c.duel.under journal) := by
    rcases hx with ⟨hnot, -⟩ | ⟨-, hleft⟩
    · exact absurd h (by simp [hnot])
    · exact hleft
  cases r with
  | setScript p script =>
    rcases c.duel.answers_setScript p script with ⟨hnot, -⟩ | ⟨-, journal, hs⟩
    · exact absurd h (by simp [hnot])
    · exact ⟨journal, by simp only [handle, onDuel, hs]⟩
  | beginEditing p =>
    obtain ⟨journal, hs⟩ := hanswers (c.duel.answers_beginEditing p)
    exact ⟨journal, by simp only [handle, onDuel, hs]⟩
  | endEditing p =>
    obtain ⟨journal, hs⟩ := hanswers (c.duel.answers_endEditing p)
    exact ⟨journal, by simp only [handle, onDuel, hs]⟩
  | execute p =>
    obtain ⟨journal, hs⟩ := hanswers (c.duel.answers_execute p)
    exact ⟨journal, by simp only [handle, onDuel, hs]⟩
  | _ => exact absurd h (by simp [Duel.refuses])

theorem Alike.refused (h : Alike (recalling M) c c') {r : Request}
    (hr : c'.duel.refuses r = true) : Alike (recalling M) c (c'.handle tell r).2 := by
  obtain ⟨journal, hhandled⟩ : ∃ journal, c'.handle tell r =
      (.flag false, ⟨c'.duel.under journal, c'.memory⟩) := handle_refused hr
  obtain ⟨journal', hduel, hmemory⟩ := h
  rw [hhandled]
  exact ⟨journal, by rw [hduel]; rfl, hmemory⟩

/-- Pestering comes to nothing. -/
theorem Alike.pester {x : Coordinator M} {next : Plan M}
    (hnext : ∀ c', Alike (recalling M) c c' →
      Alike (recalling M) x (next.perform (handle tell) c'))
    (h : Alike (recalling M) c c') (rs : List Request) :
    Alike (recalling M) x ((next.pester rs).perform (handle tell) c') := by
  induction rs generalizing c' with
  | nil => exact hnext c' h
  | cons r rest ih =>
    show Alike _ x (Plan.perform _ (if c'.duel.refuses r then _ else _) c')
    split
    · exact ih (h.refused ‹_›)
    · exact ih h

/-- A listener that is told the same plans the same, with refused requests or without. -/
theorem follows_pestered {l : Listener M} (hl : l.Blind) (bother : Duel → M → List Request) :
    Follows (recalling M) l.tell (l.pestered bother).tell := by
  have hdepth (depth : Nat) :
      Follows (recalling M) (l.tellAt depth) ((l.pestered bother).tellAt depth) := by
    induction depth with
    | zero => exact fun n c c' h => h.logEvent n
    | succ depth ih =>
      have hplan {plan : Plan M} (hb : plan.Blind) {c c' : Coordinator M}
          (h : Alike (recalling M) c c') : Alike (recalling M)
            (plan.perform (handle (l.tellAt depth)) c)
            ((plan.pestered bother).perform (handle ((l.pestered bother).tellAt depth)) c') := by
        induction plan generalizing c c' with
        | stop => exact Alike.pester (fun c' h => h) h _
        | look next ihnext =>
          refine Alike.pester (fun c' h => ?_) h _
          obtain ⟨journal, hduel, hmemory⟩ := h
          have hsame : next c'.duel c'.memory = next c.duel c.memory := by
            rw [hduel, hmemory, (hb c.duel c.memory).1]
          show Alike _ _ (((next c'.duel c'.memory).pestered bother).perform _ c')
          rw [hsame]
          exact ihnext _ _ (hb _ _).2 ⟨journal, hduel, hmemory⟩
        | keep m next ihnext =>
          refine Alike.pester (fun c' h => ?_) h _
          obtain ⟨journal, hduel, -⟩ := h
          exact ihnext hb ⟨journal, hduel, rfl⟩
        | ask r next ihnext =>
          refine Alike.pester (fun c' h => ?_) h _
          obtain ⟨reply, x, x', hx, hx', hafter⟩ := ih.handle h r
          show Alike _ ((next (c.handle _ r).1).perform _ (c.handle _ r).2)
            (((next (c'.handle _ r).1).pestered bother).perform _ (c'.handle _ r).2)
          rw [hx, hx']
          exact ihnext reply (hb reply) hafter
      exact fun n c c' h => hplan (hl n) (h.logEvent n)
  exact hdepth l.depth

/-- What may follow in a match: an episode, time that passes, or a wait for the end of a task. -/
inductive Sequel where
  | episode (e : Episode)
  | advance (seconds : Float)
  | wait (id : Nat)

/-- What a match becomes, with the reply if something was asked of it. -/
def proceed (l : Listener M) (c : Coordinator M) : Sequel → List Reply × Coordinator M
  | .episode (.happening (.request r)) =>
    let (reply, c) := c.request l r
    ([reply], c)
  | .episode e => ([], c.undergo l e)
  | .advance seconds => ([], c.advance l.tell seconds)
  | .wait id => ([], c.wait l.tell id)

/-- The same for one thing after the other. -/
def story (l : Listener M) (c : Coordinator M) : List Sequel → List Reply × Coordinator M
  | [] => ([], c)
  | s :: rest =>
    let (now, c) := c.proceed l s
    let (later, c) := c.story l rest
    (now ++ later, c)

theorem Follows.proceed {l l' : Listener M} (ht : Follows (recalling M) l.tell l'.tell)
    (h : Alike (recalling M) c c') (s : Sequel) :
    ∃ replies x x', c.proceed l s = (replies, x) ∧ c'.proceed l' s = (replies, x') ∧
      Alike (recalling M) x x' := by
  cases s with
  | episode e =>
    cases e with
    | happening x =>
      cases x with
      | request r =>
        obtain ⟨reply, x, x', hx, hx', hnext⟩ := ht.handle h r
        exact ⟨[reply], x, x', by simp only [Coordinator.proceed, request, hx],
          by simp only [Coordinator.proceed, request, hx'], hnext⟩
      | step => exact ⟨[], _, _, rfl, rfl, ht.happen h .step⟩
      | wake => exact ⟨[], _, _, rfl, rfl, ht.happen h .wake⟩
      | clock now => exact ⟨[], _, _, rfl, rfl, ht.happen h (.clock now)⟩
    | close => exact ⟨[], _, _, rfl, rfl, ht.close h⟩
  | advance seconds => exact ⟨[], _, _, rfl, rfl, ht.advance h seconds⟩
  | wait id => exact ⟨[], _, _, rfl, rfl, ht.wait h id⟩

theorem Follows.story {l l' : Listener M} (ht : Follows (recalling M) l.tell l'.tell)
    (h : Alike (recalling M) c c') (rest : List Sequel) :
    ∃ replies x x', c.story l rest = (replies, x) ∧ c'.story l' rest = (replies, x') ∧
      Alike (recalling M) x x' := by
  induction rest generalizing c c' with
  | nil => exact ⟨[], c, c', rfl, rfl, h⟩
  | cons s rest ih =>
    obtain ⟨now, x, x', hx, hx', hnext⟩ := ht.proceed h s
    obtain ⟨later, y, y', hy, hy', hlast⟩ := ih hnext
    exact ⟨now ++ later, y, y', by simp only [Coordinator.story, hx, hy],
      by simp only [Coordinator.story, hx', hy'], hlast⟩

theorem flag_true_iff {r : Request} {x : Bool × Duel} (hx : c.duel.Answers r x) :
    Reply.flag x.1 = .flag true ↔ c.duel.refuses r = false := by
  rcases hx with ⟨hnot, htrue⟩ | ⟨hrefused, journal, rfl⟩
  · simp [hnot, htrue]
  · simp [hrefused]

/-- A script that is text has a length, so its player is told that it was taken. -/
theorem flag_setScript (l : Listener M) (c : Coordinator M) (p : Player) (script : Json) :
    ((c.request l (.setScript p script)).1 ≠ .flag false ↔
      c.duel.refuses (.setScript p script) = false) ∧
    (script.length?.isSome → ((c.request l (.setScript p script)).1 = .flag true ↔
      c.duel.refuses (.setScript p script) = false)) := by
  dsimp only [request, handle, onDuel]
  rcases c.duel.answers_setScript p script with ⟨hnot, htaken⟩ | ⟨hrefused, journal, hleft⟩
  · rw [htaken]
    cases script.length? <;> simp [hnot]
  · simp [hleft, hrefused]

/-- What players ask for and are answered no is refused. -/
theorem refuses_of_reply {l : Listener M} {p : Player} {script : Json} {r : Request}
    (hr : r ∈ [Request.execute p, .setScript p script, .beginEditing p, .endEditing p])
    (hreply : (c.request l r).1 = .flag false) : c.duel.refuses r = true := by
  have hno {x : Bool × Duel} (hx : c.duel.Answers r x) (hx' : Reply.flag x.1 = .flag false) :
      c.duel.refuses r = true := by
    simpa [hx'] using flag_true_iff hx
  simp only [List.mem_cons, List.not_mem_nil, or_false] at hr
  obtain rfl | rfl | rfl | rfl := hr
  · exact hno (c.duel.answers_execute p) hreply
  · simpa [hreply] using (flag_setScript l c p script).1
  · exact hno (c.duel.answers_beginEditing p) hreply
  · exact hno (c.duel.answers_endEditing p) hreply

/-- The player to move may run a script once the match has been started, and give another one, while
nothing runs and the match is on; edit focus is taken from idleness and given back to it. Any other
request of a player is refused, and the match goes on as if nobody had asked: the replies are the
same, and in the end nothing differs but the journal. The listener may be refused as often as
anybody wants while it is told of what happens. -/
theorem refused_unseen {l : Listener M} (hl : l.Blind) (c : Coordinator M) (p : Player) :
    ((c.request l (.execute p)).1 = .flag true ↔
      c.duel.started = true ∧ p = c.duel.current ∧
        (c.duel.phase = .idle ∨ c.duel.phase = .editing)) ∧
    (∀ script, (c.request l (.setScript p script)).1 ≠ .flag false ↔
      p = c.duel.current ∧ (c.duel.phase = .idle ∨ c.duel.phase = .editing)) ∧
    (∀ text, (c.request l (.setScript p (.text text))).1 = .flag true ↔
      p = c.duel.current ∧ (c.duel.phase = .idle ∨ c.duel.phase = .editing)) ∧
    ((c.request l (.beginEditing p)).1 = .flag true ↔
      p = c.duel.current ∧ c.duel.phase = .idle) ∧
    ((c.request l (.endEditing p)).1 = .flag true ↔
      p = c.duel.current ∧ c.duel.phase = .editing) ∧
    ∀ script, ∀ r ∈ [Request.execute p, .setScript p script, .beginEditing p, .endEditing p],
      (c.request l r).1 = .flag false →
      ∀ (bother : Duel → M → List Request) (rest : List Sequel), ∃ journal,
        (c.request l r).2.story (l.pestered bother) rest =
          ((c.story l rest).1,
            ⟨(c.story l rest).2.duel.under journal, (c.story l rest).2.memory⟩) := by
  refine ⟨(flag_true_iff (c.duel.answers_execute p)).trans Duel.refuses_execute,
    fun script => (flag_setScript l c p script).1.trans Duel.refuses_setScript,
    fun text => ((flag_setScript l c p (.text text)).2 rfl).trans Duel.refuses_setScript,
    (flag_true_iff (c.duel.answers_beginEditing p)).trans Duel.refuses_beginEditing,
    (flag_true_iff (c.duel.answers_endEditing p)).trans Duel.refuses_endEditing,
    fun script r hr hreply bother rest => ?_⟩
  have hsame : Alike (recalling M) c c := ⟨c.duel.journal, rfl, rfl⟩
  have hafter : Alike (recalling M) c (c.request l r).2 :=
    hsame.refused (refuses_of_reply hr hreply)
  obtain ⟨replies, x, x', hx, hx', journal, hduel, hmemory⟩ :=
    (follows_pestered hl bother).story hafter rest
  refine ⟨journal, ?_⟩
  rw [hx', hx, ← hduel, ← hmemory]

/-- A player who runs its script as soon as it is its turn, two times. -/
def eager : List StandingOrder := [⟨.turnChanged, some .a, 2, [.execute .a]⟩]

/-- The other player asks for everything it may not have, before the start and whenever the eager
player is about to do something; the match is played all the same. -/
theorem refused_unseen_eager :
    let c : Coordinator StandingOrder.Memory :=
      fresh openField {} ⟨.text "wait()", .text "wait()"⟩ (StandingOrder.memory eager)
    let l := StandingOrder.listener eager
    let rest := [.episode (.happening (.request .start)), .advance 3]
    let bother := fun (_ : Duel) (_ : StandingOrder.Memory) =>
      [Request.beginEditing .b, .setScript .b (.text "shoot()"), .execute .b]
    (c.request l (.beginEditing .a)).1 = .flag true ∧
      (c.request l (.execute .b)).1 = .flag false ∧
      ∃ journal, (c.request l (.execute .b)).2.story (l.pestered bother) rest =
        ((c.story l rest).1,
          ⟨(c.story l rest).2.duel.under journal, (c.story l rest).2.memory⟩) := by
  intro c l rest bother
  have hunseen := refused_unseen (StandingOrder.blind_listener eager) c
  refine ⟨(hunseen .a).2.2.2.1.mpr ⟨rfl, rfl⟩, rfl, ?_⟩
  exact (hunseen .b).2.2.2.2.2 .null (.execute .b) (by simp) rfl bother _

end Coordinator

end MazeDuel.Turn
