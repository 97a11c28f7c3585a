import MazeDuel.Proofs.Script.Readable
/-!
How long programs become. A block whose body has at most a thousand actions gives at most a thousand
itself; a longer body is given once. So a program has at most a thousand actions for each token that
stands for one, however its blocks are nested.
-/

namespace MazeDuel.Script

theorem copies_zero (size : Nat) : copies 0 size = 0 := by simp [copies]

/-- No block is run more often than it asks for. -/
theorem copies_le (count size : Nat) : copies count size ≤ count := by
  unfold copies
  split
  · exact Nat.le_refl count
  · rename_i hover
    have hcount : 0 < count := Nat.pos_of_ne_zero fun hzero => hover (by simp [hzero])
    have hsize : 0 < size := Nat.pos_of_ne_zero fun hzero => hover (by simp [hzero])
    have hfewer : 1000 / size ≤ count := by
      refine Nat.le_of_lt ((Nat.div_lt_iff_lt_mul hsize).mpr ?_)
      omega
    omega

/-- No more copies would fit. -/
theorem le_copies {count size n : Nat} (hn : n ≤ count) (hfit : n * size ≤ 1000) :
    n ≤ copies count size := by
  unfold copies
  split
  · exact hn
  · rename_i hover
    have hsize : 0 < size := Nat.pos_of_ne_zero fun hzero => hover (by simp [hzero])
    have hle : n ≤ 1000 / size := (Nat.le_div_iff_mul_le hsize).mpr hfit
    omega

/-- A body with at most a thousand actions is given so often that there are no more of them. -/
theorem copies_short (count : Nat) {size : Nat} (h : size ≤ 1000) :
    copies count size * size ≤ 1000 := by
  unfold copies
  split
  · assumption
  · rename_i hover
    have hpos : 0 < size := Nat.pos_of_ne_zero fun hzero => hover (by simp [hzero])
    have hsome : 1 ≤ 1000 / size := (Nat.one_le_div_iff hpos).mpr h
    rw [Nat.max_eq_right hsome]
    exact Nat.div_mul_le_self 1000 size

/-- A body with more than a thousand actions is given once, if at all. -/
theorem copies_long {count size : Nat} (hcount : 0 < count) (hlong : 1000 < size) :
    copies count size = 1 := by
  have hover : ¬ count * size ≤ 1000 := by
    have hle := Nat.le_mul_of_pos_left size hcount
    omega
  have hnone : 1000 / size = 0 := Nat.div_eq_of_lt hlong
  rw [copies, if_neg hover, hnone]
  rfl

theorem copies_mul_le (count size : Nat) : copies count size * size ≤ max 1000 size := by
  rcases Nat.lt_or_ge 1000 size with hlong | hshort
  · rcases Nat.eq_zero_or_pos count with rfl | hcount
    · simp [copies_zero]
    · rw [copies_long hcount hlong]
      omega
  · have hle := copies_short count hshort
    omega

/-- The copies keep to a thousand actions just if the body does, or is not to be run at all. -/
theorem copies_mul_le_iff (count size : Nat) :
    copies count size * size ≤ 1000 ↔ size ≤ 1000 ∨ count = 0 := by
  rcases Nat.lt_or_ge 1000 size with hlong | hshort
  · rcases Nat.eq_zero_or_pos count with rfl | hcount
    · simp [copies_zero]
    · rw [copies_long hcount hlong]
      omega
  · exact iff_of_true (copies_short count hshort) (.inl hshort)

theorem blocks_suffix (tokens : List Token) : (blocks tokens).1.2 <:+ tokens := by
  match tokens with
  | [] =>
    rewrite [blocks_nil]
    exact List.suffix_rfl
  | token :: rest =>
    by_cases hend : token = blockEnd
    · subst hend
      rw [blocks_closer]
      exact List.suffix_cons _ rest
    · have hrest := blocks_suffix rest
      cases hopen : isOpener token with
      | false =>
        rw [blocks_statement token rest hend hopen]
        exact hrest.trans (List.suffix_cons token rest)
      | true =>
        have hshort : (blocks rest).1.2.length ≤ rest.length := (blocks rest).2
        rw [blocks_opener token rest hend hopen]
        exact ((blocks_suffix (blocks rest).1.2).trans hrest).trans (List.suffix_cons token rest)
termination_by tokens.length

/-- What has been read of some tokens ends where those behind their blocks begin. -/
theorem drop_blocks (tokens : List Token) :
    tokens.drop (tokens.length - (blocks tokens).1.2.length) = (blocks tokens).1.2 :=
  (List.suffix_iff_eq_drop.mp (blocks_suffix tokens)).symm

/-- A sequence gives the actions of its blocks, and tells where they end. -/
theorem parseSequence_eq_ok {player : Player} {tokens : List Token} {actions : List Action}
    {read : Nat} :
    (parseSequence player tokens).value = .ok (actions, read) ↔
      (unrollAll player (blocks tokens).1.1).value = .ok actions ∧
        tokens.length - (blocks tokens).1.2.length = read := by
  have hvalue : (parseSequence player tokens).value =
      (unrollAll player (blocks tokens).1.1).value.map fun actions =>
        (actions, tokens.length - (blocks tokens).1.2.length) := rfl
  rw [hvalue]
  cases (unrollAll player (blocks tokens).1.1).value with
  | error fault => simp [Except.map]
  | ok found => simp [Except.map]

/-- What a block gives of its body: a number of copies. -/
structure Contribution (count : Nat) (body given : List Action) (n : Nat) : Prop where
  copies : given = (List.replicate n body).flatten
  few : n ≤ count
  /-- As many copies as fit into a thousand actions are given. -/
  many : ∀ m ≤ count, m * body.length ≤ 1000 → m ≤ n
  /-- They have no more than a thousand actions just if the body has no more, or is not to be run at
  all. -/
  bounded : given.length ≤ 1000 ↔ body.length ≤ 1000 ∨ count = 0
  once : 1000 < body.length → count ≠ 0 → given = body

theorem contribution_copies (count : Nat) (body : List Action) :
    Contribution count body (List.replicate (copies count body.length) body).flatten
      (copies count body.length) where
  copies := rfl
  few := copies_le count body.length
  many m := le_copies
  bounded := by
    have hlength : (List.replicate (copies count body.length) body).flatten.length =
        copies count body.length * body.length := by simp
    rw [hlength]
    exact copies_mul_le_iff count body.length
  once hlong hcount := by
    rw [copies_long (Nat.pos_of_ne_zero hcount) hlong]
    simp

theorem contribution_repeatBody {player : Player} {opener : Token} {count : Nat}
    {body given : List Action} (h : (repeatBody player opener count body).value = .ok given) :
    ∃ n, Contribution count body given n := by
  rw [(fits_repeatBody player opener count body).eq_of_ok h]
  exact ⟨_, contribution_copies count body⟩

/-- What a block gives stands before what the tokens behind it give: copies of what its body gives,
of which there may be more than a thousand only where the body itself has more. -/
theorem parseSequence_opener {player : Player} {opener : Token} {rest : List Token}
    {actions : List Action} {read : Nat} (hopener : isOpener opener = true)
    (h : (parseSequence player (opener :: rest)).value = .ok (actions, read)) :
    ∃ count body bodyRead given n more moreRead,
      (repeatCount opener).value = .ok count ∧
      (parseSequence player rest).value = .ok (body, bodyRead) ∧
      Contribution count body given n ∧
      (parseSequence player (rest.drop bodyRead)).value = .ok (more, moreRead) ∧
      actions = given ++ more := by
  have hend : opener ≠ blockEnd := by
    rintro rfl
    exact absurd hopener (by decide)
  obtain ⟨hall, -⟩ := parseSequence_eq_ok.mp h
  rw [blocks_opener opener rest hend hopener, value_unrollAll_cons] at hall
  obtain ⟨given, hgiven, hall⟩ := exists_ok_of_bind hall
  obtain ⟨more, hmore, hall⟩ := exists_ok_of_bind hall
  rw [value_unroll_repeated] at hgiven
  obtain ⟨count, hcount, hgiven⟩ := exists_ok_of_bind hgiven
  obtain ⟨body, hbody, hrepeat⟩ := exists_ok_of_bind hgiven
  obtain ⟨n, hcopies⟩ := contribution_repeatBody hrepeat
  have hbehind := drop_blocks rest
  refine ⟨count, body, _, given, n, more, _, hcount, parseSequence_eq_ok.mpr ⟨hbody, rfl⟩, hcopies,
    parseSequence_eq_ok.mpr ⟨?_, rfl⟩, (Except.ok.inj hall).symm⟩
  rw [hbehind]
  exact hmore

/-- The tokens of some statements are read to their end, and give what the statements mean. -/
theorem parseSequence_tokensOfAll {player : Player} {program : List Statement}
    (h : CountableAll player program) :
    (parseSequence player (tokensOfAll program)).value =
      .ok (meaningAll player program, (tokensOfAll program).length) := by
  have hblocks := blocks_tokensOfAll program []
  rw [blocks_nil, List.append_nil, List.append_nil] at hblocks
  refine parseSequence_eq_ok.mpr ⟨?_, ?_⟩
  · rw [hblocks]
    exact unrollAll_blocksOf player program h
  · rw [hblocks]
    rfl

theorem isName_waitWord : isName waitWord = true := by decide

def pause : Statement := .leaf ⟨waitWord, isName_waitWord⟩ none

theorem meaning_pause (player : Player) : meaningAll player [pause] = [⟨player, .wait⟩] := by
  cases player <;> rfl

/-- Some pauses and one more, all of it a number of times. -/
def waits (count inner : Count) : Statement := .repeated count [.repeated inner [pause], pause]

theorem meaningAll_waits (player : Player) (inner : Count) :
    meaningAll player [.repeated inner [pause], pause] =
      List.replicate (copies inner.value 1 + 1) ⟨player, .wait⟩ := by
  have hinner : (Statement.repeated inner [pause]).meaning player =
      List.replicate (copies inner.value 1) ⟨player, .wait⟩ := by
    rw [Statement.meaning, meaning_pause]
    simp
  rw [meaningAll, hinner, meaning_pause, List.replicate_succ']

theorem meaning_waits (player : Player) (count inner : Count) :
    (waits count inner).meaning player =
      List.replicate (copies count.value (copies inner.value 1 + 1) * (copies inner.value 1 + 1))
        ⟨player, .wait⟩ := by
  rw [waits, Statement.meaning, meaningAll_waits, List.length_replicate,
    List.flatten_replicate_replicate]

theorem countable_waits (player : Player) (count inner : Count) :
    (waits count inner).Countable player := by
  refine ⟨⟨⟨⟨trivial, trivial⟩, fun h => ?_⟩, trivial, trivial⟩, fun h => ?_⟩
  · rw [meaning_pause] at h
    cases h
  · rw [meaningAll_waits] at h
    cases h

def step : Statement := .leaf ⟨"MoveUp".toList, by decide⟩ none

/-- Of 400 times three pauses as many are given as fit into a thousand; the step comes behind them.
-/
theorem parseSequence_waits :
    let count : Count := ⟨['4', '0', '0'], by decide, by decide, by decide⟩
    let inner : Count := ⟨['2'], by decide, by decide, by decide⟩
    let behind := inner.opener :: waitWord :: blockEnd :: waitWord :: blockEnd :: ["MoveUp".toList]
    let actions := List.replicate 999 ⟨.a, .wait⟩ ++ [⟨.a, .move .up⟩]
    isOpener count.opener = true ∧
      (parseSequence .a (count.opener :: behind)).value = .ok (actions, 7) ∧
      ∃ times body bodyRead given n more moreRead,
        (repeatCount count.opener).value = .ok times ∧
        (parseSequence .a behind).value = .ok (body, bodyRead) ∧
        Contribution times body given n ∧
        (parseSequence .a (behind.drop bodyRead)).value = .ok (more, moreRead) ∧
        actions = given ++ more := by
  intro count inner behind actions
  have hopener : isOpener count.opener = true := isOpener_opener count
  have hcountable : CountableAll .a [waits count inner, step] :=
    ⟨countable_waits .a count inner, trivial, trivial⟩
  have hmeaning : meaningAll .a [waits count inner, step] = actions := by
    have hcopies : copies count.value (copies inner.value 1 + 1) * (copies inner.value 1 + 1) =
        999 := by decide
    rw [meaningAll, meaning_waits, hcopies]
    rfl
  have hparse : (parseSequence .a (count.opener :: behind)).value = .ok (actions, 7) := by
    have htokens := parseSequence_tokensOfAll hcountable
    rw [hmeaning] at htokens
    exact htokens
  exact ⟨hopener, hparse, parseSequence_opener hopener hparse⟩

/-- However it is laid out, a block of pauses gives its copies and nothing else. -/
theorem parse_waits (player : Player) (count inner : Count) {script : String}
    (h : LaidOut [waits count inner] script.toList) {n : Nat}
    (hn : copies count.value (copies inner.value 1 + 1) * (copies inner.value 1 + 1) = n) :
    (parse player script).value = .ok (List.replicate n ⟨player, .wait⟩) := by
  have hcountable : CountableAll player [waits count inner] :=
    ⟨countable_waits player count inner, trivial⟩
  rw [parse_laidOut player _ _ h hcountable, meaningAll, meaning_waits, hn, meaningAll,
    List.append_nil]

/-- A thousand pauses and one more are given as they are by a block that is run once. -/
theorem parse_overlong :
    let count : Count := ⟨['1'], by decide, by decide, by decide⟩
    let inner : Count := ⟨['1', '0', '0', '0'], by decide, by decide, by decide⟩
    let script := "Repeat(1)\x7bRepeat(1000)\x7bWait;\x7d;Wait;\x7d;"
    LaidOut [waits count inner] script.toList ∧
      (parse .a script).value = .ok (List.replicate 1001 ⟨.a, .wait⟩) := by
  intro count inner script
  have htext : script.toList = shownAll [waits count inner] := by decide
  have hlayout : LaidOut [waits count inner] script.toList := by
    rw [htext]
    exact laidOut_shownAll [waits count inner]
  exact ⟨hlayout, parse_waits .a count inner hlayout (by decide)⟩

mutual

/-- The statements in a block, however deep. -/
def Block.leaves : Block → List Token
  | .statement token => [token]
  | .repeated _ body => leavesOf body

def leavesOf : List Block → List Token
  | [] => []
  | block :: rest => block.leaves ++ leavesOf rest

end

/-- How many tokens stand for an action. -/
def effective (player : Player) (tokens : List Token) : Nat :=
  tokens.countP fun token => (resolve player token).value.isSome

theorem effective_append (player : Player) (tokens more : List Token) :
    effective player (tokens ++ more) = effective player tokens + effective player more :=
  List.countP_append

/-- The statements in some blocks come from the tokens of the blocks, each from one of its own. -/
theorem leavesOf_sublist (tokens : List Token) :
    (leavesOf (blocks tokens).1.1 ++ (blocks tokens).1.2).Sublist tokens := by
  match tokens with
  | [] =>
    rw [blocks_nil]
    exact .slnil
  | token :: rest =>
    by_cases hend : token = blockEnd
    · subst hend
      rw [blocks_closer]
      exact List.sublist_cons_self _ rest
    · have hrest := leavesOf_sublist rest
      cases hopen : isOpener token with
      | false =>
        rw [blocks_statement token rest hend hopen]
        exact hrest.cons_cons token
      | true =>
        have hshort : (blocks rest).1.2.length ≤ rest.length := (blocks rest).2
        have hbehind := leavesOf_sublist (blocks rest).1.2
        rw [blocks_opener token rest hend hopen, leavesOf, Block.leaves, List.append_assoc]
        exact ((hbehind.append_left _).trans hrest).cons token
termination_by tokens.length

mutual

/-- A block that gives anything has a statement that gives something, which is all that its thousand
actions need. -/
theorem length_actions_le (player : Player) : (block : Block) →
    (block.actions player).length ≤ 1000 * effective player block.leaves
  | .statement token => by
    cases h : (resolve player token).value <;> simp [Block.actions, Block.leaves, effective, h]
  | .repeated opener body => by
    have hbody := length_actionsOf_le player body
    have hcopies := copies_mul_le (times opener) (actionsOf player body).length
    have hlength : ((Block.repeated opener body).actions player).length =
        copies (times opener) (actionsOf player body).length * (actionsOf player body).length := by
      simp [Block.actions]
    rw [hlength, Block.leaves]
    rcases Nat.eq_zero_or_pos (actionsOf player body).length with hnone | hsome
    · simp [hnone]
    · omega

theorem length_actionsOf_le (player : Player) : (found : List Block) →
    (actionsOf player found).length ≤ 1000 * effective player (leavesOf found)
  | [] => Nat.zero_le _
  | block :: rest => by
    have hfirst := length_actions_le player block
    have hmore := length_actionsOf_le player rest
    rw [actionsOf, leavesOf, List.length_append, effective_append]
    omega

end

/-- A program has at most a thousand actions for each token that stands for one. -/
theorem parse_length_le {player : Player} {script : String} {actions : List Action}
    (h : (parse player script).value = .ok actions) :
    actions.length ≤ 1000 * effective player (tokens script.toList) := by
  have hvalue := value_parse player script none
  have hactions : actions = actionsOf player (blocksOfScript script) :=
    (fits_unrollAll player (blocksOfScript script)).eq_of_ok (hvalue.symm.trans h)
  have hsub : (leavesOf (blocksOfScript script)).Sublist (tokens script.toList) :=
    (List.sublist_append_left _ _).trans (leavesOf_sublist (tokens script.toList))
  have hcount : effective player (leavesOf (blocksOfScript script)) ≤
      effective player (tokens script.toList) := hsub.countP_le
  have hlength := length_actionsOf_le player (blocksOfScript script)
  rw [hactions]
  omega

/-- Two tokens stand for an action in blocks that ask for twenty-five million of them. -/
theorem parse_length_le_waits :
    let script := "Repeat(5000)\x7bRepeat(5000)\x7bWait;\x7d;Wait;\x7d;"
    (parse .b script).value = .ok (List.replicate 1001 ⟨.b, .wait⟩) ∧
      effective .b (tokens script.toList) = 2 ∧
      (List.replicate 1001 (⟨.b, .wait⟩ : Action)).length ≤
        1000 * effective .b (tokens script.toList) := by
  intro script
  let count : Count := ⟨['5', '0', '0', '0'], by decide, by decide, by decide⟩
  have htext : script.toList = shownAll [waits count count] := by decide
  have hlayout : LaidOut [waits count count] script.toList := by
    rw [htext]
    exact laidOut_shownAll [waits count count]
  have hparse := parse_waits .b count count hlayout (n := 1001) (by decide)
  have heffective : effective .b (tokens script.toList) = 2 := by
    rw [hlayout.tokens]
    decide
  exact ⟨hparse, heffective, parse_length_le hparse⟩

end MazeDuel.Script
