import MazeDuel.Proofs.Script.Layout
/-!
What a program means: a leaf gives the action that it stands for, if any, and a block repeats what
is inside it, less often where that would be too much. Parsing a script gives just the meaning of
the tree that it is a layout of.
-/

namespace MazeDuel.Script

def Count.value (count : Count) : Nat := Text.digitsValue count.digits

/-- How many copies a block gives of a body with `size` actions. -/
def copies (count size : Nat) : Nat :=
  if count * size ≤ 1000 then count else max 1 (1000 / size)

mutual

def Statement.meaning (player : Player) : Statement → List Action
  | .leaf name args => (resolve player (leafToken name args)).value.toList
  | .repeated count body =>
    (List.replicate (copies count.value (meaningAll player body).length)
      (meaningAll player body)).flatten

def meaningAll (player : Player) : List Statement → List Action
  | [] => []
  | s :: rest => s.meaning player ++ meaningAll player rest

end

mutual

/-- Whether a block without actions is nowhere repeated 2^63 times or more, which is beyond what can
be counted. -/
def Statement.Countable (player : Player) : Statement → Prop
  | .leaf _ _ => True
  | .repeated count body =>
    CountableAll player body ∧ (meaningAll player body = [] → count.value < 0x8000000000000000)

def CountableAll (player : Player) : List Statement → Prop
  | [] => True
  | s :: rest => s.Countable player ∧ CountableAll player rest

end

mutual

def Statement.block : Statement → Block
  | .leaf name args => .statement (leafToken name args)
  | .repeated count body => .repeated count.opener (blocksOf body)

def blocksOf : List Statement → List Block
  | [] => []
  | s :: rest => s.block :: blocksOf rest

end

theorem blocks_closer (rest : List Token) : (blocks (blockEnd :: rest)).1 = ([], rest) := by
  rw [blocks]
  simp

theorem blocks_statement (token : Token) (rest : List Token) (hend : token ≠ blockEnd)
    (hopen : isOpener token = false) :
    (blocks (token :: rest)).1 = (.statement token :: (blocks rest).1.1, (blocks rest).1.2) := by
  rw [blocks]
  simp [hend, hopen]

theorem blocks_opener (token : Token) (rest : List Token) (hend : token ≠ blockEnd)
    (hopen : isOpener token = true) :
    (blocks (token :: rest)).1 =
      (.repeated token (blocks rest).1.1 :: (blocks (blocks rest).1.2).1.1,
        (blocks (blocks rest).1.2).1.2) := by
  rw [blocks]
  simp [hend, hopen]

theorem leafToken_ne_blockEnd (name : Name) (args : Option Arguments) :
    leafToken name args ≠ blockEnd := by
  obtain ⟨c, rest, htext, hc⟩ := (Statement.leaf name args).written_shown.head
  have hbrace := ne_closeBrace_of_nameStart hc
  intro h
  rw [Statement.shown, h] at htext
  cases htext
  exact hbrace rfl

theorem isOpener_leafToken (name : Name) (args : Option Arguments) :
    isOpener (leafToken name args) = false := by
  have hlast : (leafToken name args).getLast? ≠ some openBrace := by
    cases args with
    | none =>
      intro h
      have hmem : openBrace ∈ name.text := List.mem_of_getLast? h
      have hchar := name.all_nameChar openBrace hmem
      exact absurd hchar (by decide)
    | some args =>
      have hclose : (name.text ++ openParen :: (args.text ++ [closeParen])).getLast? =
          some closeParen := by
        rw [← List.cons_append, ← List.append_assoc, List.getLast?_concat]
      rw [leafToken, hclose]
      decide
  simp [isOpener, hlast]

theorem isOpener_brace (inner : Token) :
    isOpener (repeatWord ++ openParen :: (inner ++ [closeParen, openBrace])) = true := by
  have hprefix : (repeatWord ++ [openParen]).isPrefixOf
      (repeatWord ++ openParen :: (inner ++ [closeParen, openBrace])) = true := by
    simp [repeatWord]
  have hlast : (repeatWord ++ openParen :: (inner ++ [closeParen, openBrace])).getLast? =
      some openBrace := by
    have hsplit : repeatWord ++ openParen :: (inner ++ [closeParen, openBrace]) =
        repeatWord ++ openParen :: (inner ++ [closeParen]) ++ [openBrace] := by simp
    rw [hsplit, List.getLast?_concat]
  simp [isOpener, hprefix, hlast]

theorem isOpener_opener (count : Count) : isOpener count.opener = true :=
  isOpener_brace count.digits

theorem opener_ne_blockEnd (count : Count) : count.opener ≠ blockEnd := by
  simp [Count.opener, repeatWord, blockEnd]

mutual

theorem blocks_tokens (s : Statement) (more : List Token) :
    (blocks (s.tokens ++ more)).1 = (s.block :: (blocks more).1.1, (blocks more).1.2) := by
  cases s with
  | leaf name args =>
    exact blocks_statement _ more (leafToken_ne_blockEnd name args) (isOpener_leafToken name args)
  | repeated count body =>
    have htokens : (Statement.repeated count body).tokens ++ more =
        count.opener :: (tokensOfAll body ++ blockEnd :: more) := by
      simp [Statement.tokens]
    have hinner := blocks_tokensOfAll body (blockEnd :: more)
    rw [blocks_closer, List.append_nil] at hinner
    rw [htokens, blocks_opener _ _ (opener_ne_blockEnd count) (isOpener_opener count), hinner]
    rfl

/-- Tokens of statements make their blocks, and the rest goes on as it would alone. -/
theorem blocks_tokensOfAll (program : List Statement) (more : List Token) :
    (blocks (tokensOfAll program ++ more)).1 =
      (blocksOf program ++ (blocks more).1.1, (blocks more).1.2) := by
  cases program with
  | nil => rfl
  | cons s rest =>
    rw [tokensOfAll, List.append_assoc, blocks_tokens s, blocks_tokensOfAll rest more]
    rfl

end

theorem repeatCount_opener (count : Count) :
    (repeatCount count.opener).value = .ok count.value := by
  have hprefix : (repeatWord ++ [openParen]).isPrefixOf count.opener = true := by
    simp [Count.opener, repeatWord]
  have hinner : count.opener.drop (repeatWord ++ [openParen]).length =
      count.digits ++ [closeParen, openBrace] := by
    simp [Count.opener, repeatWord]
  have htake : (count.digits ++ [closeParen, openBrace]).takeWhile isDigit = count.digits := by
    apply takeWhile_joint count.digital
    intro c hc
    cases hc
    decide
  have hending : (count.digits ++ [closeParen, openBrace]).drop count.digits.length =
      [closeParen, openBrace] := List.drop_left
  have hshort := Nat.not_lt.mpr count.short
  unfold isDigit at htake
  unfold repeatCount
  simp only [if_pos hprefix, hinner, htake, hending, if_neg hshort]
  simp [count.nonempty, Count.value]

theorem cappedCount_eq_copies (count size : Nat) (h : 0 < size) :
    cappedCount count size = copies count size := by
  unfold cappedCount copies maxUnrolled
  by_cases hfit : count * size ≤ 1000
  · have hnot : ¬ (0 < size ∧ 1000 < count * size) := by omega
    rw [if_neg hnot, if_pos hfit]
  · have hover : 0 < size ∧ 1000 < count * size := by omega
    rw [if_pos hover, if_neg hfit]

theorem repeatBody_copies (player : Player) (opener : Token) (count : Nat) (body : List Action)
    (h : body = [] → count < 0x8000000000000000) :
    (repeatBody player opener count body).value =
      .ok (List.replicate (copies count body.length) body).flatten := by
  rw [value_repeatBody]
  cases body with
  | nil =>
    have hcount : ¬ maxRepetitions < count := by
      have hlt := h rfl
      unfold maxRepetitions
      omega
    simp [hcount]
  | cons a rest =>
    have hcapped := cappedCount_eq_copies count (a :: rest).length (Nat.succ_pos rest.length)
    rw [← hcapped]
    rfl

/-- Blocks are unrolled one after the other, up to the first fault. -/
theorem value_unrollAll_cons (player : Player) (block : Block) (rest : List Block)
    (room : Option Nat) :
    (unrollAll player (block :: rest) room).value =
      (do return (← (block.unroll player room).value) ++
        (← (unrollAll player rest room).value)) := by
  simp only [unrollAll, Logged.value_bind]
  cases (block.unroll player room).value with
  | error fault => rfl
  | ok first =>
    simp only [Logged.value_bind]
    cases (unrollAll player rest room).value <;> rfl

/-- The count of a block is read before there has to be room for what is inside. -/
theorem value_unroll_within (player : Player) (opener : Token) (body : List Block)
    (room : Option Nat) : ((Block.repeated opener body).unroll player room).value =
      (do
        let count ← (repeatCount opener).value
        if room = some 0 then .error .nestedTooDeep
        else
          (repeatBody player opener count
            (← (unrollAll player body (room.map (· - 1))).value)).value) := by
  simp only [Block.unroll, Logged.value_bind]
  cases (repeatCount opener).value with
  | error fault => rfl
  | ok count =>
    show Logged.value (if room = some 0 then _ else _) = if room = some 0 then _ else _
    split
    · rfl
    · simp only [Logged.value_bind]
      cases (unrollAll player body (room.map (· - 1))).value <;> rfl

theorem value_unroll_repeated (player : Player) (opener : Token) (body : List Block) :
    ((Block.repeated opener body).unroll player).value =
      (do
        let count ← (repeatCount opener).value
        (repeatBody player opener count (← (unrollAll player body).value)).value) :=
  value_unroll_within player opener body none

mutual

theorem unroll_block (player : Player) (s : Statement) (h : s.Countable player) :
    (s.block.unroll player).value = .ok (s.meaning player) := by
  cases s with
  | leaf name args => rfl
  | repeated count body =>
    obtain ⟨hbody, hcount⟩ := h
    have hinner := unrollAll_blocksOf player body hbody
    have hrepeat := repeatBody_copies player count.opener count.value _ hcount
    rw [Statement.block, value_unroll_repeated, repeatCount_opener, hinner]
    exact hrepeat

theorem unrollAll_blocksOf (player : Player) (program : List Statement)
    (h : CountableAll player program) :
    (unrollAll player (blocksOf program)).value = .ok (meaningAll player program) := by
  cases program with
  | nil => rfl
  | cons s rest =>
    obtain ⟨hs, hrest⟩ := h
    have hfirst := unroll_block player s hs
    have hmore := unrollAll_blocksOf player rest hrest
    rw [blocksOf, value_unrollAll_cons, hfirst, hmore]
    rfl

end

theorem blocks_nil : (blocks []).1 = ([], []) := by
  rw [blocks]

/-- What comes of a list of tokens is what its blocks unroll to; how many tokens were left over is
only reported. -/
theorem value_parseTokens (player : Player) (tokens : List Token) (room : Option Nat) :
    (parseTokens player tokens room).value =
      (unrollAll player (blocks tokens).1.1 room).value := by
  have hsequence : (parseSequence player tokens room).value =
      (unrollAll player (blocks tokens).1.1 room).value.map fun actions =>
        (actions, tokens.length - (blocks tokens).1.2.length) := rfl
  rw [parseTokens, Logged.value_bind, hsequence]
  cases (unrollAll player (blocks tokens).1.1 room).value with
  | error fault => rfl
  | ok actions =>
    simp only [Except.map]
    split <;> rfl

/-- A script with the tokens of a tree unrolls as the blocks of the tree do. -/
theorem value_parse_of_tokens (player : Player) {program : List Statement} {script : String}
    (htokens : tokens script.toList = tokensOfAll program) (room : Option Nat) :
    (parse player script room).value = (unrollAll player (blocksOf program) room).value := by
  have hblocks := blocks_tokensOfAll program []
  rw [blocks_nil, List.append_nil, List.append_nil] at hblocks
  show (parseTokens player (tokens script.toList) room).value = _
  rw [value_parseTokens, htokens, hblocks]

/-- A script with the tokens of a tree has the meaning of the tree. -/
theorem parse_of_tokens (player : Player) (program : List Statement) (script : String)
    (htokens : tokens script.toList = tokensOfAll program)
    (hcount : CountableAll player program) :
    (parse player script).value = .ok (meaningAll player program) := by
  rw [value_parse_of_tokens player htokens, unrollAll_blocksOf player program hcount]

/-- However a program is laid out, parsing it gives its meaning. -/
theorem parse_laidOut (player : Player) (program : List Statement) (script : String)
    (hlayout : LaidOut program script.toList) (hcount : CountableAll player program) :
    (parse player script).value = .ok (meaningAll player program) :=
  parse_of_tokens player program script hlayout.tokens hcount

/-- One block with a step and a name that is no command, and a pause behind it. -/
def drill : List Statement :=
  [.repeated ⟨['2'], by decide, by decide, by decide⟩
    [.leaf ⟨['M', 'o', 'v', 'e', 'U', 'p'], by decide⟩ (some ⟨[], by decide, by decide⟩),
      .leaf ⟨['d', 'a', 'n', 'c', 'e'], by decide⟩ none],
    .leaf ⟨['W', 'a', 'i', 't'], by decide⟩ none]

def drillScript : String := " Repeat ( 2 )\n\x7b MoveUp\t( ); dance\x7d\t;Wait\n"

theorem laidOut_drill : LaidOut drill drillScript.toList := by
  refine ⟨[' '], _, by decide, ?_, rfl⟩
  exact .cons _ _ _ ['\t', ';'] _
    (.block _ _ [' '] [' ', '2', ' '] ['\n'] [' '] _ (by decide) (by decide) (by decide) (by decide)
      (.cons _ _ _ [';', ' '] _ (.call _ _ ['\t'] [' '] (by decide) (by decide)) (by decide)
        (by decide) (.cons _ _ _ [] [] (.name _) (by decide) (by decide) .nil)))
    (by decide) (by decide) (.cons _ _ _ ['\n'] [] (.name _) (by decide) (by decide) .nil)

theorem parse_drill : LaidOut drill drillScript.toList ∧ CountableAll .a drill ∧
    (parse .a drillScript).value =
      .ok [⟨.a, .move .up⟩, ⟨.a, .move .up⟩, ⟨.a, .wait⟩] := by
  have hcount : CountableAll .a drill :=
    ⟨⟨⟨trivial, trivial, trivial⟩, fun _ => by decide⟩, trivial, trivial⟩
  exact ⟨laidOut_drill, hcount, parse_laidOut .a drill drillScript laidOut_drill hcount⟩

end MazeDuel.Script
