import MazeDuel.Proofs.Script.Growth
/-!
Where a sequence of tokens ends. An opener leads one block deeper and a closer leads out of it, so a
sequence is read up to the first closer that closes no block, or to the end. What comes behind is
not looked at.
-/

namespace MazeDuel.Script

/-- How many more blocks some tokens open than they close. -/
def depth (tokens : List Token) : Int := tokens.countP isOpener - tokens.count blockEnd

/-- Whether the first closer that closes no block stands at a place. -/
structure FirstStray (tokens : List Token) (place : Nat) : Prop where
  closer : tokens[place]? = some blockEnd
  inside : ∀ m ≤ place, 0 ≤ depth (tokens.take m)
  beyond : depth (tokens.take (place + 1)) < 0

@[simp] theorem depth_nil : depth [] = 0 := rfl

theorem depth_append (tokens more : List Token) :
    depth (tokens ++ more) = depth tokens + depth more := by
  simp only [depth, List.countP_append, List.count_append]
  omega

theorem depth_cons (token : Token) (rest : List Token) :
    depth (token :: rest) = depth [token] + depth rest :=
  depth_append [token] rest

theorem depth_blockEnd : depth [blockEnd] = -1 := by decide

theorem depth_opener {token : Token} (hend : token ≠ blockEnd) (hopen : isOpener token = true) :
    depth [token] = 1 := by
  simp [depth, hopen, hend]

theorem depth_statement {token : Token} (hend : token ≠ blockEnd)
    (hopen : isOpener token = false) : depth [token] = 0 := by
  simp [depth, hopen, hend]

/-- Whether some tokens, when `level` blocks are open before them, nowhere close more. -/
def Above (level : Int) (tokens : List Token) : Prop :=
  ∀ part, part <+: tokens → 0 ≤ level + depth part

theorem above_nil {level : Int} : Above level [] ↔ 0 ≤ level := by
  constructor
  · intro h
    simpa using h [] List.prefix_rfl
  · intro h part hpart
    rw [List.prefix_nil.mp hpart, depth_nil]
    omega

theorem above_cons {level : Int} {token : Token} {rest : List Token} :
    Above level (token :: rest) ↔ 0 ≤ level ∧ Above (level + depth [token]) rest := by
  constructor
  · intro h
    refine ⟨by simpa using h [] List.nil_prefix, fun part hpart => ?_⟩
    have hlonger := h (token :: part) (List.prefix_cons_inj token |>.mpr hpart)
    rw [depth_cons] at hlonger
    omega
  · rintro ⟨hlevel, hrest⟩ part hpart
    obtain rfl | ⟨more, rfl, hmore⟩ := List.prefix_cons_iff.mp hpart
    · simpa using hlevel
    · have hshorter := hrest more hmore
      rw [depth_cons]
      omega

theorem above_append {level : Int} {tokens more : List Token} :
    Above level (tokens ++ more) ↔ Above level tokens ∧ Above (level + depth tokens) more := by
  induction tokens generalizing level with
  | nil =>
    rw [List.nil_append, depth_nil, Int.add_zero, above_nil, iff_and_self]
    exact fun h => by simpa using h [] List.nil_prefix
  | cons token tokens ih =>
    rw [List.cons_append, above_cons, above_cons, ih, depth_cons token tokens, and_assoc,
      Int.add_assoc]

theorem Above.mono {level level' : Int} {tokens : List Token} (h : Above level tokens)
    (hle : level ≤ level') : Above level' tokens := by
  intro part hpart
  have hbefore := h part hpart
  omega

/-- Tokens that close all blocks which they open and no others: at a closer behind them their blocks
end, whatever follows. -/
structure Levelled (read : List Token) (found : List Block) : Prop where
  level : depth read = 0
  above : Above 0 read
  ends : ∀ behind, (blocks (read ++ blockEnd :: behind)).1 = (found, behind)

theorem levelled_nil : Levelled [] [] where
  level := rfl
  above := above_nil.mpr (Int.le_refl 0)
  ends := blocks_closer

theorem Levelled.statement {read : List Token} {found : List Block} (h : Levelled read found)
    {token : Token} (hend : token ≠ blockEnd) (hopen : isOpener token = false) :
    Levelled (token :: read) (.statement token :: found) where
  level := by rw [depth_cons, depth_statement hend hopen, h.level, Int.add_zero]
  above := by
    rw [above_cons, depth_statement hend hopen]
    exact ⟨Int.le_refl 0, h.above⟩
  ends behind := by rw [List.cons_append, blocks_statement _ _ hend hopen, h.ends]

theorem Levelled.block {read more : List Token} {body found : List Block} (h : Levelled read body)
    (hmore : Levelled more found) {token : Token} (hend : token ≠ blockEnd)
    (hopen : isOpener token = true) :
    Levelled (token :: (read ++ blockEnd :: more)) (.repeated token body :: found) where
  level := by
    rw [depth_cons, depth_append, depth_cons blockEnd, depth_opener hend hopen, depth_blockEnd,
      h.level, hmore.level]
    rfl
  above := by
    rw [above_cons, above_append, above_cons, depth_opener hend hopen, depth_blockEnd, h.level]
    exact ⟨Int.le_refl 0, h.above.mono (by decide), by decide, hmore.above⟩
  ends behind := by
    rw [List.cons_append, List.append_assoc, List.cons_append, blocks_opener _ _ hend hopen,
      h.ends, hmore.ends]

/-- The blocks of some tokens end at a closer that closes none of them, or with the last token. -/
theorem blocks_end (tokens : List Token) :
    (∃ read, tokens = read ++ blockEnd :: (blocks tokens).1.2 ∧ Levelled read (blocks tokens).1.1) ∨
      (blocks tokens).1.2 = [] ∧ Above 0 tokens := by
  match tokens with
  | [] =>
    rewrite [blocks_nil]
    exact .inr ⟨rfl, above_nil.mpr (Int.le_refl 0)⟩
  | token :: rest =>
    by_cases hend : token = blockEnd
    · subst hend
      rw [blocks_closer]
      exact .inl ⟨[], rfl, levelled_nil⟩
    · have hrest := blocks_end rest
      cases hopen : isOpener token with
      | false =>
        rw [blocks_statement token rest hend hopen, above_cons, depth_statement hend hopen]
        rcases hrest with ⟨read, hread, hlevelled⟩ | ⟨hnone, habove⟩
        · exact .inl ⟨token :: read, congrArg (token :: ·) hread, hlevelled.statement hend hopen⟩
        · exact .inr ⟨hnone, Int.le_refl 0, habove⟩
      | true =>
        have hshort : (blocks rest).1.2.length ≤ rest.length := (blocks rest).2
        rw [blocks_opener token rest hend hopen, above_cons, depth_opener hend hopen]
        rcases hrest with ⟨read, hread, hlevelled⟩ | ⟨hnone, habove⟩
        · -- the block is closed, and behind its closer the sequence goes on
          rcases blocks_end (blocks rest).1.2 with ⟨more, hmore, hlevelled'⟩ | ⟨hnone, habove⟩
          · refine .inl ⟨token :: (read ++ blockEnd :: more), ?_,
              hlevelled.block hlevelled' hend hopen⟩
            rw [List.cons_append, List.append_assoc, List.cons_append, ← hmore, ← hread]
          · refine .inr ⟨hnone, Int.le_refl 0, ?_⟩
            rw [hread, above_append, above_cons, hlevelled.level, depth_blockEnd]
            exact ⟨hlevelled.above.mono (by decide), by decide, habove⟩
        · rw [hnone, blocks_nil]
          exact .inr ⟨rfl, Int.le_refl 0, habove.mono (by decide)⟩
termination_by tokens.length

theorem Levelled.firstStray {read : List Token} {found : List Block} (h : Levelled read found)
    (behind : List Token) : FirstStray (read ++ blockEnd :: behind) read.length where
  closer := by simp
  inside m hm := by
    have hpart := h.above (read.take m) (List.take_prefix m read)
    rw [List.take_append_of_le_length hm]
    omega
  beyond := by
    have htake : (read ++ blockEnd :: behind).take (read.length + 1) = read ++ [blockEnd] := by
      rw [List.take_length_add_append]
      rfl
    rw [htake, depth_append, h.level, depth_blockEnd]
    decide

theorem Above.no_stray {tokens : List Token} (h : Above 0 tokens) (place : Nat) :
    ¬ FirstStray tokens place := by
  intro hstray
  have hpart := h _ (List.take_prefix (place + 1) tokens)
  have hbeyond := hstray.beyond
  omega

/-- A sequence is read up to its first stray closer, or to the end, and what has been read gives the
same actions alone. -/
theorem parseSequence_end {player : Player} {tokens : List Token} {actions : List Action}
    {read : Nat} (h : (parseSequence player tokens).value = .ok (actions, read)) :
    ((∃ place, FirstStray tokens place ∧ read = place + 1) ∨
        (∀ place, ¬ FirstStray tokens place) ∧ read = tokens.length) ∧
      (parseSequence player (tokens.take read)).value = .ok (actions, read) := by
  obtain ⟨hunroll, hread⟩ := parseSequence_eq_ok.mp h
  rcases blocks_end tokens with ⟨before, htokens, hlevelled⟩ | ⟨hnone, habove⟩
  · have hlength : read = before.length + 1 := by
      have hwhole := congrArg List.length htokens
      simp only [List.length_append, List.length_cons] at hwhole
      omega
    have htake : tokens.take read = before ++ [blockEnd] := by
      rw [htokens, hlength, List.take_length_add_append]
      rfl
    refine ⟨.inl ⟨before.length, ?_, hlength⟩, ?_⟩
    · rw [htokens]
      exact hlevelled.firstStray _
    · rw [htake, parseSequence_eq_ok, hlevelled.ends]
      refine ⟨hunroll, ?_⟩
      simp [hlength]
  · have hlength : read = tokens.length := by
      rw [hnone] at hread
      exact hread.symm
    refine ⟨.inr ⟨habove.no_stray, hlength⟩, ?_⟩
    rw [hlength, List.take_length, ← hlength]
    exact h

theorem length_tokensFrom {tokens ahead : List Token} {index : Int}
    (hindex : index ≤ tokens.length) (h : tokensFrom tokens index = .ok ahead) :
    index + ahead.length = tokens.length := by
  unfold tokensFrom at h
  split at h
  · cases h
    rw [List.length_drop]
    omega
  · split at h
    · cases h
    · cases h
      rw [List.length_append, List.length_drop]
      omega

theorem parseSequenceFrom_eq_ok {player : Player} {tokens : List Token} {index cursor : Int}
    {actions : List Action} :
    (parseSequenceFrom player tokens index).value = .ok (actions, cursor) ↔
      ∃ ahead read, tokensFrom tokens index = .ok ahead ∧
        (parseSequence player ahead).value = .ok (actions, read) ∧ cursor = index + read := by
  unfold parseSequenceFrom
  cases tokensFrom tokens index with
  | error fault =>
    constructor
    · nofun
    · rintro ⟨_, _, h, -⟩
      cases h
  | ok ahead =>
    simp only [Logged.value_map]
    cases hparse : (parseSequence player ahead).value with
    | error fault =>
      constructor
      · nofun
      · rintro ⟨_, _, h, hparse', -⟩
        cases h
        cases hparse.symm.trans hparse'
    | ok result =>
      constructor
      · intro h
        cases h
        exact ⟨ahead, result.2, rfl, hparse, rfl⟩
      · rintro ⟨_, _, h, hparse', rfl⟩
        cases h
        cases hparse.symm.trans hparse'
        rfl

/-- From an index on, a sequence is read up to the first closer that closes no block, and the cursor
is one past it, or to the end; the tokens that have been read give the same actions alone. With an
index that is not negative they are those from the index up to the cursor. -/
theorem parseSequenceFrom_cursor {player : Player} {tokens : List Token} {index cursor : Int}
    {actions : List Action} (hindex : index ≤ tokens.length)
    (h : (parseSequenceFrom player tokens index).value = .ok (actions, cursor)) :
    ∃ ahead, tokensFrom tokens index = .ok ahead ∧
      ((∃ place, FirstStray ahead place ∧ cursor = index + place + 1) ∨
        (∀ place, ¬ FirstStray ahead place) ∧ cursor = tokens.length) ∧
      (parseSequenceFrom player (ahead.take (cursor - index).toNat) 0).value =
        .ok (actions, cursor - index) ∧
      (0 ≤ index →
        ahead.take (cursor - index).toNat = (tokens.take cursor.toNat).drop index.toNat) := by
  obtain ⟨ahead, read, hahead, hparse, rfl⟩ := parseSequenceFrom_eq_ok.mp h
  have hlength := length_tokensFrom hindex hahead
  have hread : index + read - index = read := by omega
  obtain ⟨hend, halone⟩ := parseSequence_end hparse
  refine ⟨ahead, hahead, ?_, ?_, fun hnonneg => ?_⟩
  · rcases hend with ⟨place, hstray, rfl⟩ | ⟨hnone, rfl⟩
    · exact .inl ⟨place, hstray, by omega⟩
    · exact .inr ⟨hnone, hlength⟩
  · rw [hread, Int.toNat_natCast, parseSequenceFrom_eq_ok]
    exact ⟨ahead.take read, read, rfl, halone, by omega⟩
  · have hdrop : ahead = tokens.drop index.toNat := by
      rw [tokensFrom, if_pos hnonneg] at hahead
      exact (Except.ok.inj hahead).symm
    have hspan : (index + read - index).toNat = (index + read).toNat - index.toNat := by omega
    rw [hdrop, hspan, List.drop_take]

/-- Behind a step, a block of pauses and a closer too many, with a step behind it. -/
theorem parseSequenceFrom_past_step :
    let tokens := ["MoveUp".toList, "Repeat(2)\x7b".toList, waitWord, blockEnd, blockEnd, waitWord]
    (1 : Int) ≤ tokens.length ∧
      (parseSequenceFrom .a tokens 1).value = .ok ([⟨.a, .wait⟩, ⟨.a, .wait⟩], 5) ∧
      ∃ ahead, tokensFrom tokens 1 = .ok ahead ∧
        ((∃ place, FirstStray ahead place ∧ (5 : Int) = 1 + place + 1) ∨
          (∀ place, ¬ FirstStray ahead place) ∧ (5 : Int) = tokens.length) ∧
        (parseSequenceFrom .a (ahead.take (5 - 1 : Int).toNat) 0).value =
          .ok ([⟨.a, .wait⟩, ⟨.a, .wait⟩], 5 - 1) ∧
        ((0 : Int) ≤ 1 → ahead.take (5 - 1 : Int).toNat =
          (tokens.take (5 : Int).toNat).drop (1 : Int).toNat) := by
  intro tokens
  have hindex : (1 : Int) ≤ tokens.length := by decide
  have hblocks : (blocks (tokens.drop 1)).1 =
      ([.repeated "Repeat(2)\x7b".toList [.statement waitWord]], [waitWord]) := by
    show (blocks ("Repeat(2)\x7b".toList :: waitWord :: blockEnd :: blockEnd :: [waitWord])).1 = _
    rw [blocks_opener _ _ (by decide) (by decide), blocks_statement _ _ (by decide) (by decide),
      blocks_closer, blocks_closer]
  have hsequence : (parseSequence .a (tokens.drop 1)).value =
      .ok ([⟨.a, .wait⟩, ⟨.a, .wait⟩], 4) := by
    rw [parseSequence_eq_ok, hblocks]
    exact ⟨rfl, rfl⟩
  have hparse : (parseSequenceFrom .a tokens 1).value = .ok ([⟨.a, .wait⟩, ⟨.a, .wait⟩], 5) :=
    parseSequenceFrom_eq_ok.mpr ⟨_, 4, rfl, hsequence, by decide⟩
  exact ⟨hindex, hparse, parseSequenceFrom_cursor hindex hparse⟩

end MazeDuel.Script
