import MazeDuel.Proofs.Script.Unrolling
/-!
Scripts that can be read. Every script stands for some actions: a count that is no plain number
counts as one, and whatever is no statement gives nothing. Reading fails all the same where a count
has more digits than are ever read, and where a block without actions is repeated too often to be
counted; it fails nowhere else.
-/

namespace MazeDuel.Script

/-- Whether the count of an opener is a plain number, written with some digits. A line break may
follow it. -/
def CountedBy (opener digits : Token) : Prop :=
  digits ≠ [] ∧ digits.all isDigit = true ∧
    (opener = repeatWord ++ openParen :: (digits ++ [closeParen, openBrace]) ∨
      opener = repeatWord ++ openParen :: (digits ++ [closeParen, openBrace, '\n']))

instance (opener digits : Token) : Decidable (CountedBy opener digits) :=
  inferInstanceAs (Decidable (_ ∧ _ ∧ (_ ∨ _)))

/-- The digits behind the parenthesis of an opener. -/
def leadingDigits (opener : Token) : Token :=
  (opener.drop (repeatWord ++ [openParen]).length).takeWhile isDigit

/-- How often a block is to be repeated: once, if its count is no plain number. -/
def times (opener : Token) : Nat :=
  if CountedBy opener (leadingDigits opener) then Text.digitsValue (leadingDigits opener) else 1

/-- Whether the count of an opener, if it is a plain number, has few enough digits to be read. -/
def Legible (opener : Token) : Prop := ∀ digits, CountedBy opener digits → digits.length ≤ 4300

/-- An opener with a plain count, taken apart. -/
theorem CountedBy.exists_ending {opener digits : Token} (h : CountedBy opener digits) :
    ∃ ending, opener = repeatWord ++ [openParen] ++ (digits ++ ending) ∧
      (ending = [closeParen, openBrace] ∨ ending = [closeParen, openBrace, '\n']) ∧
      (digits ++ ending).takeWhile isDigit = digits := by
  have hstop : ∀ c ∈ some closeParen, isDigit c = false := by
    intro c hc
    cases hc
    decide
  obtain ⟨-, hdigits, rfl | rfl⟩ := h
  · exact ⟨_, by simp, .inl rfl, takeWhile_joint hdigits hstop⟩
  · exact ⟨_, by simp, .inr rfl, takeWhile_joint hdigits hstop⟩

theorem CountedBy.leadingDigits_eq {opener digits : Token} (h : CountedBy opener digits) :
    leadingDigits opener = digits := by
  obtain ⟨ending, rfl, -, htake⟩ := h.exists_ending
  rw [leadingDigits, List.drop_left, htake]

theorem CountedBy.times_eq {opener digits : Token} (h : CountedBy opener digits) :
    times opener = Text.digitsValue digits := by
  rw [times, h.leadingDigits_eq, if_pos h]

theorem times_uncounted {opener : Token} (h : ∀ digits, ¬ CountedBy opener digits) :
    times opener = 1 := by
  rw [times, if_neg (h _)]

/-- A plain count is read unless it has too many digits. -/
theorem CountedBy.repeatCount {opener digits : Token} (h : CountedBy opener digits) :
    (repeatCount opener).value =
      if maxCountDigits < digits.length then .error .countTooLong
      else .ok (Text.digitsValue digits) := by
  obtain ⟨ending, rfl, hending, htake⟩ := h.exists_ending
  have hprefix : (repeatWord ++ [openParen]).isPrefixOf
      (repeatWord ++ [openParen] ++ (digits ++ ending)) = true :=
    List.isPrefixOf_iff_prefix.mpr (List.prefix_append _ _)
  have hplain : (!digits.isEmpty) = true ∧
      (ending = [closeParen, openBrace] ∨ ending = [closeParen, openBrace, '\n']) :=
    ⟨by simpa using h.1, hending⟩
  unfold isDigit at htake
  unfold Script.repeatCount
  simp only [if_pos hprefix, List.drop_left, htake, if_pos hplain]
  split <;> rfl

/-- Any other count is taken for one. -/
theorem repeatCount_uncounted {opener : Token} (h : ∀ digits, ¬ CountedBy opener digits) :
    (repeatCount opener).value = .ok 1 := by
  unfold repeatCount
  by_cases hprefix : (repeatWord ++ [openParen]).isPrefixOf opener = true
  · obtain ⟨inner, rfl⟩ := List.isPrefixOf_iff_prefix.mp hprefix
    simp only [if_pos hprefix, List.drop_left]
    split
    · rename_i hplain
      let digits := inner.takeWhile isDigit
      change (!digits.isEmpty) = true ∧ (inner.drop digits.length = [closeParen, openBrace] ∨
        inner.drop digits.length = [closeParen, openBrace, '\n']) at hplain
      have hinner : digits ++ inner.dropWhile isDigit = inner := List.takeWhile_append_dropWhile
      have hending : (digits ++ inner.dropWhile isDigit).drop digits.length =
          inner.dropWhile isDigit := List.drop_left
      rw [hinner] at hending
      rw [hending] at hplain
      refine absurd ⟨by simpa using hplain.1, List.all_takeWhile, ?_⟩ (h digits)
      rw [← hinner]
      rcases hplain.2 with hrest | hrest
      · exact .inl (by rw [hrest]; simp)
      · exact .inr (by rw [hrest]; simp)
    · rfl
  · simp only [if_neg hprefix]
    rfl

/-- Whether something comes out just if a condition holds, and one of two faults if not. -/
def Fits (readable : Prop) (a : α) (x : Except Fault α) : Prop :=
  readable ∧ x = .ok a ∨ ¬ readable ∧ (x = .error .countTooLong ∨ x = .error .countTooLarge)

theorem Fits.ok (a : α) : Fits True a (.ok a) := .inl ⟨trivial, rfl⟩

/-- Nothing else comes out. -/
theorem Fits.eq_of_ok {readable : Prop} {a b : α} {x : Except Fault α} (h : Fits readable a x)
    (hx : x = .ok b) : b = a := by
  rcases h with ⟨-, hvalue⟩ | ⟨-, hvalue | hvalue⟩
  · exact Except.ok.inj (hx.symm.trans hvalue)
  · cases hx.symm.trans hvalue
  · cases hx.symm.trans hvalue

/-- What is read in two steps comes out if both of them can be made. -/
theorem Fits.bind {first more : Prop} {a : α} {b : β} {x : Except Fault α}
    {f : α → Except Fault β} (hx : Fits first a x) (hf : Fits more b (f a)) :
    Fits (first ∧ more) b (x >>= f) := by
  rcases hx with ⟨hfirst, rfl⟩ | ⟨hfirst, rfl | rfl⟩
  · rcases hf with ⟨hmore, hvalue⟩ | ⟨hmore, hfault⟩
    · exact .inl ⟨⟨hfirst, hmore⟩, hvalue⟩
    · exact .inr ⟨fun h => hmore h.2, hfault⟩
  · exact .inr ⟨fun h => hfirst h.1, .inl rfl⟩
  · exact .inr ⟨fun h => hfirst h.1, .inr rfl⟩

/-- A count is read as it stands, or as one, unless it is too long. -/
theorem fits_repeatCount (opener : Token) :
    Fits (Legible opener) (times opener) (repeatCount opener).value := by
  by_cases hcounted : ∃ digits, CountedBy opener digits
  · obtain ⟨digits, hdigits⟩ := hcounted
    rw [hdigits.repeatCount, hdigits.times_eq]
    by_cases hlong : maxCountDigits < digits.length
    · rw [if_pos hlong]
      exact .inr ⟨fun h => Nat.not_lt.mpr (h digits hdigits) hlong, .inl rfl⟩
    · rw [if_neg hlong]
      refine .inl ⟨fun other hother => ?_, rfl⟩
      rw [← hother.leadingDigits_eq, hdigits.leadingDigits_eq]
      exact Nat.not_lt.mp hlong
  · have hnone : ∀ digits, ¬ CountedBy opener digits := fun digits h => hcounted ⟨digits, h⟩
    rw [repeatCount_uncounted hnone, times_uncounted hnone]
    exact .inl ⟨fun digits h => absurd h (hnone digits), rfl⟩

theorem fits_repeatBody (player : Player) (opener : Token) (count : Nat) (body : List Action) :
    Fits (body = [] → count < 0x8000000000000000)
      (List.replicate (copies count body.length) body).flatten
      (repeatBody player opener count body).value := by
  by_cases h : body = [] → count < 0x8000000000000000
  · exact .inl ⟨h, repeatBody_copies player opener count body h⟩
  · refine .inr ⟨h, .inr ?_⟩
    obtain ⟨rfl, hcount⟩ := Classical.not_imp.mp h
    have hmany : maxRepetitions < count := by
      unfold maxRepetitions
      omega
    rw [value_repeatBody, List.isEmpty_nil, if_pos rfl, if_pos hmany]

mutual

def Block.actions (player : Player) : Block → List Action
  | .statement token => (resolve player token).value.toList
  | .repeated opener body =>
    (List.replicate (copies (times opener) (actionsOf player body).length)
      (actionsOf player body)).flatten

def actionsOf (player : Player) : List Block → List Action
  | [] => []
  | block :: rest => block.actions player ++ actionsOf player rest

end

mutual

/-- Whether no count is too long to be read, and nothing without actions is repeated 2^63 times or
more. -/
def Block.Readable (player : Player) : Block → Prop
  | .statement _ => True
  | .repeated opener body =>
    Legible opener ∧ ReadableAll player body ∧
      (actionsOf player body = [] → times opener < 0x8000000000000000)

def ReadableAll (player : Player) : List Block → Prop
  | [] => True
  | block :: rest => block.Readable player ∧ ReadableAll player rest

end

mutual

theorem fits_unroll (player : Player) : (block : Block) →
    Fits (block.Readable player) (block.actions player) (block.unroll player).value
  | .statement token => .ok (resolve player token).value.toList
  | .repeated opener body => by
    have hcount := fits_repeatCount opener
    have hbody := fits_unrollAll player body
    have hrepeat := fits_repeatBody player opener (times opener) (actionsOf player body)
    rw [value_unroll_repeated]
    exact hcount.bind (hbody.bind hrepeat)

theorem fits_unrollAll (player : Player) : (blocks : List Block) →
    Fits (ReadableAll player blocks) (actionsOf player blocks) (unrollAll player blocks).value
  | [] => .ok []
  | block :: rest => by
    have hfirst := fits_unroll player block
    have hmore := fits_unrollAll player rest
    have hall : Fits (block.Readable player ∧ ReadableAll player rest ∧ True)
        (block.actions player ++ actionsOf player rest)
        (do return (← (block.unroll player).value) ++ (← (unrollAll player rest).value)) :=
      hfirst.bind (hmore.bind (.ok _))
    rw [and_true] at hall
    rw [value_unrollAll_cons]
    exact hall

end

mutual

/-- How many blocks stand inside each other. -/
def Block.nesting : Block → Nat
  | .statement _ => 0
  | .repeated _ body => nestingAll body + 1

def nestingAll : List Block → Nat
  | [] => 0
  | block :: rest => max block.nesting (nestingAll rest)

end

mutual

/-- With enough room it makes no difference that there is a bound. -/
theorem unroll_within (player : Player) : (block : Block) → {room : Nat} → block.nesting ≤ room →
    block.unroll player (some room) = block.unroll player
  | .statement _, _, _ => rfl
  | .repeated opener body, 0, h => absurd h (Nat.not_succ_le_zero _)
  | .repeated opener body, room + 1, h => by
    have hbody := unrollAll_within player body (Nat.le_of_succ_le_succ h)
    simp only [Block.unroll, Option.map_some, Option.map_none, Nat.add_sub_cancel, hbody,
      Option.some.injEq, Nat.succ_ne_zero, reduceCtorEq, if_false]

theorem unrollAll_within (player : Player) : (blocks : List Block) → {room : Nat} →
    nestingAll blocks ≤ room → unrollAll player blocks (some room) = unrollAll player blocks
  | [], _, _ => rfl
  | block :: rest, _, h => by
    obtain ⟨hfirst, hmore⟩ := Nat.max_le.mp h
    simp only [unrollAll, unroll_within player block hfirst, unrollAll_within player rest hmore]

end

mutual

/-- Without it nothing comes out. -/
theorem nesting_le_of_unroll (player : Player) : (block : Block) → {room : Nat} →
    {actions : List Action} → (block.unroll player (some room)).value = .ok actions →
      block.nesting ≤ room
  | .statement _, _, _, _ => Nat.zero_le _
  | .repeated opener body, room, actions, h => by
    rw [value_unroll_within] at h
    obtain ⟨count, -, h⟩ := exists_ok_of_bind h
    cases room with
    | zero => cases h
    | succ room =>
      rw [if_neg (by simp)] at h
      obtain ⟨inner, hinner, -⟩ := exists_ok_of_bind h
      exact Nat.succ_le_succ (nestingAll_le_of_unrollAll player body hinner)

theorem nestingAll_le_of_unrollAll (player : Player) : (blocks : List Block) → {room : Nat} →
    {actions : List Action} → (unrollAll player blocks (some room)).value = .ok actions →
      nestingAll blocks ≤ room
  | [], _, _, _ => Nat.zero_le _
  | block :: rest, _, _, h => by
    rw [value_unrollAll_cons] at h
    obtain ⟨first, hfirst, h⟩ := exists_ok_of_bind h
    obtain ⟨more, hmore, -⟩ := exists_ok_of_bind h
    exact Nat.max_le.mpr ⟨nesting_le_of_unroll player block hfirst,
      nestingAll_le_of_unrollAll player rest hmore⟩

end

/-- The blocks of a script, up to a closer too many. -/
def blocksOfScript (script : String) : List Block := (blocks (tokens script.toList)).1.1

theorem value_parse (player : Player) (script : String) (room : Option Nat) :
    (parse player script room).value = (unrollAll player (blocksOfScript script) room).value :=
  value_parseTokens player (tokens script.toList) room

/-- A script whose blocks stand deeper than there is room for is not read. -/
theorem parse_deep (player : Player) (script : String) {room : Nat}
    (h : room < nestingAll (blocksOfScript script)) :
    ∃ fault, (parse player script (some room)).value = .error fault := by
  cases hread : (parse player script (some room)).value with
  | error fault => exact ⟨fault, rfl⟩
  | ok actions =>
    rw [value_parse] at hread
    exact absurd (nestingAll_le_of_unrollAll player _ hread) (Nat.not_le.mpr h)

/-- A script with fewer than 200 blocks inside each other, where there is room for that many, gives
the actions of its blocks, in which every count that is no plain number is one, just if all its
counts are short enough to be read and nothing without actions is repeated 2^63 times or more;
otherwise one of two faults comes out. -/
theorem parse_readable (player : Player) (script : String)
    (hnest : nestingAll (blocksOfScript script) < 200) {room : Nat} (hroom : 200 ≤ room) :
    ReadableAll player (blocksOfScript script) ∧
        (parse player script (some room)).value =
          .ok (actionsOf player (blocksOfScript script)) ∨
      ¬ ReadableAll player (blocksOfScript script) ∧
        ((parse player script (some room)).value = .error .countTooLong ∨
          (parse player script (some room)).value = .error .countTooLarge) := by
  rw [value_parse, unrollAll_within player _ (Nat.le_trans (Nat.le_of_lt hnest) hroom)]
  exact fits_unrollAll player (blocksOfScript script)

/-- Two blocks, one inside the other, with a count that is no number. -/
theorem parse_readable_malformed :
    let script := "Repeat(2)\x7bRepeat(x)\x7bMoveUp();\x7d\x7d"
    nestingAll (blocksOfScript script) = 2 ∧ ReadableAll .a (blocksOfScript script) ∧
      (parse .a script (some 200)).value = .ok [⟨.a, .move .up⟩, ⟨.a, .move .up⟩] := by
  intro script
  have hnest : nestingAll (blocksOfScript script) = 2 := by decide +kernel
  have hactions : actionsOf .a (blocksOfScript script) = [⟨.a, .move .up⟩, ⟨.a, .move .up⟩] := by
    decide +kernel
  have hreads : (parse .a script (some 200)).value.toOption.isSome = true := by decide +kernel
  rcases parse_readable .a script (by omega) (Nat.le_refl 200) with
    ⟨hreadable, hread⟩ | ⟨-, hfault | hfault⟩
  · exact ⟨hnest, hreadable, hread.trans (congrArg Except.ok hactions)⟩
  · rw [hfault] at hreads
    cases hreads
  · rw [hfault] at hreads
    cases hreads

/-- A script that begins with a block of too many digits fails, whatever stands in it. -/
theorem parse_tooLong (player : Player) {digits : Token} (hdigits : digits.all isDigit = true)
    (hlong : 4300 < digits.length) (rest : List Char) (room : Option Nat) :
    (parse player (String.ofList
      (repeatWord ++ openParen :: (digits ++ closeParen :: openBrace :: rest))) room).value =
      .error .countTooLong := by
  let text := repeatWord ++ openParen :: (digits ++ closeParen :: openBrace :: rest)
  let opener := repeatWord ++ openParen :: (digits ++ [closeParen, openBrace])
  have hcompact : digits.filter notBlank = digits := by
    apply List.filter_eq_self.mpr
    exact fun c hc => digit_not_blank (List.all_eq_true.mp hdigits c hc)
  have htokens : tokens text = opener :: lexed text.length rest := by
    have hbalanced : isBalanced 0 (digits.filter notBlank) = true := by
      rw [hcompact]
      exact balanced_digits hdigits
    have hblank : [].all Text.isBlank = true := rfl
    have hgroup := lexed_group text.length ⟨repeatWord, by decide⟩ (openBrace :: rest) hblank
      hbalanced
    have hbrace := readBrace_repeat rest hblank
    rw [List.nil_append] at hbrace
    rw [hcompact, hbrace] at hgroup
    show lexed text.length text = _
    simpa [opener, text] using hgroup
  have hne : opener ≠ blockEnd := by simp [opener, repeatWord, blockEnd]
  have hcounted : CountedBy opener digits := by
    refine ⟨?_, hdigits, .inl rfl⟩
    rintro rfl
    exact absurd hlong (by decide)
  have hmany : maxCountDigits < digits.length := hlong
  have hcount : (repeatCount opener).value = .error .countTooLong := by
    rw [hcounted.repeatCount, if_pos hmany]
  show (parseTokens player (tokens (String.ofList text).toList) room).value = _
  rw [String.toList_ofList, htokens, value_parseTokens,
    blocks_opener opener _ hne (isOpener_brace digits), value_unrollAll_cons,
    value_unroll_within, hcount]
  rfl

/-- A script that begins with nothing, repeated 2^63 times or more, fails as well. -/
theorem parse_tooMany (player : Player) (count : Count) (h : 0x8000000000000000 ≤ count.value)
    (more : List Statement) (script : String)
    (hlayout : LaidOut (.repeated count [] :: more) script.toList) (room : Nat) :
    (parse player script (some (room + 1))).value = .error .countTooLarge := by
  have hmany : maxRepetitions < count.value := by
    unfold maxRepetitions
    omega
  have hrepeat : (repeatBody player count.opener count.value []).value =
      .error .countTooLarge := by
    rw [value_repeatBody, List.isEmpty_nil, if_pos rfl, if_pos hmany]
  have hunroll : ((Block.repeated count.opener []).unroll player (some (room + 1))).value =
      .error .countTooLarge := by
    rw [value_unroll_within, repeatCount_opener]
    exact hrepeat
  rw [value_parse_of_tokens player hlayout.tokens, blocksOf, value_unrollAll_cons]
  show ((Block.repeated count.opener []).unroll player (some (room + 1))).value >>= _ = _
  rw [hunroll]
  rfl

/-- Nothing, 2^63 times. -/
def countless : Statement :=
  .repeated ⟨"9223372036854775808".toList, by decide, by decide, by decide⟩ []

/-- A step that is to be made a number of times with too many digits, and nothing 2^63 times. -/
theorem parse_unreadable :
    (parse .a (String.ofList (repeatWord ++ openParen :: (List.replicate 4301 '9' ++
      closeParen :: openBrace :: ['W', 'a', 'i', 't', closeBrace]))) (some 200)).value =
        .error .countTooLong ∧
    (parse .a "Repeat(9223372036854775808)\x7b\x7d" (some 200)).value = .error .countTooLarge := by
  constructor
  · apply parse_tooLong
    · simp only [List.all_replicate]
      decide
    · rw [List.length_replicate]
      decide
  · have hlayout : LaidOut [countless] "Repeat(9223372036854775808)\x7b\x7d".toList :=
      ⟨[], _, rfl, .cons _ _ _ [] [] countless.written_shown rfl nofun .nil, by decide⟩
    exact parse_tooMany .a _ (by decide) [] _ hlayout 199

end MazeDuel.Script
