import MazeDuel.Proofs.Script.Arguments
import MazeDuel.Proofs.Script.Readable
/-!
Calls that are never closed. The last token of a script takes in all that follows an open
parenthesis, so it has more opening parentheses than closing ones. It gives no action unless it ends
in a closing parenthesis all the same: then it is taken for a call, and a shot that names the radar
is fired.
-/

namespace MazeDuel.Script

/-- Whether a token has more opening parentheses than closing ones. -/
def Unclosed (token : Token) : Prop := token.count closeParen < token.count openParen

instance (token : Token) : Decidable (Unclosed token) := inferInstanceAs (Decidable (_ < _))

/-- Whether a token begins and ends like a shot and has the radar among its words; its parentheses
need not match. -/
def EndsAsShot (token : Token) : Prop :=
  ∃ args, token = shootWord ++ openParen :: (args ++ [closeParen]) ∧ radarWord ∈ argumentWords args

theorem Unclosed.openParen_mem {token : Token} (h : Unclosed token) : openParen ∈ token :=
  List.count_pos_iff.mp (Nat.zero_lt_of_lt h)

theorem Unclosed.ne_blockEnd {token : Token} (h : Unclosed token) : token ≠ blockEnd := by
  rintro rfl
  exact absurd h (by decide)

/-- A token with an opening parenthesis and a closing one at its end is written as a call. -/
theorem exists_call {token : Token} (hopen : openParen ∈ token)
    (hlast : token.getLast? = some closeParen) :
    ∃ name args, token = name ++ openParen :: (args ++ [closeParen]) ∧ openParen ∉ name := by
  obtain ⟨name, inner, rfl, hname⟩ := List.eq_append_cons_of_mem hopen
  cases inner with
  | nil =>
    rw [List.getLast?_concat, Option.some.injEq] at hlast
    exact absurd hlast.symm closeParen_ne_openParen
  | cons c inner =>
    have hinner : (c :: inner).getLast? = some closeParen := by
      have hne : c :: inner ≠ [] := List.cons_ne_nil c inner
      rw [List.getLast?_eq_some_getLast hne]
      rw [List.getLast?_eq_some_getLast (by simp), List.getLast_append_of_ne_nil _ (by simp),
        List.getLast_cons hne] at hlast
      exact hlast
    obtain ⟨args, hargs⟩ := List.getLast?_eq_some_iff.mp hinner
    exact ⟨name, args, by rw [hargs], hname⟩

/-- An unclosed call has something between its first parenthesis and its last one. -/
theorem Unclosed.args_ne_nil {name args : Token} (hname : openParen ∉ name)
    (h : Unclosed (name ++ openParen :: (args ++ [closeParen]))) : args ≠ [] := by
  rintro rfl
  have hnone : name.count openParen = 0 := List.count_eq_zero.mpr hname
  have hone : [openParen, closeParen].count openParen = 1 ∧
      [openParen, closeParen].count closeParen = 1 := by decide
  rw [Unclosed, List.nil_append, List.count_append, List.count_append, hnone, hone.1, hone.2] at h
  omega

theorem value_resolve_unterminated (player : Player) {token : Token}
    (h : isUnterminated token = true) : (resolve player token).value = none := by
  unfold resolve
  rw [h]
  rfl

/-- An unclosed token stands for no action, unless it ends as a shot. -/
theorem Unclosed.value_resolve (player : Player) {token : Token} (h : Unclosed token)
    (hshot : ¬ EndsAsShot token) : (resolve player token).value = none := by
  by_cases hlast : token.getLast? = some closeParen
  · obtain ⟨name, args, rfl, hname⟩ := exists_call h.openParen_mem hlast
    rw [value_resolve_call player hname (h.args_ne_nil hname)]
    by_cases hshoot : name = shootWord
    · subst hshoot
      have hradar : radarWord ∉ argumentWords args := fun hmem => hshot ⟨args, rfl, hmem⟩
      rw [if_pos rfl, value_shotModifiers, if_neg hradar, Option.map_none]
    · rw [if_neg hshoot]
  · apply value_resolve_unterminated
    simp [isUnterminated, h.openParen_mem, hlast]

theorem EndsAsShot.value_resolve (player : Player) {token : Token} (h : EndsAsShot token) :
    ∃ modifiers, (resolve player token).value = some ⟨player, .shoot modifiers⟩ := by
  obtain ⟨args, rfl, hradar⟩ := h
  rw [value_resolve_shot player hradar, value_shotModifiers, if_pos hradar]
  exact ⟨_, rfl⟩

theorem count_of_all {p : Char → Bool} {text : Token} (h : text.all p = true) {c : Char}
    (hc : p c = false) : text.count c = 0 := by
  apply List.count_eq_zero.mpr
  intro hmem
  rw [List.all_eq_true.mp h c hmem] at hc
  cases hc

/-- Where the count of an opener is a plain number, its parentheses match. -/
theorem CountedBy.not_unclosed {opener digits : Token} (h : CountedBy opener digits) :
    ¬ Unclosed opener := by
  have hopen := count_of_all h.2.1 (c := openParen) (by decide)
  have hclose := count_of_all h.2.1 (c := closeParen) (by decide)
  obtain ⟨ending, rfl, hending, -⟩ := h.exists_ending
  simp only [Unclosed, List.count_append, hopen, hclose]
  rcases hending with rfl | rfl
  · decide
  · decide

/-- An unclosed token alone unrolls to nothing, be it a statement or the opener of a block. -/
theorem Unclosed.unroll_blocks (player : Player) {token : Token} (h : Unclosed token)
    (hshot : ¬ EndsAsShot token) :
    (blocks [token]).1.2 = [] ∧ (unrollAll player (blocks [token]).1.1).value = .ok [] := by
  by_cases hopener : isOpener token = true
  · have hcount : (repeatCount token).value = .ok 1 :=
      repeatCount_uncounted fun digits hcounted => hcounted.not_unclosed h
    have hnothing : (repeatBody player token 1 []).value = .ok [] := by
      rw [value_repeatBody]
      rfl
    have hblocks := blocks_opener token [] h.ne_blockEnd hopener
    rw [blocks_nil, blocks_nil] at hblocks
    have hunroll : ((Block.repeated token []).unroll player).value = .ok [] := by
      rw [value_unroll_repeated, hcount]
      exact hnothing
    rw [hblocks, value_unrollAll_cons, hunroll]
    exact ⟨rfl, rfl⟩
  · rw [blocks_statement token [] h.ne_blockEnd (by simpa using hopener), blocks_nil,
      value_unrollAll_cons, Block.unroll, Logged.value_map, h.value_resolve player hshot]
    exact ⟨rfl, rfl⟩

/-- Whether one more token behind some others makes no difference: they end at a closer before it,
or all of them go on to the end and unroll to the same. -/
def Spares (player : Player) (token : Token) (before : List Token) : Prop :=
  (∃ found behind, (blocks before).1 = (found, behind) ∧
      (blocks (before ++ [token])).1 = (found, behind ++ [token])) ∨
    (blocks before).1.2 = [] ∧ (blocks (before ++ [token])).1.2 = [] ∧
      (unrollAll player (blocks (before ++ [token])).1.1).value =
        (unrollAll player (blocks before).1.1).value

theorem spares_statement {player : Player} {token first : Token} {rest : List Token}
    (hend : first ≠ blockEnd) (hopen : isOpener first = false) (h : Spares player token rest) :
    Spares player token (first :: rest) := by
  have hbefore := blocks_statement first rest hend hopen
  have hafter := blocks_statement first (rest ++ [token]) hend hopen
  unfold Spares
  rw [List.cons_append, hbefore, hafter]
  rcases h with ⟨found, behind, hrest, hmore⟩ | ⟨hrest, hmore, hvalue⟩
  · rw [hrest, hmore]
    exact .inl ⟨_, _, rfl, rfl⟩
  · refine .inr ⟨hrest, hmore, ?_⟩
    rw [value_unrollAll_cons, value_unrollAll_cons, hvalue]

/-- The token may stand behind the closer of the block, or in a block that is never closed. -/
theorem spares_opener {player : Player} {token first : Token} {rest : List Token}
    (hend : first ≠ blockEnd) (hopen : isOpener first = true) (h : Spares player token rest)
    (hbehind : Spares player token (blocks rest).1.2) : Spares player token (first :: rest) := by
  have hbefore := blocks_opener first rest hend hopen
  have hafter := blocks_opener first (rest ++ [token]) hend hopen
  unfold Spares
  rw [List.cons_append, hbefore, hafter]
  rcases h with ⟨body, behind, hrest, hmore⟩ | ⟨hrest, hmore, hvalue⟩
  · rw [hrest] at hbehind
    rw [hrest, hmore]
    rcases hbehind with ⟨found, after, hfirst, hlater⟩ | ⟨hfirst, hlater, hvalue⟩
    · rw [hfirst, hlater]
      exact .inl ⟨_, _, rfl, rfl⟩
    · refine .inr ⟨hfirst, hlater, ?_⟩
      rw [value_unrollAll_cons, value_unrollAll_cons, hvalue]
  · rw [hrest, hmore, blocks_nil]
    refine .inr ⟨rfl, rfl, ?_⟩
    rw [value_unrollAll_cons, value_unrollAll_cons, value_unroll_repeated, value_unroll_repeated,
      hvalue]

theorem spares_of_silent {player : Player} {token : Token} (hend : (blocks [token]).1.2 = [])
    (hsilent : (unrollAll player (blocks [token]).1.1).value = .ok []) :
    (before : List Token) → Spares player token before
  | [] => by
    rw [Spares, List.nil_append, blocks_nil]
    exact .inr ⟨rfl, hend, hsilent⟩
  | first :: rest => by
    by_cases hclose : first = blockEnd
    · subst hclose
      exact .inl ⟨[], rest, blocks_closer rest, blocks_closer (rest ++ [token])⟩
    · have hrest := spares_of_silent hend hsilent rest
      cases hopen : isOpener first with
      | false => exact spares_statement hclose hopen hrest
      | true =>
        have hshort : (blocks rest).1.2.length ≤ rest.length := (blocks rest).2
        exact spares_opener hclose hopen hrest (spares_of_silent hend hsilent (blocks rest).1.2)
termination_by before => before.length
decreasing_by
  · simp
  · simp only [List.length_cons]
    omega

/-- Without its unclosed last token a script gives just the same, unless this token ends as a shot:
then it stands for one. -/
theorem parse_unclosed (player : Player) (script : String) (before : List Token) (last : Token)
    (htokens : tokens script.toList = before ++ [last]) (hlast : Unclosed last) :
    (¬ EndsAsShot last →
      (parse player script).value = (parseTokens player before).value) ∧
    (EndsAsShot last →
      ∃ modifiers, (resolve player last).value = some ⟨player, .shoot modifiers⟩) := by
  refine ⟨fun hshot => ?_, EndsAsShot.value_resolve player⟩
  obtain ⟨hend, hsilent⟩ := hlast.unroll_blocks player hshot
  show (parseTokens player (tokens script.toList)).value = _
  rw [htokens, value_parseTokens, value_parseTokens]
  rcases spares_of_silent hend hsilent before with ⟨found, behind, hbefore, hafter⟩ | ⟨-, -, hvalue⟩
  · rw [hbefore, hafter]
  · exact hvalue

/-- A shot at something that is never named, in a block that is never closed either. -/
theorem parse_unclosed_block :
    tokens "Repeat(2)\x7bWait;Shoot(MoveUp(;Radar".toList =
      ["Repeat(2)\x7b".toList, waitWord] ++ ["Shoot(MoveUp(;Radar".toList] ∧
    Unclosed "Shoot(MoveUp(;Radar".toList ∧ ¬ EndsAsShot "Shoot(MoveUp(;Radar".toList ∧
    (parse .a "Repeat(2)\x7bWait;Shoot(MoveUp(;Radar").value = .ok [⟨.a, .wait⟩, ⟨.a, .wait⟩] := by
  have htokens : tokens "Repeat(2)\x7bWait;Shoot(MoveUp(;Radar".toList =
      ["Repeat(2)\x7b".toList, waitWord] ++ ["Shoot(MoveUp(;Radar".toList] := by decide +kernel
  have hunclosed : Unclosed "Shoot(MoveUp(;Radar".toList := by decide
  have hshot : ¬ EndsAsShot "Shoot(MoveUp(;Radar".toList := by
    rintro ⟨args, h, -⟩
    have hlast := congrArg List.getLast? h
    rw [← List.cons_append, ← List.append_assoc, List.getLast?_concat] at hlast
    exact absurd hlast (by decide)
  have hblocks : (blocks ["Repeat(2)\x7b".toList, waitWord]).1 =
      ([.repeated "Repeat(2)\x7b".toList [.statement waitWord]], []) := by
    rw [blocks_opener _ _ (by decide) (by decide), blocks_statement _ _ (by decide) (by decide),
      blocks_nil, blocks_nil]
  refine ⟨htokens, hunclosed, hshot, ?_⟩
  rw [(parse_unclosed .a _ _ _ htokens hunclosed).1 hshot, value_parseTokens, hblocks]
  rfl

/-- A shot that is never closed is fired where the last parenthesis inside it stands at its end. -/
theorem parse_unclosed_shot :
    tokens "Shoot(Radar;()".toList = [] ++ ["Shoot(Radar;()".toList] ∧
    Unclosed "Shoot(Radar;()".toList ∧
    (parse .a "Shoot(Radar;()").value = .ok [⟨.a, .shoot []⟩] ∧
    (parseTokens .a []).value = .ok [] := by
  have htokens : tokens "Shoot(Radar;()".toList = ["Shoot(Radar;()".toList] := by decide +kernel
  have hblocks : (blocks ["Shoot(Radar;()".toList]).1 =
      ([.statement "Shoot(Radar;()".toList], []) := by
    rw [blocks_statement _ _ (by decide) (by decide), blocks_nil]
  refine ⟨htokens, by decide, ?_, ?_⟩
  · show (parseTokens .a (tokens "Shoot(Radar;()".toList)).value = _
    rw [htokens, value_parseTokens, hblocks]
    rfl
  · rw [value_parseTokens, blocks_nil]
    rfl

end MazeDuel.Script
