import Mathlib.Data.List.Induction
import MazeDuel.Proofs.Script.Scanner
import MazeDuel.Proofs.Script.Unclosed
/-!
The shape of tokens. A token is a closer, a name or a call, and a call to repeat may have the brace
of an opener at its end; only the last token of a script can be a call that is never closed. Tokens
have no blanks and nothing that is passed over, so they are a form of the script that no further
splitting changes.
-/

namespace MazeDuel.Script

/-- Whether a token has as many closing parentheses as opening ones. -/
def Matched (token : Token) : Prop := token.count closeParen = token.count openParen

instance (token : Token) : Decidable (Matched token) := inferInstanceAs (Decidable (_ = _))

/-- Parentheses with what is inside them, without blanks: they match at the end and not before. -/
structure IsGroup (group : Token) : Prop where
  head : group.head? = some openParen
  compact : group.all notBlank = true
  pending : ∀ part, part <+: group → part ≠ [] → part ≠ group → Unclosed part
  matched : Matched group

/-- A group that has no end: its parentheses match nowhere. -/
structure IsCutGroup (group : Token) : Prop where
  head : group.head? = some openParen
  compact : group.all notBlank = true
  pending : ∀ part, part <+: group → part ≠ [] → Unclosed part

inductive Shaped : Token → Prop
  | closer : Shaped blockEnd
  | name {word : Token} (hword : isName word = true) : Shaped word
  | call {word group : Token} (hword : isName word = true) (hgroup : IsGroup group) :
    Shaped (word ++ group)
  | opener {group : Token} (hgroup : IsGroup group) : Shaped (repeatWord ++ (group ++ [openBrace]))

inductive CutShort : Token → Prop
  | call {word group : Token} (hword : isName word = true) (hgroup : IsCutGroup group) :
    CutShort (word ++ group)

/-- The tokens that a script can have. -/
structure Canonical (tokens : List Token) : Prop where
  shaped : ∀ token ∈ tokens.dropLast, Shaped token
  last : ∀ token ∈ tokens.getLast?, Shaped token ∨ CutShort token

theorem count_name {word : Token} (h : isName word = true) {c : Char} (hc : isNameChar c = false) :
    word.count c = 0 :=
  count_of_all (List.all_eq_true.mpr (Name.all_nameChar ⟨word, h⟩)) hc

theorem count_word_append {word : Token} (h : isName word = true) (more : Token) {c : Char}
    (hc : isNameChar c = false) : (word ++ more).count c = more.count c := by
  rw [List.count_append, count_name h hc, Nat.zero_add]

/-- A name in front of a text has no part in its parentheses. -/
theorem matched_word_append {word : Token} (h : isName word = true) {more : Token} :
    Matched (word ++ more) ↔ Matched more := by
  rw [Matched, count_word_append h more (by decide), count_word_append h more (by decide), Matched]

theorem unclosed_word_append {word : Token} (h : isName word = true) {more : Token} :
    Unclosed (word ++ more) ↔ Unclosed more := by
  rw [Unclosed, count_word_append h more (by decide), count_word_append h more (by decide),
    Unclosed]

theorem Shaped.matched {token : Token} (h : Shaped token) : Matched token := by
  cases h with
  | closer => decide
  | name hword =>
    have hnothing : Matched (token ++ []) := (matched_word_append hword).mpr rfl
    rwa [List.append_nil] at hnothing
  | call hword hgroup => exact (matched_word_append hword).mpr hgroup.matched
  | opener hgroup =>
    have hbrace : [openBrace].count openParen = 0 ∧ [openBrace].count closeParen = 0 := by decide
    rw [matched_word_append (by decide), Matched, List.count_append, List.count_append, hbrace.1,
      hbrace.2]
    exact hgroup.matched

theorem IsCutGroup.unclosed {group : Token} (h : IsCutGroup group) : Unclosed group := by
  refine h.pending group List.prefix_rfl ?_
  rintro rfl
  exact absurd h.head nofun

theorem CutShort.unclosed {token : Token} (h : CutShort token) : Unclosed token := by
  cases h with
  | call hword hgroup => exact (unclosed_word_append hword).mpr hgroup.unclosed

theorem isCutGroup_openParen : IsCutGroup [openParen] where
  head := rfl
  compact := by decide
  pending part hpart hne := by
    obtain rfl | ⟨more, rfl, hmore⟩ := List.prefix_cons_iff.mp hpart
    · exact absurd rfl hne
    · rw [List.prefix_nil.mp hmore]
      decide

theorem compact_concat {group : Token} {c : Char} (h : group.all notBlank = true)
    (hc : ¬ Text.isBlank c = true) : (group ++ [c]).all notBlank = true := by
  simp [notBlank, hc, h]

theorem IsCutGroup.head_append {group : Token} (h : IsCutGroup group) (more : Token) :
    (group ++ more).head? = some openParen := by
  rw [List.head?_append, h.head]
  rfl

/-- A beginning of a group that is open throughout is one itself. -/
theorem isCutGroup_of_prefix {group : Token} (hhead : group.head? = some openParen)
    (hcompact : group.all notBlank = true) {start : Token} (hstart : start <+: group)
    (hne : start ≠ [])
    (hpending : ∀ part, part <+: start → part ≠ [] → Unclosed part) : IsCutGroup start where
  head := by
    obtain ⟨more, rfl⟩ := hstart
    cases start with
    | nil => exact absurd rfl hne
    | cons c start => exact hhead
  compact := by
    obtain ⟨more, rfl⟩ := hstart
    rw [List.all_append, Bool.and_eq_true] at hcompact
    exact hcompact.1
  pending := hpending

/-- A group goes on with any character that leaves parentheses open. -/
theorem IsCutGroup.push {group : Token} (h : IsCutGroup group) {c : Char}
    (hc : ¬ Text.isBlank c = true) (hopen : Unclosed (group ++ [c])) :
    IsCutGroup (group ++ [c]) where
  head := h.head_append [c]
  compact := compact_concat h.compact hc
  pending part hpart hne := by
    rcases List.prefix_concat_iff.mp hpart with rfl | hpart
    · exact hopen
    · exact h.pending part hpart hne

/-- A parenthesis that matches the first one ends the group. -/
theorem IsCutGroup.close {group : Token} (h : IsCutGroup group)
    (hclose : Matched (group ++ [closeParen])) : IsGroup (group ++ [closeParen]) where
  head := h.head_append [closeParen]
  compact := compact_concat h.compact (by decide)
  pending part hpart hne hpart' := by
    rcases List.prefix_concat_iff.mp hpart with hwhole | hpart
    · exact absurd hwhole hpart'
    · exact h.pending part hpart hne
  matched := hclose

theorem count_concat (group : Token) (c d : Char) :
    (group ++ [c]).count d = group.count d + if c = d then 1 else 0 := by
  rw [List.count_append, List.count_singleton]
  simp only [beq_iff_eq]

/-- Only a closing parenthesis can match what is open. -/
theorem matched_concat {group : Token} {c : Char} (h : Unclosed group)
    (hc : ¬ Unclosed (group ++ [c])) : c = closeParen ∧ Matched (group ++ [c]) := by
  have hopen := count_concat group c openParen
  have hclose := count_concat group c closeParen
  unfold Unclosed at h hc
  by_cases hparen : c = closeParen
  · rw [if_pos hparen] at hclose
    refine ⟨hparen, ?_⟩
    unfold Matched
    omega
  · rw [if_neg hparen] at hclose
    omega

/-- A group without its last parenthesis is open throughout. -/
theorem IsGroup.exists_inner {group : Token} (h : IsGroup group) :
    ∃ inner, group = openParen :: inner ++ [closeParen] ∧ IsCutGroup (openParen :: inner) := by
  obtain ⟨more, rfl⟩ := List.head?_eq_some_iff.mp h.head
  rcases List.eq_nil_or_concat more with rfl | ⟨inner, c, hmore⟩
  · exact absurd h.matched (by decide)
  · rw [List.concat_eq_append] at hmore
    subst hmore
    rw [← List.cons_append] at h ⊢
    have hshort : openParen :: inner <+: openParen :: inner ++ [c] := List.prefix_append _ _
    have hcut : IsCutGroup (openParen :: inner) := by
      refine isCutGroup_of_prefix h.head h.compact hshort (List.cons_ne_nil _ _) ?_
      intro part hpart hne
      refine h.pending part (hpart.trans hshort) hne ?_
      rintro rfl
      exact absurd hpart.length_le (by simp)
    have hmatched : ¬ Unclosed (openParen :: inner ++ [c]) := by
      have hwhole : Matched (openParen :: inner ++ [c]) := h.matched
      unfold Matched at hwhole
      unfold Unclosed
      omega
    obtain ⟨rfl, -⟩ := matched_concat hcut.unclosed hmatched
    exact ⟨inner, rfl, hcut⟩

namespace Mode

/-- How many parentheses of a call are open where a scanner stands in it. -/
def Deep (inner : Token) (depth : Nat) : Prop :=
  (openParen :: inner).count openParen = (openParen :: inner).count closeParen + depth

/-- The arguments go on as long as parentheses are open. -/
theorem next_more (word : Token) {inner : Token} {depth : Nat} (hdeep : Deep inner depth) {c : Char}
    (hc : ¬ Text.isBlank c = true) (h : Unclosed (openParen :: inner ++ [c])) :
    ∃ depth', Deep (inner ++ [c]) depth' ∧
      (call word inner depth).next c = ([], call word (inner ++ [c]) depth') := by
  have hopen := count_concat (openParen :: inner) c openParen
  have hclose := count_concat (openParen :: inner) c closeParen
  unfold Deep at hdeep ⊢
  unfold Unclosed at h
  simp only [next, if_neg hc, ← List.cons_append]
  by_cases hparen : c = openParen
  · have hother : c ≠ closeParen := hparen ▸ closeParen_ne_openParen.symm
    rw [if_pos hparen] at hopen ⊢
    rw [if_neg hother] at hclose
    exact ⟨depth + 1, by omega, rfl⟩
  · rw [if_neg hparen] at hopen ⊢
    by_cases hparen' : c = closeParen
    · rw [if_pos hparen'] at hclose ⊢
      have hlast : ¬ depth ≤ 1 := by omega
      rw [if_neg hlast]
      exact ⟨depth - 1, by omega, rfl⟩
    · rw [if_neg hparen'] at hclose ⊢
      exact ⟨depth, by omega, rfl⟩

/-- The parenthesis that matches the first one closes the arguments. -/
theorem next_last {word inner : Token} {depth : Nat} (hdeep : Deep inner depth)
    (h : Matched (openParen :: inner ++ [closeParen])) :
    (call word inner depth).next closeParen = close word (inner ++ [closeParen]) := by
  have hopen := count_concat (openParen :: inner) closeParen openParen
  have hclose := count_concat (openParen :: inner) closeParen closeParen
  rw [if_neg closeParen_ne_openParen] at hopen
  rw [if_pos rfl] at hclose
  have hlast : depth ≤ 1 := by
    unfold Deep at hdeep
    unfold Matched at h
    omega
  rw [next, closeParen_not_blank, if_neg Bool.false_ne_true, if_neg closeParen_ne_openParen,
    if_pos rfl, if_pos hlast]

/-! ## The shape of what is found -/

/-- What is known of the token that a scanner is about to finish. -/
def Sound : Mode → Prop
  | idle => True
  | name text => isName text = true
  | named text => isName text = true
  | call word inner depth =>
    isName word = true ∧ IsCutGroup (openParen :: inner) ∧ Deep inner depth
  | called text => ∃ group, IsGroup group ∧ text = repeatWord ++ group

/-- All that is found at a step has the shape of a token, and what is known stays known. -/
def Finds (found : List Token × Mode) : Prop :=
  (∀ token ∈ found.1, Shaped token) ∧ found.2.Sound

theorem finds_nothing {mode : Mode} (h : mode.Sound) : Finds ([], mode) := ⟨nofun, h⟩

theorem finds_one {token : Token} (h : Shaped token) : Finds ([token], idle) := by
  refine ⟨fun other hother => ?_, trivial⟩
  rwa [List.mem_singleton.mp hother]

theorem finds_start (c : Char) : Finds (start c) := by
  unfold start
  split
  · exact finds_one .closer
  · split
    · exact finds_nothing (by simpa [Sound, isName])
    · exact finds_nothing trivial

theorem finds_finish {text : Token} (h : Shaped text) (c : Char) : Finds (finish text c) := by
  obtain ⟨hfound, hsound⟩ := finds_start c
  refine ⟨fun token htoken => ?_, hsound⟩
  rcases List.mem_cons.mp htoken with rfl | htoken
  · exact h
  · exact hfound token htoken

theorem finds_afterName {text : Token} (h : isName text = true) (c : Char) :
    Finds (afterName text c) := by
  unfold afterName
  split
  · exact finds_nothing h
  · split
    · exact finds_nothing ⟨h, isCutGroup_openParen, by unfold Deep; decide⟩
    · exact finds_finish (.name h) c

theorem finds_close {word inner : Token} (hword : isName word = true)
    (hgroup : IsGroup (openParen :: inner)) : Finds (close word inner) := by
  unfold close
  split
  · next hrepeat => exact finds_nothing ⟨openParen :: inner, hgroup, by rw [hrepeat]⟩
  · exact finds_one (.call hword hgroup)

theorem isName_concat {text : Token} (h : isName text = true) {c : Char}
    (hc : isNameChar c = true) : isName (text ++ [c]) = true := by
  cases text with
  | nil => cases h
  | cons d text => simpa [isName, hc] using h

theorem finds_call {word inner : Token} {depth : Nat} (h : (call word inner depth).Sound)
    (c : Char) : Finds ((call word inner depth).next c) := by
  obtain ⟨hword, hgroup, hdeep⟩ := h
  by_cases hblank : Text.isBlank c = true
  · rw [next_blank _ hblank]
    exact finds_nothing ⟨hword, hgroup, hdeep⟩
  · by_cases hopen : Unclosed (openParen :: inner ++ [c])
    · obtain ⟨depth', hdeep', hnext⟩ := next_more word hdeep hblank hopen
      rw [hnext]
      exact finds_nothing ⟨hword, hgroup.push hblank hopen, hdeep'⟩
    · obtain ⟨rfl, hmatched⟩ := matched_concat hgroup.unclosed hopen
      rw [next_last hdeep hmatched]
      exact finds_close hword (hgroup.close hmatched)

theorem finds_next {mode : Mode} (c : Char) (h : mode.Sound) : Finds (mode.next c) := by
  cases mode with
  | idle => exact finds_start c
  | name text =>
    rw [next]
    split
    · next hc => exact finds_nothing (isName_concat h hc)
    · exact finds_afterName h c
  | named text => exact finds_afterName h c
  | call word inner depth => exact finds_call h c
  | called text =>
    obtain ⟨group, hgroup, rfl⟩ := h
    rw [next]
    split
    · exact finds_nothing ⟨group, hgroup, rfl⟩
    · split
      · next hbrace =>
        rw [hbrace, List.append_assoc]
        exact finds_one (.opener hgroup)
      · exact finds_finish (.call (by decide) hgroup) c

theorem finds_walk (text : List Char) : Finds (idle.walk text) :=
  walk_keeps (fun _ c h => finds_next c h) idle trivial text

theorem Sound.shaped {mode : Mode} (h : mode.Sound) (hcall : mode.isCall = false) :
    ∀ token ∈ mode.rest, Shaped token := by
  intro token htoken
  cases mode with
  | idle => cases htoken
  | name text =>
    cases htoken
    exact .name h
  | named text =>
    cases htoken
    exact .name h
  | call word inner depth => cases hcall
  | called text =>
    cases htoken
    obtain ⟨group, hgroup, rfl⟩ := h
    exact .call (by decide) hgroup

/-- A call that is under way when the text ends is the last token, cut short. -/
theorem Sound.cutShort {mode : Mode} (h : mode.Sound) (hcall : mode.isCall = true) :
    ∃ token, mode.rest = some token ∧ CutShort token := by
  cases mode with
  | call word inner depth => exact ⟨_, rfl, .call h.1 h.2.1⟩
  | _ => cases hcall

theorem walk_nameChars (text : Token) {more : List Char} (h : more.all isNameChar = true) :
    (name text).walk more = ([], name (text ++ more)) := by
  induction more generalizing text with
  | nil => rw [walk_nil, List.append_nil]
  | cons c more ih =>
    simp only [List.all_cons, Bool.and_eq_true] at h
    simp only [walk, next, if_pos h.1, ih _ h.2, List.append_assoc, List.singleton_append,
      List.nil_append]

theorem walk_name {word : Token} (h : isName word = true) : idle.walk word = ([], name word) := by
  cases word with
  | nil => cases h
  | cons c more =>
    simp only [isName, Bool.and_eq_true] at h
    have hstart : start c = ([], name [c]) := by
      rw [start, if_neg (ne_closeBrace_of_nameStart h.1), if_pos h.1]
    simp only [walk, next, hstart, walk_nameChars [c] h.2, List.nil_append, List.singleton_append]

/-- Where parentheses are open throughout, the scanner stands in the arguments. -/
theorem walk_cutGroup {word inner : Token} (hword : isName word = true)
    (h : IsCutGroup (openParen :: inner)) :
    ∃ depth, Deep inner depth ∧
      idle.walk (word ++ openParen :: inner) = ([], call word inner depth) := by
  -- from the back: a group without its last character is still open throughout
  induction inner using List.reverseRecOn with
  | nil =>
    refine ⟨1, by unfold Deep; decide, ?_⟩
    have hparen : isNameChar openParen = false := by decide
    rw [walk_concat, walk_name hword]
    simp [next, afterName, hparen, openParen_not_blank]
  | append_singleton inner c ih =>
    rw [← List.cons_append] at h ⊢
    have hshort : openParen :: inner <+: openParen :: inner ++ [c] := List.prefix_append _ _
    have hcut : IsCutGroup (openParen :: inner) :=
      isCutGroup_of_prefix h.head h.compact hshort (List.cons_ne_nil _ _) fun part hpart hne =>
        h.pending part (hpart.trans hshort) hne
    have hblank : ¬ Text.isBlank c = true := by
      have hc := List.all_eq_true.mp h.compact c (by simp)
      simpa [notBlank] using hc
    obtain ⟨depth, hdeep, hwalk⟩ := ih hcut
    obtain ⟨depth', hdeep', hnext⟩ := next_more word hdeep hblank h.unclosed
    refine ⟨depth', hdeep', ?_⟩
    rw [← List.append_assoc, walk_concat, hwalk, hnext, List.nil_append]

theorem walk_group {word group : Token} (hword : isName word = true) (h : IsGroup group) :
    idle.walk (word ++ group) =
      if word = repeatWord then ([], called (word ++ group)) else ([word ++ group], idle) := by
  obtain ⟨inner, rfl, hcut⟩ := h.exists_inner
  obtain ⟨depth, hdeep, hwalk⟩ := walk_cutGroup hword hcut
  rw [← List.append_assoc, walk_concat, hwalk, next_last hdeep h.matched, List.nil_append, close]
  simp only [List.append_assoc, List.cons_append]

/-- Whether a token is found where it is a text of its own, and is complete there. -/
structure Standing (token : Token) : Prop where
  alone : idle.run token = [token]
  complete : (idle.walk token).2.isCall = false

theorem standing_of_walk {token : Token} {found : List Token} {mode : Mode}
    (h : idle.walk token = (found, mode)) (hcall : mode.isCall = false)
    (hfound : found ++ mode.rest.toList = [token]) : Standing token where
  alone := by rw [run, h, hfound]
  complete := by rw [h, hcall]

end Mode

theorem Shaped.standing {token : Token} (h : Shaped token) : Mode.Standing token := by
  cases h with
  | closer => exact Mode.standing_of_walk rfl rfl rfl
  | name hword => exact Mode.standing_of_walk (Mode.walk_name hword) rfl rfl
  | @call word group hword hgroup =>
    have hwalk := Mode.walk_group hword hgroup
    by_cases hrepeat : word = repeatWord
    · rw [if_pos hrepeat] at hwalk
      exact Mode.standing_of_walk hwalk rfl rfl
    · rw [if_neg hrepeat] at hwalk
      exact Mode.standing_of_walk hwalk rfl rfl
  | @opener group hgroup =>
    have hwalk := Mode.walk_group (by decide : isName repeatWord = true) hgroup
    rw [if_pos rfl] at hwalk
    have hbrace : (Mode.called (repeatWord ++ group)).next openBrace =
        ([repeatWord ++ group ++ [openBrace]], .idle) := rfl
    have hopener : Mode.idle.walk (repeatWord ++ (group ++ [openBrace])) =
        ([repeatWord ++ (group ++ [openBrace])], .idle) := by
      rw [← List.append_assoc, Mode.walk_concat, hwalk, hbrace, List.nil_append]
    exact Mode.standing_of_walk hopener rfl rfl

theorem CutShort.alone {token : Token} (h : CutShort token) : Mode.idle.run token = [token] := by
  cases h with
  | @call word group hword hgroup =>
    obtain ⟨inner, rfl⟩ := List.head?_eq_some_iff.mp hgroup.head
    obtain ⟨depth, -, hwalk⟩ := Mode.walk_cutGroup hword hgroup
    rw [Mode.run, hwalk]
    rfl

theorem Canonical.tail {token next : Token} {more : List Token}
    (h : Canonical (token :: next :: more)) : Shaped token ∧ Canonical (next :: more) := by
  have hshaped := h.shaped
  rw [List.dropLast_cons_of_ne_nil (List.cons_ne_nil next more)] at hshaped
  refine ⟨hshaped token List.mem_cons_self, ?_, ?_⟩
  · exact fun other hother => hshaped other (List.mem_cons_of_mem _ hother)
  · have hlast := h.last
    rwa [List.getLast?_cons_cons] at hlast

/-- Joined with semicolons, the tokens that a script can have are a script with these tokens. -/
theorem Canonical.tokens_joined {found : List Token} (h : Canonical found) :
    tokens ([';'].intercalate found) = found := by
  rw [tokens_eq_run]
  induction found with
  | nil => rfl
  | cons token more ih =>
    cases more with
    | nil =>
      rw [List.intercalate_singleton]
      rcases h.last token rfl with hshaped | hcut
      · exact hshaped.standing.alone
      · exact hcut.alone
    | cons next more =>
      obtain ⟨hshaped, hmore⟩ := h.tail
      rw [List.intercalate_cons_cons, List.append_assoc, List.singleton_append,
        Mode.run_semicolon hshaped.standing.complete, hshaped.standing.alone, ih hmore,
        List.singleton_append]

theorem canonical_tokens (script : List Char) : Canonical (tokens script) := by
  obtain ⟨hfound, hsound⟩ := Mode.finds_walk script
  have htokens : tokens script =
      (Mode.idle.walk script).1 ++ (Mode.idle.walk script).2.rest.toList := tokens_eq_run script
  have hrest : ∀ token ∈ (Mode.idle.walk script).2.rest, Shaped token ∨ CutShort token := by
    intro token htoken
    cases hcall : (Mode.idle.walk script).2.isCall with
    | false => exact .inl (hsound.shaped hcall token htoken)
    | true =>
      obtain ⟨last, hlast, hcut⟩ := hsound.cutShort hcall
      rw [hlast] at htoken
      cases htoken
      exact .inr hcut
  rw [htokens]
  -- only the token that is unfinished where the script ends can be cut short
  cases hlast : (Mode.idle.walk script).2.rest with
  | none =>
    rw [Option.toList_none, List.append_nil]
    exact ⟨fun token htoken => hfound token (List.dropLast_subset _ htoken),
      fun token htoken => .inl (hfound token (List.mem_of_getLast? htoken))⟩
  | some token =>
    rw [Option.toList_some]
    refine ⟨?_, ?_⟩
    · rw [List.dropLast_concat]
      exact hfound
    · rw [List.getLast?_concat]
      intro other hother
      cases hother
      exact hrest token hlast

/-- The tokens of a script have the shape of tokens, where the last may be cut short, and joined
with semicolons they are a script with the same tokens. -/
theorem tokens_canonical (script : List Char) :
    Canonical (tokens script) ∧
      tokens ([';'].intercalate (tokens script)) = tokens script :=
  ⟨canonical_tokens script, (canonical_tokens script).tokens_joined⟩

end MazeDuel.Script
