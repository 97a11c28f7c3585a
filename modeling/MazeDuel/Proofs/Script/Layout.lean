import MazeDuel.Script.Program
/-!
Statement trees and the ways to write them. Between two statements there must be some blanks or
semicolons, and there may be some at both ends of a script and of a block; blanks may also stand
between a name and its parenthesis, anywhere inside the parentheses, and before the brace of a
block. However a tree is written, the tokens are the same.
-/

namespace MazeDuel.Script

/-- A letter or an underscore, and letters, numerals and underscores behind it. -/
def isName : Token → Bool
  | [] => false
  | c :: rest => isNameStart c && rest.all isNameChar

/-- Whether all parentheses of a text match, when `depth` of them are open before it. -/
def isBalanced (depth : Nat) : List Char → Bool
  | [] => depth == 0
  | c :: rest =>
    if c = openParen then isBalanced (depth + 1) rest
    else if c = closeParen then depth != 0 && isBalanced (depth - 1) rest
    else isBalanced depth rest

def isDigit (c : Char) : Bool := (Text.digitValue? c).isSome

def notBlank (c : Char) : Bool := !Text.isBlank c

/-- What may stand between statements. -/
def isGap (c : Char) : Bool := Text.isBlank c || c == ';'

structure Name where
  text : Token
  isName : isName text = true

/-- What stands between the parentheses of a call, less its blanks. -/
structure Arguments where
  text : Token
  balanced : isBalanced 0 text = true
  compact : text.all notBlank = true

/-- The digits of a count, not too many of them to be read. -/
structure Count where
  digits : Token
  nonempty : digits ≠ []
  digital : digits.all isDigit = true
  short : digits.length ≤ maxCountDigits

/-- A name with or without arguments, or a block that is repeated. -/
inductive Statement where
  | leaf (name : Name) (args : Option Arguments)
  | repeated (count : Count) (body : List Statement)

mutual

/-- The ways to write a statement. -/
inductive Statement.Written : Statement → List Char → Prop
  | name (name : Name) : Statement.Written (.leaf name none) name.text
  | call (name : Name) (args : Arguments) (space inside : List Char)
      (hspace : space.all Text.isBlank = true) (hinside : inside.filter notBlank = args.text) :
      Statement.Written (.leaf name (some args))
        (name.text ++ (space ++ openParen :: (inside ++ [closeParen])))
  | block (count : Count) (body : List Statement) (space inside space' lead text : List Char)
      (hspace : space.all Text.isBlank = true) (hinside : inside.filter notBlank = count.digits)
      (hspace' : space'.all Text.isBlank = true) (hlead : lead.all isGap = true)
      (hbody : WrittenAll body text) :
      Statement.Written (.repeated count body)
        (repeatWord ++ (space ++ openParen :: (inside ++ closeParen ::
          (space' ++ openBrace :: (lead ++ (text ++ [closeBrace]))))))

/-- The ways to write statements one after the other, from the first letter on. -/
inductive WrittenAll : List Statement → List Char → Prop
  | nil : WrittenAll [] []
  | cons (s : Statement) (rest : List Statement) (text gap more : List Char)
      (hs : s.Written text) (hgap : gap.all isGap = true) (hparted : rest ≠ [] → gap ≠ [])
      (hrest : WrittenAll rest more) : WrittenAll (s :: rest) (text ++ (gap ++ more))

end

/-- The ways to write a whole script. -/
def LaidOut (program : List Statement) (text : List Char) : Prop :=
  ∃ lead more, lead.all isGap = true ∧ WrittenAll program more ∧ text = lead ++ more

def Count.opener (count : Count) : Token :=
  repeatWord ++ openParen :: (count.digits ++ [closeParen, openBrace])

def leafToken (name : Name) : Option Arguments → Token
  | none => name.text
  | some args => name.text ++ openParen :: (args.text ++ [closeParen])

mutual

def Statement.tokens : Statement → List Token
  | .leaf name args => [leafToken name args]
  | .repeated count body => count.opener :: (tokensOfAll body ++ [blockEnd])

def tokensOfAll : List Statement → List Token
  | [] => []
  | s :: rest => s.tokens ++ tokensOfAll rest

end

theorem nameChar_blank {c : Char} (h : Text.isBlank c = true) : isNameChar c = false := by
  have hall : ∀ n ∈ Text.blankPoints, isNameChar (Char.ofNat n) = false := by decide +kernel
  have hmem : c.toNat ∈ Text.blankPoints := List.contains_iff_mem.mp h
  simpa only [Char.ofNat_toNat] using hall c.toNat hmem

theorem nameChar_gap {c : Char} (h : isGap c = true) : isNameChar c = false := by
  simp only [isGap, Bool.or_eq_true, beq_iff_eq] at h
  cases h with
  | inl hblank => exact nameChar_blank hblank
  | inr hsemi => subst hsemi; decide

theorem nameChar_of_nameStart {c : Char} (h : isNameStart c = true) : isNameChar c = true := by
  simp only [isNameStart, isNameChar, Bool.or_eq_true] at h ⊢
  cases h with
  | inl hletter => exact .inl (.inl hletter)
  | inr hline => exact .inr hline

theorem Name.all_nameChar (name : Name) (c : Char) (h : c ∈ name.text) : isNameChar c = true := by
  obtain ⟨text, hname⟩ := name
  cases text with
  | nil => cases h
  | cons d rest =>
    simp only [Script.isName, Bool.and_eq_true] at hname
    cases h with
    | head => exact nameChar_of_nameStart hname.1
    | tail _ hc => exact List.all_eq_true.mp hname.2 c hc

theorem nameStart_gap {c : Char} (h : isGap c = true) : isNameStart c = false := by
  apply Bool.eq_false_iff.mpr
  intro hc
  have hname := nameChar_of_nameStart hc
  rw [nameChar_gap h] at hname
  cases hname

/-- A separator is a gap too, so nothing that starts a name is one. -/
theorem isGap_of_isSeparator {c : Char} (h : isSeparator c = true) : isGap c = true := by
  simp only [isSeparator, Bool.or_eq_true, decide_eq_true_eq] at h
  obtain (((((rfl | rfl) | rfl) | rfl) | h) | h) | rfl := h
  · decide
  · decide
  · decide
  · decide
  · simp [isGap, Text.isBlank, Text.blankPoints, h]
  · simp [isGap, Text.isBlank, Text.blankPoints, h]
  · decide

theorem openParen_not_blank : Text.isBlank openParen = false := by decide

theorem closeParen_not_blank : Text.isBlank closeParen = false := by decide

theorem closeParen_ne_openParen : closeParen ≠ openParen := by decide

/-- Blanks or not, a balanced text is read up to the parenthesis that closes the group. -/
theorem readGroup_balanced (depth : Nat) (inside behind : List Char)
    (h : isBalanced depth (inside.filter notBlank) = true) :
    readGroup (depth + 1) (inside ++ closeParen :: behind) =
      (inside.filter notBlank ++ [closeParen], some behind) := by
  induction inside generalizing depth with
  | nil =>
    have hdepth : depth = 0 := by simpa [isBalanced] using h
    subst hdepth
    simp [readGroup, closeParen_not_blank, closeParen_ne_openParen]
  | cons c rest ih =>
    by_cases hc : Text.isBlank c = true
    · have hskip : (c :: rest).filter notBlank = rest.filter notBlank := by simp [notBlank, hc]
      rw [hskip] at h ⊢
      simp only [List.cons_append, readGroup, hc, if_true]
      exact ih depth h
    · have hkeep : (c :: rest).filter notBlank = c :: rest.filter notBlank := by simp [notBlank, hc]
      rw [hkeep] at h ⊢
      simp only [isBalanced] at h
      by_cases ho : c = openParen
      · rw [if_pos ho] at h
        simp only [List.cons_append, readGroup, if_neg hc, if_pos ho, ih (depth + 1) h]
      · rw [if_neg ho] at h
        by_cases hp : c = closeParen
        · rw [if_pos hp] at h
          simp only [Bool.and_eq_true, bne_iff_ne] at h
          have hdeep : ¬ depth + 1 ≤ 1 := by omega
          have hdepth : depth + 1 - 1 = depth - 1 + 1 := by omega
          simp only [List.cons_append, readGroup, if_neg hc, if_neg ho, if_pos hp, if_neg hdeep]
          rw [hdepth, ih (depth - 1) h.2]
        · rw [if_neg hp] at h
          simp only [List.cons_append, readGroup, if_neg hc, if_neg ho, if_neg hp, ih depth h]

/-! ## Splitting a text into tokens -/

def lexed (total : Nat) (text : List Char) : List Token := (lex total text).filterMap Lexeme.token?

/-- Whether no opening bracket comes next in a text, blanks aside. -/
def Clear (behind : List Char) : Prop :=
  ∀ c ∈ (behind.dropWhile Text.isBlank).head?, c ≠ openParen ∧ c ≠ openBrace

/-- Whether a text can stand right behind a statement: it does not go on with the name, and it is
not taken for a part of the call. -/
def Parted (behind : List Char) : Prop :=
  (∀ c ∈ behind.head?, isNameChar c = false) ∧ Clear behind

@[simp] theorem lexed_nil (total : Nat) : lexed total [] = [] := by simp [lexed, lex]

/-- A character that is no closer and starts no name is passed over, be it a separator or not. -/
theorem lexed_other (total : Nat) {c : Char} (rest : List Char) (hbrace : c ≠ closeBrace)
    (hname : isNameStart c = false) : lexed total (c :: rest) = lexed total rest := by
  have hother : (!isNameStart c) = true := by simp [hname]
  rw [lexed, lex]
  by_cases hs : isSeparator c = true
  · rw [if_pos hs, lexed]
  · rw [if_neg hs, if_neg hbrace, if_pos hother]
    rfl

theorem lexed_gap (total : Nat) {c : Char} (rest : List Char) (h : isGap c = true) :
    lexed total (c :: rest) = lexed total rest := by
  refine lexed_other total rest ?_ (nameStart_gap h)
  rintro rfl
  exact absurd h (by decide)

theorem lexed_gaps (total : Nat) {gap : List Char} (rest : List Char) (h : gap.all isGap = true) :
    lexed total (gap ++ rest) = lexed total rest := by
  induction gap with
  | nil => rfl
  | cons c gap ih =>
    simp only [List.all_cons, Bool.and_eq_true] at h
    rw [List.cons_append, lexed_gap total _ h.1, ih h.2]

theorem lexed_closeBrace (total : Nat) (rest : List Char) :
    lexed total (closeBrace :: rest) = blockEnd :: lexed total rest := by
  have hs : ¬ isSeparator closeBrace = true := by decide
  rw [lexed, lex, if_neg hs, if_pos rfl]
  rfl

theorem not_isSeparator_of_nameStart {c : Char} (h : isNameStart c = true) :
    ¬ isSeparator c = true := by
  intro hs
  rw [nameStart_gap (isGap_of_isSeparator hs)] at h
  cases h

theorem takeWhile_joint {p : Char → Bool} {rest after : List Char} (hrest : rest.all p = true)
    (hafter : ∀ c ∈ after.head?, p c = false) : (rest ++ after).takeWhile p = rest := by
  rw [List.takeWhile_append_of_pos (List.all_eq_true.mp hrest)]
  cases after with
  | nil => simp
  | cons c after => simp [hafter c rfl]

theorem dropWhile_joint {p : Char → Bool} {rest after : List Char} (hrest : rest.all p = true)
    (hafter : ∀ c ∈ after.head?, p c = false) : (rest ++ after).dropWhile p = after := by
  rw [List.dropWhile_append_of_pos (List.all_eq_true.mp hrest)]
  cases after with
  | nil => simp
  | cons c after => simp [hafter c rfl]

theorem ne_closeBrace_of_nameStart {c : Char} (h : isNameStart c = true) : c ≠ closeBrace := by
  intro hc
  subst hc
  exact absurd h (by decide)

/-- A name that no parenthesis follows is a token of its own. -/
theorem lexed_alone (total : Nat) {c : Char} {rest : List Char} (hc : isNameStart c = true)
    (hd : ∀ d ∈ ((rest.dropWhile isNameChar).dropWhile Text.isBlank).head?, d ≠ openParen) :
    lexed total (c :: rest) =
      (c :: rest.takeWhile isNameChar) :: lexed total (rest.dropWhile isNameChar) := by
  rw [lexed, lex, if_neg (not_isSeparator_of_nameStart hc),
    if_neg (ne_closeBrace_of_nameStart hc), if_neg (by simp [hc])]
  dsimp only
  split
  · simp [lexed, Lexeme.token?]
  · next d inside hd' =>
    rw [if_neg (hd d (by rw [hd']; rfl))]
    simp [lexed, Lexeme.token?]

/-- A name is one token with the group that follows it, and with the brace of a block. -/
theorem lexed_called (total : Nat) {c : Char} {rest inside behind : List Char} {group : Token}
    (hc : isNameStart c = true)
    (hd : (rest.dropWhile isNameChar).dropWhile Text.isBlank = openParen :: inside)
    (hg : readGroup 1 inside = (group, some behind)) :
    lexed total (c :: rest) =
      (c :: rest.takeWhile isNameChar ++ openParen :: group ++
          (readBrace (c :: rest.takeWhile isNameChar) behind).1) ::
        lexed total (readBrace (c :: rest.takeWhile isNameChar) behind).2 := by
  rw [lexed, lex, if_neg (not_isSeparator_of_nameStart hc),
    if_neg (ne_closeBrace_of_nameStart hc), if_neg (by simp [hc])]
  dsimp only
  split
  · next hd' =>
    rw [hd] at hd'
    cases hd'
  · next d inside' hd' =>
    rw [hd] at hd'
    cases hd'
    rw [if_pos rfl]
    split
    · next group' hg' =>
      rw [hg] at hg'
      cases hg'
    · next group' behind' hg' =>
      rw [hg] at hg'
      cases hg'
      simp [lexed, Lexeme.token?]

/-- A group that is never closed takes in all that follows. -/
theorem lexed_unclosed (total : Nat) {c : Char} {rest inside : List Char} {group : Token}
    (hc : isNameStart c = true)
    (hd : (rest.dropWhile isNameChar).dropWhile Text.isBlank = openParen :: inside)
    (hg : readGroup 1 inside = (group, none)) :
    lexed total (c :: rest) = [c :: rest.takeWhile isNameChar ++ openParen :: group] := by
  rw [lexed, lex, if_neg (not_isSeparator_of_nameStart hc),
    if_neg (ne_closeBrace_of_nameStart hc), if_neg (by simp [hc])]
  dsimp only
  split
  · next hd' =>
    rw [hd] at hd'
    cases hd'
  · next d inside' hd' =>
    rw [hd] at hd'
    cases hd'
    rw [if_pos rfl]
    split
    · next group' hg' =>
      rw [hg] at hg'
      cases hg'
      simp [Lexeme.token?]
    · next group' behind' hg' =>
      rw [hg] at hg'
      cases hg'

theorem lexed_name (total : Nat) (name : Name) (behind : List Char) (h : Parted behind) :
    lexed total (name.text ++ behind) = name.text :: lexed total behind := by
  obtain ⟨text, hname⟩ := name
  cases text with
  | nil => cases hname
  | cons c rest =>
    simp only [isName, Bool.and_eq_true] at hname
    have htake := takeWhile_joint hname.2 h.1
    have hdrop := dropWhile_joint hname.2 h.1
    have hnext : ∀ d ∈ (((rest ++ behind).dropWhile isNameChar).dropWhile Text.isBlank).head?,
        d ≠ openParen := by
      rw [hdrop]
      exact fun d hd => (h.2 d hd).1
    rw [List.cons_append, lexed_alone total hname.1 hnext, htake, hdrop]

theorem dropWhile_blank {space : List Char} {d : Char} (rest : List Char)
    (hspace : space.all Text.isBlank = true) (hd : Text.isBlank d = false) :
    (space ++ d :: rest).dropWhile Text.isBlank = d :: rest := by
  apply dropWhile_joint hspace
  intro c hc
  cases hc
  exact hd

theorem head?_space_paren {space : List Char} (rest : List Char)
    (hspace : space.all Text.isBlank = true) :
    ∀ c ∈ (space ++ openParen :: rest).head?, isNameChar c = false := by
  intro c hc
  cases space with
  | nil =>
    cases hc
    decide
  | cons d space =>
    cases hc
    simp only [List.all_cons, Bool.and_eq_true] at hspace
    exact nameChar_blank hspace.1

theorem lexed_group (total : Nat) (name : Name) {space inside : List Char} (behind : List Char)
    (hspace : space.all Text.isBlank = true)
    (hinside : isBalanced 0 (inside.filter notBlank) = true) :
    lexed total (name.text ++ (space ++ openParen :: (inside ++ closeParen :: behind))) =
      (name.text ++ openParen :: (inside.filter notBlank ++ [closeParen]) ++
          (readBrace name.text behind).1) :: lexed total (readBrace name.text behind).2 := by
  obtain ⟨text, hname⟩ := name
  cases text with
  | nil => cases hname
  | cons c rest =>
    simp only [isName, Bool.and_eq_true] at hname
    have hhead := head?_space_paren (inside ++ closeParen :: behind) hspace
    have htake := takeWhile_joint hname.2 hhead
    have hdrop := dropWhile_joint hname.2 hhead
    have hopen := dropWhile_blank (inside ++ closeParen :: behind) hspace openParen_not_blank
    have hgroup := readGroup_balanced 0 inside behind hinside
    rw [List.cons_append, lexed_called total hname.1 (by rw [hdrop, hopen]) hgroup, htake]

theorem readBrace_clear (name : Token) {behind : List Char} (h : Clear behind) :
    readBrace name behind = ([], behind) := by
  unfold readBrace
  split
  · split
    · next c rest hc =>
      have hne := (h c (by rw [hc]; rfl)).2
      rw [if_neg hne]
    · rfl
  · rfl

theorem readBrace_repeat {space : List Char} (rest : List Char)
    (hspace : space.all Text.isBlank = true) :
    readBrace repeatWord (space ++ openBrace :: rest) = ([openBrace], rest) := by
  have hopen := dropWhile_blank rest hspace (by decide : Text.isBlank openBrace = false)
  rw [readBrace, if_pos rfl, hopen]
  simp

/-! ## The tokens of a layout -/

theorem clear_of_head {c : Char} {rest : List Char} (h : isNameStart c = true) :
    Clear (c :: rest) := by
  have hc : Text.isBlank c = false := by
    apply Bool.eq_false_iff.mpr
    intro hblank
    have hname := nameChar_of_nameStart h
    rw [nameChar_blank hblank] at hname
    cases hname
  intro d hd
  simp only [List.dropWhile_cons, hc] at hd
  cases hd
  constructor
  · intro hopen
    subst hopen
    exact absurd h (by decide)
  · intro hopen
    subst hopen
    exact absurd h (by decide)

theorem clear_gap {gap behind : List Char} (hgap : gap.all isGap = true) (h : Clear behind) :
    Clear (gap ++ behind) := by
  induction gap with
  | nil => exact h
  | cons c gap ih =>
    simp only [List.all_cons, Bool.and_eq_true] at hgap
    by_cases hc : Text.isBlank c = true
    · have hrest := ih hgap.2
      unfold Clear at hrest ⊢
      rwa [List.cons_append, List.dropWhile_cons, if_pos hc]
    · have hsemi : c = ';' := by simpa [isGap, hc] using hgap.1
      intro d hd
      rw [List.cons_append, List.dropWhile_cons, if_neg hc] at hd
      cases hd
      subst hsemi
      decide

theorem parted_gap {gap behind : List Char} (hgap : gap.all isGap = true) (hne : gap ≠ [])
    (h : Clear behind) : Parted (gap ++ behind) := by
  constructor
  · intro c hc
    cases gap with
    | nil => exact absurd rfl hne
    | cons d gap =>
      cases hc
      simp only [List.all_cons, Bool.and_eq_true] at hgap
      exact nameChar_gap hgap.1
  · exact clear_gap hgap h

theorem parted_closeBrace (rest : List Char) : Parted (closeBrace :: rest) := by
  constructor
  · intro c hc
    cases hc
    decide
  · intro c hc
    have hblank : ¬ Text.isBlank closeBrace = true := by decide
    rw [List.dropWhile_cons, if_neg hblank] at hc
    cases hc
    decide

theorem parted_nil : Parted [] := by
  constructor
  · intro c hc
    cases hc
  · intro c hc
    cases hc

theorem Statement.Written.head {s : Statement} {text : List Char} (h : s.Written text) :
    ∃ c rest, text = c :: rest ∧ isNameStart c = true := by
  have hname : ∀ (name : Name) (after : List Char),
      ∃ c rest, name.text ++ after = c :: rest ∧ isNameStart c = true := by
    intro name after
    obtain ⟨text, hname⟩ := name
    cases text with
    | nil => cases hname
    | cons c rest =>
      simp only [isName, Bool.and_eq_true] at hname
      exact ⟨c, rest ++ after, rfl, hname.1⟩
  cases h with
  | name name => simpa using hname name []
  | call name args space inside => exact hname name _
  | block count body space inside space' lead text =>
    exact ⟨'R', _, rfl, by decide⟩

theorem balanced_bare {text : List Char} (h : ∀ c ∈ text, c ≠ openParen ∧ c ≠ closeParen) :
    isBalanced 0 text = true := by
  induction text with
  | nil => rfl
  | cons c rest ih =>
    obtain ⟨hopen, hclose⟩ := h c List.mem_cons_self
    rw [isBalanced, if_neg hopen, if_neg hclose]
    exact ih fun d hd => h d (List.mem_cons_of_mem _ hd)

theorem balanced_digits {digits : Token} (h : digits.all isDigit = true) :
    isBalanced 0 digits = true := by
  apply balanced_bare
  intro c hc
  have hdigit := List.all_eq_true.mp h c hc
  constructor
  · rintro rfl
    exact absurd hdigit (by decide)
  · rintro rfl
    exact absurd hdigit (by decide)

mutual

/-- However a statement is written, its tokens come first and those of the text behind it follow. -/
theorem Statement.Written.lexed (total : Nat) {s : Statement} {text : List Char}
    (h : s.Written text) (behind : List Char) (hp : Parted behind) :
    lexed total (text ++ behind) = s.tokens ++ Script.lexed total behind := by
  cases h with
  | name name => exact lexed_name total name behind hp
  | call name args space inside hspace hinside =>
    have hbalanced : isBalanced 0 (inside.filter notBlank) = true := by
      rw [hinside]
      exact args.balanced
    have hgroup := lexed_group total name behind hspace hbalanced
    rw [readBrace_clear name.text hp.2, hinside] at hgroup
    simpa [Statement.tokens, leafToken] using hgroup
  | block count body space inside space' lead text hspace hinside hspace' hlead hbody =>
    have hbalanced : isBalanced 0 (inside.filter notBlank) = true := by
      rw [hinside]
      exact balanced_digits count.digital
    have hgroup := lexed_group total ⟨repeatWord, by decide⟩
      (space' ++ openBrace :: (lead ++ (text ++ closeBrace :: behind))) hspace hbalanced
    have hinner := WrittenAll.lexed total hbody (closeBrace :: behind) (parted_closeBrace behind)
    rw [readBrace_repeat _ hspace', hinside] at hgroup
    dsimp only at hgroup
    rw [lexed_gaps total _ hlead, hinner, lexed_closeBrace] at hgroup
    simpa [Statement.tokens, Count.opener] using hgroup

theorem WrittenAll.lexed (total : Nat) {program : List Statement} {text : List Char}
    (h : WrittenAll program text) (behind : List Char) (hp : Parted behind) :
    lexed total (text ++ behind) = tokensOfAll program ++ Script.lexed total behind := by
  cases h with
  | nil => rfl
  | cons s rest text gap more hs hgap hparted hrest =>
    have hnext : Parted (gap ++ (more ++ behind)) := by
      cases hrest with
      | nil =>
        cases gap with
        | nil => exact hp
        | cons c gap => exact parted_gap hgap (List.cons_ne_nil c gap) hp.2
      | cons s' rest' text' gap' more' hs' hgap' hparted' hrest' =>
        obtain ⟨c, tail, htext, hc⟩ := hs'.head
        apply parted_gap hgap (hparted (List.cons_ne_nil s' rest'))
        rw [htext]
        exact clear_of_head hc
    have hfirst := Statement.Written.lexed total hs (gap ++ (more ++ behind)) hnext
    have hmore := WrittenAll.lexed total hrest behind hp
    rw [lexed_gaps total _ hgap, hmore] at hfirst
    simpa [tokensOfAll] using hfirst

end

/-- The tokens of a script do not depend on its layout. -/
theorem LaidOut.tokens {program : List Statement} {text : List Char} (h : LaidOut program text) :
    tokens text = tokensOfAll program := by
  obtain ⟨lead, more, hlead, hmore, htext⟩ := h
  have hlexed := hmore.lexed text.length [] parted_nil
  rw [List.append_nil, lexed_nil, List.append_nil] at hlexed
  rw [← hlexed, ← lexed_gaps text.length more hlead, ← htext]
  rfl

mutual

def Statement.shown : Statement → List Char
  | .leaf name args => leafToken name args
  | .repeated count body => count.opener ++ (shownAll body ++ [closeBrace])

/-- The statements with a semicolon after each. -/
def shownAll : List Statement → List Char
  | [] => []
  | s :: rest => s.shown ++ ([';'] ++ shownAll rest)

end

theorem digit_not_blank {c : Char} (h : isDigit c = true) : notBlank c = true := by
  have hall : ∀ n ∈ Text.blankPoints, isDigit (Char.ofNat n) = false := by decide
  by_cases hc : Text.isBlank c = true
  · have hmem : c.toNat ∈ Text.blankPoints := List.contains_iff_mem.mp hc
    have hnone := hall c.toNat hmem
    rw [Char.ofNat_toNat, h] at hnone
    cases hnone
  · simpa [notBlank] using hc

mutual

theorem Statement.written_shown : (s : Statement) → s.Written s.shown
  | .leaf name none => .name name
  | .leaf name (some args) => by
    have hinside : args.text.filter notBlank = args.text :=
      List.filter_eq_self.mpr (List.all_eq_true.mp args.compact)
    exact .call name args [] args.text rfl hinside
  | .repeated count body => by
    have hinside : count.digits.filter notBlank = count.digits := by
      apply List.filter_eq_self.mpr
      intro c hc
      exact digit_not_blank (List.all_eq_true.mp count.digital c hc)
    have hblock := Statement.Written.block count body [] count.digits [] [] (shownAll body)
      rfl hinside rfl rfl (written_shownAll body)
    simpa [Statement.shown, Count.opener] using hblock

theorem written_shownAll : (program : List Statement) → WrittenAll program (shownAll program)
  | [] => .nil
  | s :: rest =>
    .cons s rest s.shown [';'] (shownAll rest) s.written_shown (by decide)
      (fun _ => List.cons_ne_nil _ _) (written_shownAll rest)

end

theorem laidOut_shownAll (program : List Statement) : LaidOut program (shownAll program) :=
  ⟨[], shownAll program, rfl, written_shownAll program, rfl⟩

end MazeDuel.Script
