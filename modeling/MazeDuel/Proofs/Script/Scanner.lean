import MazeDuel.Proofs.Script.Layout
/-!
Reading a script one character at a time. Where a token is complete shows only at a character behind
it, so the scanner holds the token that it is about to finish and gives it out at the first
character that does not go on with it. It finds the same tokens as splitting the text does, and what
it has found in the beginning of a text does not depend on the rest.
-/

namespace MazeDuel.Script

/-- Where a scanner stands. -/
inductive Mode where
  /-- Outside of all tokens. -/
  | idle
  /-- In a name. -/
  | name (text : Token)
  /-- Behind a name and some blanks. -/
  | named (text : Token)
  /-- In the arguments of a call, inside `depth` parentheses. -/
  | call (word inner : Token) (depth : Nat)
  /-- Behind the call of a repeat, and perhaps some blanks. -/
  | called (text : Token)

namespace Mode

/-- What is found at a character outside of all tokens, and where that leads. -/
def start (c : Char) : List Token × Mode :=
  if c = closeBrace then ([blockEnd], idle)
  else if isNameStart c then ([], name [c])
  else ([], idle)

/-- A token is complete, and the character behind it is the first of what follows. -/
def finish (text : Token) (c : Char) : List Token × Mode := (text :: (start c).1, (start c).2)

def afterName (text : Token) (c : Char) : List Token × Mode :=
  if Text.isBlank c then ([], named text)
  else if c = openParen then ([], call text [] 1)
  else finish text c

/-- The arguments are closed; only a repeat can still become an opener. -/
def close (word inner : Token) : List Token × Mode :=
  if word = repeatWord then ([], called (word ++ openParen :: inner))
  else ([word ++ openParen :: inner], idle)

/-- The tokens that are complete at the next character, and where the scanner stands behind it. -/
def next : Mode → Char → List Token × Mode
  | idle, c => start c
  | name text, c => if isNameChar c then ([], name (text ++ [c])) else afterName text c
  | named text, c => afterName text c
  | call word inner depth, c =>
    if Text.isBlank c then ([], call word inner depth)
    else if c = openParen then ([], call word (inner ++ [c]) (depth + 1))
    else if c = closeParen then
      if depth ≤ 1 then close word (inner ++ [c]) else ([], call word (inner ++ [c]) (depth - 1))
    else ([], call word (inner ++ [c]) depth)
  | called text, c =>
    if Text.isBlank c then ([], called text)
    else if c = openBrace then ([text ++ [c]], idle)
    else finish text c

/-- The token that is unfinished where a text ends. -/
def rest : Mode → Option Token
  | idle => none
  | name text => some text
  | named text => some text
  | call word inner _ => some (word ++ openParen :: inner)
  | called text => some text

def walk (mode : Mode) : List Char → List Token × Mode
  | [] => ([], mode)
  | c :: text =>
    ((mode.next c).1 ++ (walk (mode.next c).2 text).1, (walk (mode.next c).2 text).2)

/-- All tokens from a mode to the end of a text. -/
def run (mode : Mode) (text : List Char) : List Token :=
  (mode.walk text).1 ++ (mode.walk text).2.rest.toList

@[simp] theorem walk_nil (mode : Mode) : mode.walk [] = ([], mode) := rfl

@[simp] theorem run_nil (mode : Mode) : mode.run [] = mode.rest.toList := rfl

theorem run_cons (mode : Mode) (c : Char) (text : List Char) :
    mode.run (c :: text) = (mode.next c).1 ++ (mode.next c).2.run text := by
  simp only [run, walk, List.append_assoc]

theorem walk_append (mode : Mode) (text more : List Char) :
    mode.walk (text ++ more) =
      ((mode.walk text).1 ++ ((mode.walk text).2.walk more).1,
        ((mode.walk text).2.walk more).2) := by
  induction text generalizing mode with
  | nil => rfl
  | cons c text ih => simp only [List.cons_append, walk, ih, List.append_assoc]

/-- What has been found in the beginning of a text stands, whatever follows. -/
theorem run_append (mode : Mode) (text more : List Char) :
    mode.run (text ++ more) = (mode.walk text).1 ++ (mode.walk text).2.run more := by
  simp only [run, walk_append, List.append_assoc]

theorem walk_concat (mode : Mode) (text : List Char) (c : Char) :
    mode.walk (text ++ [c]) =
      ((mode.walk text).1 ++ ((mode.walk text).2.next c).1, ((mode.walk text).2.next c).2) := by
  simp only [walk_append, walk, List.append_nil]

/-- What every step keeps is kept along a text, and all that is found has what is found at a step.
-/
theorem walk_keeps {Good : Token → Prop} {Sound : Mode → Prop}
    (hstep : ∀ mode c, Sound mode →
      (∀ token ∈ (mode.next c).1, Good token) ∧ Sound (mode.next c).2)
    (mode : Mode) (h : Sound mode) (text : List Char) :
    (∀ token ∈ (mode.walk text).1, Good token) ∧ Sound (mode.walk text).2 := by
  induction text generalizing mode with
  | nil => exact ⟨nofun, h⟩
  | cons c text ih =>
    obtain ⟨hfound, hsound⟩ := hstep mode c h
    obtain ⟨hmore, hend⟩ := ih _ hsound
    refine ⟨fun token htoken => ?_, hend⟩
    rcases List.mem_append.mp htoken with htoken | htoken
    · exact hfound token htoken
    · exact hmore token htoken

theorem start_other {c : Char} (hbrace : c ≠ closeBrace) (hname : isNameStart c = false) :
    start c = ([], idle) := by
  rw [start, if_neg hbrace, hname]
  rfl

theorem start_gap {c : Char} (h : isGap c = true) : start c = ([], idle) := by
  refine start_other ?_ (nameStart_gap h)
  rintro rfl
  exact absurd h (by decide)

/-- Where a blank leads. -/
def past : Mode → Mode
  | name text => named text
  | mode => mode

/-- At a blank nothing is found, and only a name is left. -/
theorem next_blank (mode : Mode) {c : Char} (h : Text.isBlank c = true) :
    mode.next c = ([], mode.past) := by
  cases mode with
  | idle => exact start_gap (by simp [isGap, h])
  | name text => simp [next, afterName, past, nameChar_blank h, h]
  | named text => simp [next, afterName, past, h]
  | call word inner depth => simp [next, past, h]
  | called text => simp [next, past, h]

theorem run_blank (mode : Mode) {c : Char} (text : List Char) (h : Text.isBlank c = true) :
    mode.run (c :: text) = mode.past.run text := by
  rw [run_cons, next_blank mode h, List.nil_append]

/-- A name is left all the same where the text does not go on with it. -/
theorem run_named (word : Token) {text : List Char}
    (h : ∀ c ∈ text.head?, isNameChar c = false) :
    (named word).run text = (name word).run text := by
  cases text with
  | nil => rfl
  | cons c text =>
    have hc : isNameChar c = false := h c rfl
    rw [run_cons, run_cons, next, next, hc]
    rfl

/-- Blanks make no difference where nothing is left by them. -/
theorem run_dropWhile_blank (mode : Mode) (h : mode.past = mode) (text : List Char) :
    mode.run (text.dropWhile Text.isBlank) = mode.run text := by
  induction text with
  | nil => rfl
  | cons c text ih =>
    by_cases hc : Text.isBlank c = true
    · rw [List.dropWhile_cons, if_pos hc, run_blank mode text hc, h, ih]
    · rw [List.dropWhile_cons, if_neg hc]

def isCall : Mode → Bool
  | call _ _ _ => true
  | _ => false

/-- A semicolon completes what is unfinished, if it does not belong to the arguments of a call. -/
theorem next_semicolon {mode : Mode} (h : mode.isCall = false) :
    mode.next ';' = (mode.rest.toList, idle) := by
  have hstart : start ';' = ([], idle) := start_gap (by decide)
  have hname : isNameChar ';' = false := by decide
  have hblank : Text.isBlank ';' = false := by decide
  have hparen : ';' ≠ openParen := by decide
  have hbrace : ';' ≠ openBrace := by decide
  cases mode with
  | idle => exact hstart
  | name text => simp [next, afterName, finish, rest, hname, hblank, hparen, hstart]
  | named text => simp [next, afterName, finish, rest, hblank, hparen, hstart]
  | call word inner depth => cases h
  | called text => simp [next, finish, rest, hblank, hbrace, hstart]

/-- Two texts with a semicolon between them are read one after the other. -/
theorem run_semicolon {mode : Mode} {text : List Char} (h : (mode.walk text).2.isCall = false)
    (more : List Char) : mode.run (text ++ ';' :: more) = mode.run text ++ idle.run more := by
  have htext : mode.run text = (mode.walk text).1 ++ (mode.walk text).2.rest.toList := rfl
  rw [run_append, run_cons, next_semicolon h, htext, List.append_assoc]

theorem run_name (text : Token) (after : List Char) :
    (name text).run after =
      (named (text ++ after.takeWhile isNameChar)).run (after.dropWhile isNameChar) := by
  induction after generalizing text with
  | nil => simp [rest]
  | cons c after ih =>
    by_cases hc : isNameChar c = true
    · rw [run_cons, next, if_pos hc, List.nil_append, ih, List.takeWhile_cons, if_pos hc,
        List.dropWhile_cons, if_pos hc, List.append_assoc, List.singleton_append]
    · rw [List.takeWhile_cons, if_neg hc, List.dropWhile_cons, if_neg hc, List.append_nil]
      exact Eq.symm <| run_named text fun d hd => by
        cases hd
        simpa using hc

/-- The arguments of a call are read as a group is. -/
theorem run_call (word inner : Token) (depth : Nat) (inside : List Char) :
    (call word inner depth).run inside =
      match readGroup depth inside with
      | (group, none) => [word ++ openParen :: (inner ++ group)]
      | (group, some behind) =>
        (close word (inner ++ group)).1 ++ (close word (inner ++ group)).2.run behind := by
  induction inside generalizing inner depth with
  | nil => simp [readGroup, rest]
  | cons c inside ih =>
    rw [run_cons, next, readGroup]
    by_cases hblank : Text.isBlank c = true
    · rw [if_pos hblank, if_pos hblank, List.nil_append, ih]
    · rw [if_neg hblank, if_neg hblank]
      by_cases hopen : c = openParen
      · rw [if_pos hopen, if_pos hopen, List.nil_append, ih]
        cases readGroup (depth + 1) inside with
        | mk group behind => cases behind <;> simp
      · rw [if_neg hopen, if_neg hopen]
        by_cases hclose : c = closeParen
        · rw [if_pos hclose, if_pos hclose]
          by_cases hlast : depth ≤ 1
          · rw [if_pos hlast, if_pos hlast]
          · rw [if_neg hlast, if_neg hlast, List.nil_append, ih]
            cases readGroup (depth - 1) inside with
            | mk group behind => cases behind <;> simp
        · rw [if_neg hclose, if_neg hclose, List.nil_append, ih]
          cases readGroup depth inside with
          | mk group behind => cases behind <;> simp

theorem run_finish (text : Token) (c : Char) (behind : List Char) :
    (finish text c).1 ++ (finish text c).2.run behind = text :: idle.run (c :: behind) := by
  rw [run_cons, finish, next, List.cons_append]

theorem blank_of_dropWhile {text more : List Char} {c : Char}
    (h : text.dropWhile Text.isBlank = c :: more) : ¬ Text.isBlank c = true := by
  have hhead := List.head?_dropWhile_not Text.isBlank text
  rw [h] at hhead
  simpa using hhead

/-- A name is complete where no parenthesis follows. -/
theorem run_alone (word : Token) {after : List Char}
    (h : ∀ c ∈ (after.dropWhile Text.isBlank).head?, c ≠ openParen) :
    (named word).run after = word :: idle.run after := by
  rw [← run_dropWhile_blank _ rfl after, ← run_dropWhile_blank idle rfl after]
  cases hafter : after.dropWhile Text.isBlank with
  | nil => rfl
  | cons c more =>
    rw [hafter] at h
    rw [run_cons, next, afterName, if_neg (blank_of_dropWhile hafter), if_neg (h c rfl),
      run_finish]

theorem run_opened (word : Token) {after inside : List Char}
    (h : after.dropWhile Text.isBlank = openParen :: inside) :
    (named word).run after = (call word [] 1).run inside := by
  rw [← run_dropWhile_blank _ rfl after, h, run_cons, next, afterName,
    if_neg (blank_of_dropWhile h), if_pos rfl, List.nil_append]

theorem run_called (text : Token) (behind : List Char) :
    (called text).run behind =
      match behind.dropWhile Text.isBlank with
      | c :: more => if c = openBrace then (text ++ [c]) :: idle.run more
        else text :: idle.run behind
      | [] => text :: idle.run behind := by
  rw [← run_dropWhile_blank _ rfl behind, ← run_dropWhile_blank idle rfl behind]
  cases hbehind : behind.dropWhile Text.isBlank with
  | nil => rfl
  | cons c more =>
    rw [run_cons, next, if_neg (blank_of_dropWhile hbehind)]
    dsimp only
    by_cases hbrace : c = openBrace
    · rw [if_pos hbrace, if_pos hbrace, List.singleton_append]
    · rw [if_neg hbrace, if_neg hbrace, run_finish]

/-- Behind its arguments a call is complete, but for the brace of an opener. -/
theorem run_close (word inner : Token) (behind : List Char) :
    (close word inner).1 ++ (close word inner).2.run behind =
      (word ++ openParen :: inner ++ (readBrace word behind).1) ::
        idle.run (readBrace word behind).2 := by
  unfold close readBrace
  by_cases hword : word = repeatWord
  · rw [if_pos hword, if_pos hword, List.nil_append, run_called]
    cases behind.dropWhile Text.isBlank with
    | nil => simp
    | cons c more =>
      by_cases hbrace : c = openBrace
      · simp [hbrace]
      · simp [hbrace]
  · rw [if_neg hword, if_neg hword]
    simp

end Mode

/-- Splitting a text gives the tokens that the scanner finds. -/
theorem lexed_eq_run (total : Nat) (text : List Char) : lexed total text = Mode.idle.run text := by
  -- on the length, since splitting goes on behind a whole token
  match text with
  | [] => simp [Mode.rest]
  | c :: rest =>
    by_cases hbrace : c = closeBrace
    · rw [hbrace, lexed_closeBrace, lexed_eq_run total rest, Mode.run_cons, Mode.next, Mode.start,
        if_pos rfl, List.singleton_append]
    · by_cases hname : isNameStart c = true
      · have hlength := length_dropWhile_le isNameChar rest
        have hrun : Mode.idle.run (c :: rest) =
            (Mode.named (c :: rest.takeWhile isNameChar)).run (rest.dropWhile isNameChar) := by
          rw [Mode.run_cons, Mode.next, Mode.start, if_neg hbrace, if_pos hname, List.nil_append,
            Mode.run_name, List.singleton_append]
        rw [hrun]
        by_cases hnext : ∃ inside,
            (rest.dropWhile isNameChar).dropWhile Text.isBlank = openParen :: inside
        · obtain ⟨inside, hinside⟩ := hnext
          have hshort : inside.length < (rest.dropWhile isNameChar).length := by
            have hle := length_dropWhile_le Text.isBlank (rest.dropWhile isNameChar)
            rwa [hinside, List.length_cons] at hle
          simp only [Mode.run_opened _ hinside, Mode.run_call, List.nil_append]
          match hgroup : readGroup 1 inside with
          | (group, none) => exact lexed_unclosed total hname hinside hgroup
          | (group, some behind) =>
            have hbehind := readGroup_shorter hgroup
            have hlast := length_readBrace_le (c :: rest.takeWhile isNameChar) behind
            dsimp only
            rw [lexed_called total hname hinside hgroup, Mode.run_close,
              lexed_eq_run total (readBrace _ behind).2]
        · have hparen : ∀ d ∈ ((rest.dropWhile isNameChar).dropWhile Text.isBlank).head?,
              d ≠ openParen := by
            rintro d hd rfl
            exact hnext (List.head?_eq_some_iff.mp hd)
          rw [lexed_alone total hname hparen, Mode.run_alone _ hparen,
            lexed_eq_run total (rest.dropWhile isNameChar)]
      · have hother := Bool.eq_false_iff.mpr hname
        rw [lexed_other total rest hbrace hother, lexed_eq_run total rest, Mode.run_cons, Mode.next,
          Mode.start_other hbrace hother, List.nil_append]
termination_by text.length
decreasing_by
  all_goals simp only [List.length_cons]; omega

theorem tokens_eq_run (text : List Char) : tokens text = Mode.idle.run text :=
  lexed_eq_run text.length text

end MazeDuel.Script
