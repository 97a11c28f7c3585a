import MazeDuel.Journal
import MazeDuel.Text.Blank
import MazeDuel.Text.Letter
import MazeDuel.Text.Numeral
import MazeDuel.Text.Quoted
/-!
Tokens of a script: names, calls with their arguments, block openers and block closers. Blanks and
semicolons separate tokens, and a character that starts none is passed over, so a slip of the pen
costs one statement and not the script.
-/

namespace MazeDuel.Script

abbrev Token := List Char

def openParen : Char := '('

def closeParen : Char := ')'

def openBrace : Char := '\x7b'

def closeBrace : Char := '\x7d'

/-- The name that opens a block. -/
def repeatWord : Token := ['R', 'e', 'p', 'e', 'a', 't']

def blockEnd : Token := [closeBrace]

/-- Separators are ASCII; the other blanks are passed over like any stray character. -/
def isSeparator (c : Char) : Bool :=
  c = ' ' || c = '\t' || c = '\r' || c = '\n' || c.toNat = 12 || c.toNat = 11 || c = ';'

def isNameStart (c : Char) : Bool := Text.isLetter c || c = '_'

def isNameChar (c : Char) : Bool := Text.isLetter c || Text.isNumeral c || c = '_'

/-- What a stretch of the script turns out to be. -/
inductive Lexeme where
  /-- A token; the group of one that is not `closed` has lost its closing parenthesis. -/
  | token (text : Token) (group : Token) (closed : Bool)
  /-- A character that starts no token, with its place in the script. -/
  | stray (char : Char) (offset : Nat)
  deriving DecidableEq, Repr

/-- A group without its blanks, from inside `depth` open parentheses to the end of the outermost,
and the text after it; `none` where the text ends first. -/
def readGroup (depth : Nat) : List Char → Token × Option (List Char)
  | [] => ([], none)
  | c :: rest =>
    if Text.isBlank c then readGroup depth rest
    else if c = openParen then
      let (group, after) := readGroup (depth + 1) rest
      (c :: group, after)
    else if c = closeParen then
      if depth ≤ 1 then ([c], some rest)
      else
        let (group, after) := readGroup (depth - 1) rest
        (c :: group, after)
    else
      let (group, after) := readGroup depth rest
      (c :: group, after)

theorem length_dropWhile_le (p : α → Bool) (l : List α) : (l.dropWhile p).length ≤ l.length :=
  (List.dropWhile_suffix p).length_le

theorem readGroup_shorter {depth : Nat} {text after : List Char} {group : Token}
    (h : readGroup depth text = (group, some after)) : after.length < text.length := by
  induction text generalizing depth group with
  | nil => simp [readGroup] at h
  | cons c rest ih =>
    simp only [readGroup] at h
    split at h
    · exact Nat.lt_succ_of_lt (ih h)
    · split at h
      · simp only [Prod.mk.injEq] at h
        exact Nat.lt_succ_of_lt (ih (Prod.ext rfl h.2))
      · split at h
        · split at h
          · simp only [Prod.mk.injEq, Option.some.injEq] at h
            simp [h.2]
          · simp only [Prod.mk.injEq] at h
            exact Nat.lt_succ_of_lt (ih (Prod.ext rfl h.2))
        · simp only [Prod.mk.injEq] at h
          exact Nat.lt_succ_of_lt (ih (Prod.ext rfl h.2))

/-- After a call, the brace that makes it a block opener, if the call is a repeat. -/
def readBrace (name : Token) (after : List Char) : Token × List Char :=
  if name = repeatWord then
    match after.dropWhile Text.isBlank with
    | c :: rest => if c = openBrace then ([openBrace], rest) else ([], after)
    | [] => ([], after)
  else ([], after)

theorem length_readBrace_le (name : Token) (after : List Char) :
    (readBrace name after).2.length ≤ after.length := by
  unfold readBrace
  split
  · split
    · next c rest h =>
      split
      · have := length_dropWhile_le Text.isBlank after
        rw [h] at this
        simp only [List.length_cons] at this
        simp only
        omega
      · exact Nat.le_refl _
    · exact Nat.le_refl _
  · exact Nat.le_refl _

/-- Splits a script of `total` characters, from `text` on. -/
def lex (total : Nat) (text : List Char) : List Lexeme :=
  match text with
  | [] => []
  | c :: rest =>
    if isSeparator c then lex total rest
    else if c = closeBrace then .token blockEnd [] true :: lex total rest
    else if !isNameStart c then .stray c (total - (rest.length + 1)) :: lex total rest
    else
      let name := c :: rest.takeWhile isNameChar
      let after := rest.dropWhile isNameChar
      match _ha : after.dropWhile Text.isBlank with
      | [] => .token name [] true :: lex total after
      | d :: inside =>
        if d = openParen then
          match _hg : readGroup 1 inside with
          | (group, none) => [.token (name ++ openParen :: group) (openParen :: group) false]
          | (group, some behind) =>
            .token (name ++ openParen :: group ++ (readBrace name behind).1)
                (openParen :: group) true
              :: lex total (readBrace name behind).2
        else .token name [] true :: lex total after
termination_by text.length
decreasing_by
  · simp
  · simp
  · simp
  · have := length_dropWhile_le isNameChar rest
    simp only [List.length_cons]
    omega
  · have h₁ := length_dropWhile_le isNameChar rest
    have h₂ := length_dropWhile_le Text.isBlank (rest.dropWhile isNameChar)
    rw [_ha, List.length_cons] at h₂
    have h₃ := readGroup_shorter _hg
    have h₄ := length_readBrace_le (c :: rest.takeWhile isNameChar) behind
    simp only [List.length_cons]
    omega
  · have := length_dropWhile_le isNameChar rest
    simp only [List.length_cons]
    omega

namespace Lexeme

def token? : Lexeme → Option Token
  | token text _ _ => some text
  | stray _ _ => none

def logger : String := "duel.script.tokenizer"

def strayMessage (piece : List Char) (offset : Nat) : String :=
  "Skipping unexpected character " ++ String.ofList (Text.quotedChars piece) ++ " at offset " ++
    toString offset

def record? : Lexeme → Option Record
  | token _ _ true => none
  | token _ group false =>
    some ⟨.warning, logger, "Unterminated '(' in script: " ++ String.ofList group⟩
  | stray c offset =>
    some ⟨.debug, logger, strayMessage [c] offset⟩

end Lexeme

def lexemes (text : List Char) : List Lexeme := lex text.length text

def tokens (text : List Char) : List Token := (lexemes text).filterMap Lexeme.token?

/-- The tokens together with what there is to report. -/
def tokenize (text : List Char) : Logged (List Token) :=
  ⟨tokens text, (lexemes text).filterMap Lexeme.record?⟩

end MazeDuel.Script
