import MazeDuel.Action
import MazeDuel.Script.Token
/-!
Statements: the action that a single token stands for. A shot must name the radar; what stands
before it are the modifiers of the aim, what stands after it is ignored. A token that stands for no
action is reported and dropped.
-/

namespace MazeDuel.Script

def radarWord : Token := ['R', 'a', 'd', 'a', 'r']

def shootWord : Token := ['S', 'h', 'o', 'o', 't']

def waitWord : Token := ['W', 'a', 'i', 't']

def statementLogger : String := "duel.script.resolver"

/-- The token without one last closing parenthesis. -/
def dropClose (text : Token) : Token :=
  if text.getLast? = some closeParen then text.dropLast else text

/-- The name of a call and its arguments; a bare name has none. -/
def splitCall (token : Token) : Token × Option Token :=
  match token.dropWhile (· ≠ openParen) with
  | [] => (token, none)
  | _ :: inner => (token.takeWhile (· ≠ openParen), some (dropClose inner))

def consPiece (c : Char) : List Token → List Token
  | [] => [[c]]
  | piece :: pieces => (c :: piece) :: pieces

/-- The pieces between semicolons outside parentheses; a closing parenthesis too many is not
counted. -/
def pieces (depth : Nat) : List Char → List Token
  | [] => [[]]
  | c :: rest =>
    let depth := if c = openParen then depth + 1 else if c = closeParen then depth - 1 else depth
    if c = ';' ∧ depth = 0 then [] :: pieces depth rest else consPiece c (pieces depth rest)

/-- The arguments of a call, trimmed, without the blank ones. -/
def splitArguments (args : Token) : List Token :=
  ((pieces 0 args).map Text.trim).filter (!·.isEmpty)

/-- Takes an empty pair of parentheses from the end of a word. -/
def dropEmptyCall (text : Token) : Token :=
  if [openParen, closeParen].isSuffixOf text then text.take (text.length - 2) else text

def argumentWords (args : Token) : List Token := (splitArguments args).map dropEmptyCall

def displayWords (texts : List Token) : String :=
  "[" ++ ", ".intercalate (texts.map fun t => String.ofList (Text.quotedChars t)) ++ "]"

/-- The modifiers among some words; the others are reported and dropped. -/
def knownModifiers : List Token → Logged (List Modifier)
  | [] => pure []
  | text :: rest =>
    match (ofWord? (String.ofList text) : Option Modifier) with
    | some m => (m :: ·) <$> knownModifiers rest
    | none => do
      Logged.note .warning statementLogger
        ("Unknown Shoot modifier " ++ String.ofList (Text.quotedChars text) ++ " skipped")
      knownModifiers rest

/-- The modifiers before the radar among the arguments of a shot; `none` where no radar is named. -/
def shotModifiers (args : Token) : Logged (Option (List Modifier)) :=
  let texts := argumentWords args
  if texts.contains radarWord then do
    let behind := (texts.dropWhile (· ≠ radarWord)).drop 1
    unless behind.isEmpty do
      Logged.note .debug statementLogger
        ("Ignoring Shoot arguments after Radar: " ++ displayWords behind)
    some <$> knownModifiers (texts.takeWhile (· ≠ radarWord))
  else pure none

def moveOf? (name : Token) : Option MoveDir := MoveDir.all.find? fun dir => dir.token.toList == name

/-- Whether a token opens a call that it does not close at its end. -/
def isUnterminated (token : Token) : Bool :=
  token.contains openParen && token.getLast? != some closeParen

def resolve (player : Player) (token : Token) : Logged (Option Action) :=
  let warn (text : String) : Logged (Option Action) := do
    Logged.note .warning statementLogger (word player ++ ": " ++ text)
    return none
  let shown := String.ofList (Text.quotedChars token)
  if isUnterminated token then warn ("unterminated call " ++ shown)
  else
    let (name, args) := splitCall token
    let bare := (args.getD []).isEmpty
    match moveOf? name with
    | some dir =>
      if bare then pure (some ⟨player, .move dir⟩) else warn ("unknown command " ++ shown)
    | none =>
      if name = waitWord ∧ bare then pure (some ⟨player, .wait⟩)
      else if name = shootWord then
        if bare then warn "Shoot without arguments is not allowed, use Shoot(...;Radar)"
        else do
          match ← shotModifiers (args.getD []) with
          | some modifiers => return some ⟨player, .shoot modifiers⟩
          | none => warn ("rejected " ++ String.ofList token ++ " (missing Radar)")
      else warn ("unknown command " ++ shown)

end MazeDuel.Script
