import MazeDuel.Script.Statement
/-!
Programs: the actions that a script asks for, in order. Tokens are grouped into statements and
repeat blocks, and blocks are then unrolled; a block that would unroll to too many actions is
repeated less often. Blocks inside each other take room while they are read, and there may be a
bound on how many can be open at a time.
-/

namespace MazeDuel.Script

/-- One statement, or a block that is repeated. -/
inductive Block where
  | statement (token : Token)
  | repeated (opener : Token) (body : List Block)
  deriving Inhabited

def isOpener (token : Token) : Bool :=
  (repeatWord ++ [openParen]).isPrefixOf token && token.getLast? == some openBrace

/-- The blocks up to the closer that ends them, and the tokens behind it; without such a closer
they go on to the end. -/
def blocks (tokens : List Token) : { r : List Block × List Token // r.2.length ≤ tokens.length } :=
  match tokens with
  | [] => ⟨([], []), Nat.le_refl _⟩
  | token :: rest =>
    if token = blockEnd then ⟨([], rest), Nat.le_succ _⟩
    else if isOpener token then
      let ⟨(body, behind), hb⟩ := blocks rest
      let ⟨(more, after), ha⟩ := blocks behind
      ⟨(.repeated token body :: more, after), Nat.le_trans ha (Nat.le_succ_of_le hb)⟩
    else
      let ⟨(more, after), ha⟩ := blocks rest
      ⟨(.statement token :: more, after), Nat.le_succ_of_le ha⟩
termination_by tokens.length
decreasing_by
  · simp
  · exact Nat.lt_succ_of_le hb
  · simp

def programLogger : String := "duel.script.parser"

/-- Counts of more digits are never read. -/
def maxCountDigits : Nat := 4300

/-- How often a block is repeated: the number between the parentheses of its opener. A count that is
no plain number is reported, and the block then runs once. -/
def repeatCount (token : Token) : Logged (Except Fault Nat) :=
  let opening := repeatWord ++ [openParen]
  let inner := if opening.isPrefixOf token then token.drop opening.length else []
  let digits := inner.takeWhile fun c => (Text.digitValue? c).isSome
  let ending := inner.drop digits.length
  if !digits.isEmpty ∧
      (ending = [closeParen, openBrace] ∨ ending = [closeParen, openBrace, '\n']) then
    if maxCountDigits < digits.length then pure (.error .countTooLong)
    else pure (.ok (Text.digitsValue digits))
  else do
    Logged.note .warning programLogger
      ("Malformed repeat count in " ++ String.ofList (Text.quotedChars token) ++
        ", running block once")
    return .ok 1

/-- The most actions one block unrolls to, unless its body alone is longer. -/
def maxUnrolled : Nat := 1000

/-- Repetitions beyond this number cannot be counted, not even of nothing. -/
def maxRepetitions : Nat := 0x7fffffffffffffff

/-- How many copies a block contributes of a body with `size` actions. -/
def cappedCount (count size : Nat) : Nat :=
  if 0 < size ∧ maxUnrolled < count * size then max 1 (maxUnrolled / size) else count

/-- The copies of an unrolled body. -/
def repeatBody (player : Player) (opener : Token) (count : Nat) (body : List Action) :
    Logged (Except Fault (List Action)) := do
  let capped := cappedCount count body.length
  if 0 < body.length ∧ maxUnrolled < count * body.length then
    Logged.note .warning programLogger
      (word player ++ ": " ++ String.ofList (Text.quotedChars opener) ++ " unrolls to " ++
        toString (count * body.length) ++ " actions, capping at " ++ toString capped ++
        " repeat(s)")
  if body.isEmpty then
    return if maxRepetitions < count then .error .countTooLarge else .ok []
  else return .ok (List.replicate capped body).flatten

/-- What is reported of a block does not change what it unrolls to. -/
theorem value_repeatBody (player : Player) (opener : Token) (count : Nat) (body : List Action) :
    (repeatBody player opener count body).value =
      if body.isEmpty then
        if maxRepetitions < count then .error .countTooLarge else .ok []
      else .ok (List.replicate (cappedCount count body.length) body).flatten := by
  unfold repeatBody
  dsimp only
  split <;> split <;> rfl

mutual

/-- The actions of a block, with room for so many open blocks if there is a bound. -/
def Block.unroll (player : Player) (block : Block) (room : Option Nat := none) :
    Logged (Except Fault (List Action)) :=
  match block with
  | .statement token => (fun a => .ok a.toList) <$> resolve player token
  | .repeated opener body => do
    match ← repeatCount opener with
    | .error fault => return .error fault
    | .ok count =>
      if room = some 0 then return .error .nestedTooDeep
      else
        match ← unrollAll player body (room.map (· - 1)) with
        | .error fault => return .error fault
        | .ok actions => repeatBody player opener count actions

def unrollAll (player : Player) (blocks : List Block) (room : Option Nat := none) :
    Logged (Except Fault (List Action)) :=
  match blocks with
  | [] => pure (.ok [])
  | block :: rest => do
    match ← block.unroll player room with
    | .error fault => return .error fault
    | .ok first =>
      match ← unrollAll player rest room with
      | .error fault => return .error fault
      | .ok more => return .ok (first ++ more)

end

/-- The actions of the tokens up to the first closer that closes no block, and the number of tokens
read with it. -/
def parseSequence (player : Player) (tokens : List Token) (room : Option Nat := none) :
    Logged (Except Fault (List Action × Nat)) :=
  let ⟨(found, behind), _⟩ := blocks tokens
  (fun r => r.map fun actions => (actions, tokens.length - behind.length)) <$>
    unrollAll player found room

/-- The tokens from an index on. A negative index counts from the end, and after the end come all
tokens from the start. -/
def tokensFrom (tokens : List Token) (index : Int) : Except Fault (List Token) :=
  if 0 ≤ index then .ok (tokens.drop index.toNat)
  else if tokens.length + index < 0 then .error .noSuchItem
  else .ok (tokens.drop (tokens.length + index).toNat ++ tokens)

/-- The actions of the tokens from an index on, and the index behind what has been read. -/
def parseSequenceFrom (player : Player) (tokens : List Token) (index : Int) :
    Logged (Except Fault (List Action × Int)) :=
  match tokensFrom tokens index with
  | .error fault => pure (.error fault)
  | .ok ahead =>
    (fun r => r.map fun (actions, read) => (actions, index + read)) <$> parseSequence player ahead

/-- The actions of a whole token list; a closer too many ends the script early. -/
def parseTokens (player : Player) (tokens : List Token) (room : Option Nat := none) :
    Logged (Except Fault (List Action)) := do
  match ← parseSequence player tokens room with
  | .error fault => return .error fault
  | .ok (actions, read) =>
    if read < tokens.length then
      Logged.note .debug programLogger
        (word player ++ ": stray '\x7d' ended the script early, " ++
          toString (tokens.length - read) ++ " token(s) ignored")
    return .ok actions

def parse (player : Player) (script : String) (room : Option Nat := none) :
    Logged (Except Fault (List Action)) := do
  parseTokens player (← tokenize script.toList) room

end MazeDuel.Script
