import MazeDuel.Script.Program
/-!
Scripts as they are given. A script is a text; a value that is not present stands for the empty
script, and a list is read piece by piece as if each piece were a character. No other value can be
read.
-/

namespace MazeDuel.Script

/-- A token of a list of pieces. A name keeps its pieces: it is no text, so no action is called by
it. -/
inductive Scrap where
  | closer
  | name (pieces : List (List Char))

def Scrap.toJson : Scrap → Json
  | closer => .text (String.ofList blockEnd)
  | name pieces => .list (pieces.map fun piece => .text (String.ofList piece))

/-- Whether a test holds for all characters of a piece, of which there must be some. -/
def allOf (test : Char → Bool) (piece : List Char) : Bool := !piece.isEmpty && piece.all test

def startsName (piece : List Char) : Bool := piece == ['_'] || allOf Text.isLetter piece

def goesOnName (piece : List Char) : Bool :=
  piece == ['_'] || allOf (fun c => Text.isLetter c || Text.isNumeral c) piece

/-- A piece as a text; nothing else can be asked what it is made of. -/
def pieceText : Json → Except Fault (List Char)
  | .text text => .ok text.toList
  | _ => .error .noMembers

/-- The pieces that go on with a name, and those behind it. -/
def restOfName : List Json → Except Fault (List (List Char) × List Json)
  | [] => .ok ([], [])
  | piece :: rest => do
    let text ← pieceText piece
    if goesOnName text then
      let (name, after) ← restOfName rest
      return (text :: name, after)
    else return ([], piece :: rest)

/-- Whether an open parenthesis comes next, blanks aside, and what is inside it. -/
def openGroup : List Json → Except Fault (Option (List Json))
  | [] => .ok none
  | piece :: rest => do
    let text ← pieceText piece
    if allOf Text.isBlank text then openGroup rest
    else return if text = [openParen] then some rest else none

/-- A group without its blanks, from inside `depth` open parentheses on, and whether it is closed.
-/
def groupOfPieces (depth : Nat) : List Json → Except Fault (Token × Bool)
  | [] => .ok ([], false)
  | piece :: rest => do
    let text ← pieceText piece
    if allOf Text.isBlank text then groupOfPieces depth rest
    else if text = [closeParen] ∧ depth ≤ 1 then return (text, true)
    else
      let depth := if text = [openParen] then depth + 1
        else if text = [closeParen] then depth - 1
        else depth
      let (group, closed) ← groupOfPieces depth rest
      return (text ++ group, closed)

/-- The tokens of a list of `total` pieces, from some piece on. A name cannot be called: a group
behind it is read, and that is the end. Every round takes at least one piece, which bounds the
fuel. -/
def scraps (total : Nat) : Nat → List Json → Logged (Except Fault (List Scrap))
  | 0, _ => pure (.ok [])
  | _ + 1, [] => pure (.ok [])
  | fuel + 1, piece :: rest =>
    let later := scraps total fuel rest
    match piece with
    | .text text =>
      let text := text.toList
      if allOf isSeparator text ∧ text.length = 1 then later
      else if text = blockEnd then (fun r => r.map (.closer :: ·)) <$> later
      else if startsName text then
        match restOfName rest with
        | .error fault => pure (.error fault)
        | .ok (name, after) =>
          match openGroup after with
          | .error fault => pure (.error fault)
          | .ok none => (fun r => r.map (.name (text :: name) :: ·)) <$> scraps total fuel after
          | .ok (some inside) =>
            match groupOfPieces 1 inside with
            | .error fault => pure (.error fault)
            | .ok (group, closed) =>
              let lexeme := Lexeme.token [] (openParen :: group) closed
              ⟨.error .noMembers, lexeme.record?.toList⟩
      else do
        Logged.note .debug Lexeme.logger (Lexeme.strayMessage text (total - (rest.length + 1)))
        later
    | .list _ | .object _ => pure (.error .wrongType)
    | _ => pure (.error .noMembers)

def scrapsOf (pieces : List Json) : Logged (Except Fault (List Scrap)) :=
  scraps pieces.length pieces.length pieces

def unreadable : Json → Fault
  | .object _ => .noItem 0
  | _ => .wrongType

/-- The tokens of a script in whatever form it is given. -/
def tokenizeGiven (script : Json) : Logged (Except Fault (List Json)) :=
  match script with
  | .text text =>
    (fun tokens => .ok (tokens.map fun token => .text (String.ofList token))) <$>
      tokenize text.toList
  | .list pieces => (fun r => r.map (List.map Scrap.toJson)) <$> scrapsOf pieces
  | script => pure (if script.isPresent then .error (unreadable script) else .ok [])

/-- The program of a list of pieces: a closer at its beginning ends it, and a name has no action. -/
def parseScraps (player : Player) : List Scrap → Logged (Except Fault (List Action))
  | .name _ :: _ => pure (.error .noMembers)
  | scraps => parseTokens player (scraps.map fun _ => blockEnd)

/-- The program of a script in whatever form it is given. -/
def parseGiven (player : Player) (script : Json) : Logged (Except Fault (List Action)) :=
  match script with
  | .text text => parse player text
  | .list pieces => do
    match ← scrapsOf pieces with
    | .ok scraps => parseScraps player scraps
    | .error fault => return .error fault
  | script => pure (if script.isPresent then .error (unreadable script) else .ok [])

@[simp] theorem parseGiven_text (player : Player) (text : String) :
    parseGiven player (.text text) = parse player text := rfl

end MazeDuel.Script
