import MazeDuel.Json.Basic
import MazeDuel.Number.Shortest
import MazeDuel.Text.Quoted
/-!
JSON text of a value, on one line or indented. Characters beyond ASCII stand for themselves.
-/

namespace MazeDuel.Json

/-- How items and keys are set apart, and what each level is set in by (`none`: one line). -/
structure Style where
  comma : String
  colon : String
  indent : Option String

/-- One line with a blank after each comma and colon. -/
def Style.spaced : Style := ⟨", ", ": ", none⟩

/-- One line with no blanks at all. -/
def Style.compact : Style := ⟨",", ":", none⟩

/-- One item a line, with one more `unit` in front of it for each level. -/
def Style.indented (unit : String) : Style := ⟨",", ": ", some unit⟩

def Style.break (style : Style) (level : Nat) : String :=
  match style.indent with
  | none => ""
  | some unit => "\n" ++ String.join (List.replicate level unit)

def escapeChar (c : Char) : List Char :=
  if c = Text.doubleQuote ∨ c = Text.backslash then [Text.backslash, c]
  else if c = '\n' then [Text.backslash, 'n']
  else if c = '\r' then [Text.backslash, 'r']
  else if c = '\t' then [Text.backslash, 't']
  else if c.toNat = 8 then [Text.backslash, 'b']
  else if c.toNat = 12 then [Text.backslash, 'f']
  else if c.toNat < 32 then Text.backslash :: 'u' :: Text.hex 4 c.toNat
  else [c]

def printText (text : String) : String :=
  String.ofList (Text.doubleQuote :: text.toList.flatMap escapeChar ++ [Text.doubleQuote])

/-- Finite floats are written shortest; the three others by their names. -/
def printReal (x : Float) : String :=
  Number.render ⟨16, 3, "Infinity", "NaN"⟩ x

mutual

def printAt (style : Style) (level : Nat) : Json → String
  | .null => "null"
  | .bool value => if value then "true" else "false"
  | .whole value => toString value
  | .real value => printReal value
  | .text value => printText value
  | .list [] => "[]"
  | .list (item :: items) =>
    "[" ++ style.break (level + 1) ++ printAt style (level + 1) item ++
      printItems style (level + 1) items ++ style.break level ++ "]"
  | .object [] => "\x7b\x7d"
  | .object ((key, value) :: members) =>
    "\x7b" ++ style.break (level + 1) ++ printText key ++ style.colon ++
      printAt style (level + 1) value ++
      printMembers style (level + 1) members ++ style.break level ++ "\x7d"

def printItems (style : Style) (level : Nat) : List Json → String
  | [] => ""
  | item :: items =>
    style.comma ++ style.break level ++ printAt style level item ++ printItems style level items

def printMembers (style : Style) (level : Nat) : List (String × Json) → String
  | [] => ""
  | (key, value) :: members =>
    style.comma ++ style.break level ++ printText key ++ style.colon ++ printAt style level value ++
      printMembers style level members

end

def print (style : Style) (value : Json) : String := printAt style 0 value

end MazeDuel.Json
