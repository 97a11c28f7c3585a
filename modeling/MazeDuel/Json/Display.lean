import MazeDuel.Json.Basic
import MazeDuel.Number.Integer
import MazeDuel.Number.Shortest
import MazeDuel.Text.Quoted
/-!
How messages show a value they were given: texts in quotes, absent values as `None`, and the name
of the class a value belongs to.
-/

namespace MazeDuel.Json

/-- Whole numbers from this size on have too many digits for any text. -/
@[irreducible]
def tooLong : Nat := Nat.pow 10 Number.maxDigits

mutual

/-- Whether every whole number in a value can be shown in a text. -/
def hasText : Json → Bool
  | .whole value => value.natAbs < tooLong
  | .list items => haveTexts items
  | .object members => membersHaveTexts members
  | _ => true

def haveTexts : List Json → Bool
  | [] => true
  | item :: items => hasText item && haveTexts items

def membersHaveTexts : List (String × Json) → Bool
  | [] => true
  | (_, value) :: members => hasText value && membersHaveTexts members

end

mutual

def display : Json → String
  | .null => "None"
  | .bool value => if value then "True" else "False"
  | .whole value => toString value
  | .real value => Number.render .plain value
  | .text value => Text.quoted value
  | .list [] => "[]"
  | .list (item :: items) => "[" ++ display item ++ displayItems items ++ "]"
  | .object [] => "\x7b\x7d"
  | .object ((key, value) :: members) =>
    "\x7b" ++ Text.quoted key ++ ": " ++ display value ++ displayMembers members ++ "\x7d"

def displayItems : List Json → String
  | [] => ""
  | item :: items => ", " ++ display item ++ displayItems items

def displayMembers : List (String × Json) → String
  | [] => ""
  | (key, value) :: members =>
    ", " ++ Text.quoted key ++ ": " ++ display value ++ displayMembers members

end

/-- The value as running text: a text stands for itself, without quotes. -/
def plainText : Json → String
  | .text value => value
  | other => other.display

def className : Json → String
  | .null => "NoneType"
  | .bool _ => "bool"
  | .whole _ => "int"
  | .real _ => "float"
  | .text _ => "str"
  | .list _ => "list"
  | .object _ => "dict"

end MazeDuel.Json
