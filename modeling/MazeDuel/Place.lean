import MazeDuel.Cell
import MazeDuel.Number.Quantity
/-!
Places: where something stands, or what a shot is aimed at. A place is a cell of the plane. Any
other row of values may be given in its stead; it is kept as it was given, and it is equal to a
cell when its two numbers are.
-/

namespace MazeDuel

inductive Place where
  | cell (c : Cell)
  | row (values : List Json)
  deriving BEq, Inhabited

namespace Place

instance : Coe Cell Place := ⟨cell⟩

/-- The place of a row of values: two whole numbers are a cell. -/
def ofValues : List Json → Place
  | [.whole x, .whole y] => cell ⟨x, y⟩
  | values => row values

def values : Place → List Json
  | cell c => [.whole c.x, .whole c.y]
  | row values => values

@[simp] theorem ofValues_values_cell (c : Cell) : ofValues (cell c).values = cell c := rfl

/-- The whole number that a value is equal to. -/
def coordinate? (value : Json) : Option Int := (Quantity.ofJson? value).bind Quantity.integral?

def cell? : Place → Option Cell
  | cell c => some c
  | row [x, y] => do return ⟨← coordinate? x, ← coordinate? y⟩
  | row _ => none

@[simp] theorem cell?_cell (c : Cell) : (cell c).cell? = some c := rfl

def same (p q : Place) : Bool :=
  match p.cell?, q.cell? with
  | some a, some b => a == b
  | none, none => Json.sameAll p.values q.values
  | _, _ => false

@[simp] theorem same_cell (a b : Cell) : (cell a).same (cell b) = (a == b) := rfl

def display (p : Place) : String :=
  match p.values with
  | [value] => "(" ++ value.display ++ ",)"
  | values => "(" ++ ", ".intercalate (values.map Json.display) ++ ")"

def hasText (p : Place) : Bool := Json.haveTexts p.values

def toJson (p : Place) : Json := .list p.values

/-- Whether anything can be noted under the place: only under values that are not made of others. -/
def isKey (p : Place) : Bool :=
  p.values.all fun
    | .list _ | .object _ => false
    | _ => true

@[simp] theorem isKey_cell (c : Cell) : (cell c).isKey = true := rfl

end Place

end MazeDuel
