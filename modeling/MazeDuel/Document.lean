import MazeDuel.Fault
import MazeDuel.Powerup
/-!
Documents of the small values: how words, cells and numbers are written as JSON and read back.
-/

namespace MazeDuel

namespace Json

/-- The member of an object under a key that must be there. -/
def field (data : Json) (key : String) : Except Fault Json :=
  match data with
  | .object _ =>
    match data.find? key with
    | some value => .ok value
    | none => .error (.missingKey key)
  | _ => .error .wrongType

/-- The member of an object, or `fallback` where it is missing; nothing else has members. -/
def fieldD (data : Json) (key : String) (fallback : Json) : Except Fault Json :=
  match data with
  | .object _ => .ok (data.findD key fallback)
  | _ => .error .noMembers

/-- A whole number; a truth value counts as one or zero. -/
def toInt : Json → Except Fault Int
  | .whole n => .ok n
  | .bool b => .ok (if b then 1 else 0)
  | _ => .error .wrongType

def toQuantity (value : Json) : Except Fault Quantity :=
  match Quantity.ofJson? value with
  | some q => .ok q
  | none => .error .wrongType

def toText : Json → Except Fault String
  | .text s => .ok s
  | _ => .error .wrongType

def toList : Json → Except Fault (List Json)
  | .list items => .ok items
  | _ => .error .wrongType

/-- The things that a value is made of: the items of a list, the characters of a text, the keys of
an object. -/
def parts : Json → Except Fault (List Json)
  | .list items => .ok items
  | .text s => .ok (s.toList.map fun c => .text c.toString)
  | .object members => .ok (members.map fun member => .text member.1)
  | _ => .error .wrongType

def texts (items : List String) : Json := .list (items.map .text)

end Json

theorem Quantity.toQuantity_toJson (q : Quantity) : q.toJson.toQuantity = .ok q := by
  cases q <;> rfl

/-- A number is kept as it was given. -/
theorem Json.toQuantity_eq_ok_iff {value : Json} {q : Quantity} :
    value.toQuantity = .ok q ↔ q.toJson = value := by
  constructor
  · intro h
    cases value
    case bool | whole | real =>
      rw [← Except.ok.inj h]
      rfl
    case null | text | list | object => cases h
  · rintro rfl
    exact q.toQuantity_toJson

def wordJson [Vocabulary α] (a : α) : Json := .text (word a)

def readWord [Vocabulary α] (value : Json) : Except Fault α :=
  match value with
  | .text text =>
    match ofWord? text with
    | some a => .ok a
    | none => .error (.unknownWord value (Vocabulary.kind α))
  | _ => .error (.unknownWord value (Vocabulary.kind α))

@[simp] theorem readWord_wordJson [Vocabulary α] (a : α) :
    readWord (wordJson a) = .ok a := by
  simp [readWord, wordJson]

def Player.ofJson (value : Json) : Except Fault Player :=
  match value with
  | .text text =>
    match Player.ofText? text with
    | some p => .ok p
    | none => .error (.unknownPlayer value)
  | _ => .error (.unknownPlayer value)

theorem Player.ofJson_eq_ok_iff {text : String} {p : Player} :
    Player.ofJson (.text text) = .ok p ↔ Player.ofText? text = some p := by
  unfold Player.ofJson
  cases hread : Player.ofText? text with
  | none => simp [hread]
  | some q => simp [hread]

def Cell.toJson (c : Cell) : Json := .list [.whole c.x, .whole c.y]

namespace Place

/-- The place of a row of values, in whatever form the row is given. -/
def ofJson (value : Json) : Except Fault Place := ofValues <$> value.parts

@[simp] theorem ofJson_toJson (c : Cell) : ofJson (cell c).toJson = .ok (cell c) := rfl

end Place

end MazeDuel
