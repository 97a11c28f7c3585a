/-!
JSON values. Whole numbers and reals are kept apart, as written, and an object keeps its members
in order, each key once.
-/

namespace MazeDuel

inductive Json where
  | null
  | bool (value : Bool)
  | whole (value : Int)
  | real (value : Float)
  | text (value : String)
  | list (items : List Json)
  | object (members : List (String × Json))
  deriving BEq, Repr, Inhabited

namespace Json

mutual

/-- Values are equal if all their parts are; reals are compared as they are stored. -/
def decEq : (a b : Json) → Decidable (a = b)
  | .null, b => match b with
    | .null => isTrue rfl
    | .bool _ | .whole _ | .real _ | .text _ | .list _ | .object _ => isFalse nofun
  | .bool x, b => match b with
    | .bool y => decidable_of_iff (x = y) (by simp)
    | .null | .whole _ | .real _ | .text _ | .list _ | .object _ => isFalse nofun
  | .whole x, b => match b with
    | .whole y => decidable_of_iff (x = y) (by simp)
    | .null | .bool _ | .real _ | .text _ | .list _ | .object _ => isFalse nofun
  | .real x, b => match b with
    | .real y => decidable_of_iff (x = y) (by simp)
    | .null | .bool _ | .whole _ | .text _ | .list _ | .object _ => isFalse nofun
  | .text x, b => match b with
    | .text y => decidable_of_iff (x = y) (by simp)
    | .null | .bool _ | .whole _ | .real _ | .list _ | .object _ => isFalse nofun
  | .list x, b => match b with
    | .list y => @decidable_of_iff _ (x = y) (by simp) (decEqItems x y)
    | .null | .bool _ | .whole _ | .real _ | .text _ | .object _ => isFalse nofun
  | .object x, b => match b with
    | .object y => @decidable_of_iff _ (x = y) (by simp) (decEqMembers x y)
    | .null | .bool _ | .whole _ | .real _ | .text _ | .list _ => isFalse nofun

def decEqItems : (a b : List Json) → Decidable (a = b)
  | [], [] => isTrue rfl
  | [], _ :: _ | _ :: _, [] => isFalse nofun
  | x :: xs, y :: ys =>
    have := decEq x y
    have := decEqItems xs ys
    decidable_of_iff (x = y ∧ xs = ys) (by simp)

def decEqMembers : (a b : List (String × Json)) → Decidable (a = b)
  | [], [] => isTrue rfl
  | [], _ :: _ | _ :: _, [] => isFalse nofun
  | (k, x) :: xs, (l, y) :: ys =>
    have := decEq x y
    have := decEqMembers xs ys
    decidable_of_iff ((k = l ∧ x = y) ∧ xs = ys) (by simp)

end

instance : DecidableEq Json := decEq

/-- Puts a value under a key: in place of the old one, or at the end. -/
def insertMember (members : List (String × Json)) (key : String) (value : Json) :
    List (String × Json) :=
  if members.any (·.1 == key) then
    members.map fun member => if member.1 == key then (key, value) else member
  else members ++ [(key, value)]

/-- The object with the given members; of two with one key the later value counts, in the place of
the earlier. -/
def ofMembers (members : List (String × Json)) : Json :=
  .object (members.foldl (fun acc member => insertMember acc member.1 member.2) [])

def find? (object : Json) (key : String) : Option Json :=
  match object with
  | .object members => (members.find? (·.1 == key)).map (·.2)
  | _ => none

def findD (object : Json) (key : String) (fallback : Json) : Json :=
  (object.find? key).getD fallback

def insert (object : Json) (key : String) (value : Json) : Json :=
  match object with
  | .object members => .object (insertMember members key value)
  | other => other

def erase (object : Json) (key : String) : Json :=
  match object with
  | .object members => .object (members.filter (·.1 != key))
  | other => other

def modify (object : Json) (key : String) (f : Json → Json) : Json :=
  match object with
  | .object members =>
    .object (members.map fun member => if member.1 == key then (key, f member.2) else member)
  | other => other

/-- Whether a value counts as present: not null, false, zero or empty. -/
def isPresent : Json → Bool
  | .null => false
  | .bool value => value
  | .whole value => value != 0
  | .real value => value != 0
  | .text value => !value.isEmpty
  | .list items => !items.isEmpty
  | .object members => !members.isEmpty

/-- The number of characters, items or members; numbers and the like have no length. -/
def length? : Json → Option Nat
  | .text value => some value.length
  | .list items => some items.length
  | .object members => some members.length
  | _ => none

def ofOption (f : α → Json) : Option α → Json
  | none => .null
  | some a => f a

end Json

end MazeDuel
