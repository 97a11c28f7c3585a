import MazeDuel.Vocabulary
import MazeDuel.Text.Blank
/-!
The two players, and pairs that hold one thing for each of them.
-/

namespace MazeDuel

inductive Player where
  | a
  | b
  deriving DecidableEq, Repr, Inhabited

namespace Player

def other : Player → Player
  | a => b
  | b => a

@[simp] theorem other_other (p : Player) : p.other.other = p := by cases p <;> rfl

theorem other_ne (p : Player) : p.other ≠ p := by cases p <;> decide

instance : Vocabulary Player where
  kind := "Player"
  all := [a, b]
  word
    | a => "A"
    | b => "B"
  find_word p := by cases p <;> decide

/-- The letter of the player in either case, with any blanks around it. -/
def ofText? (text : String) : Option Player :=
  match Text.trim text.toList with
  | ['a'] | ['A'] => some a
  | ['b'] | ['B'] => some b
  | _ => none

theorem ofText?_word (p : Player) : ofText? (word p) = some p := by cases p <;> decide

end Player

/-- One thing for each player. -/
structure Duo (α : Type) where
  a : α
  b : α
  deriving DecidableEq, Repr, Inhabited

namespace Duo

def get (d : Duo α) : Player → α
  | .a => d.a
  | .b => d.b

def set (d : Duo α) (p : Player) (x : α) : Duo α :=
  match p with
  | .a => { d with a := x }
  | .b => { d with b := x }

def modify (d : Duo α) (p : Player) (f : α → α) : Duo α := d.set p (f (d.get p))

def map (f : α → β) (d : Duo α) : Duo β := ⟨f d.a, f d.b⟩

@[simp] theorem get_set_self (d : Duo α) (p : Player) (x : α) : (d.set p x).get p = x := by
  cases p <;> rfl

@[simp] theorem get_set_other (d : Duo α) (p : Player) (x : α) :
    (d.set p x).get p.other = d.get p.other := by
  cases p <;> rfl

theorem get_set (d : Duo α) (p q : Player) (x : α) :
    (d.set p x).get q = if q = p then x else d.get q := by
  cases p <;> cases q <;> rfl

@[simp] theorem set_get (d : Duo α) (p : Player) : d.set p (d.get p) = d := by
  cases p <;> rfl

@[simp] theorem get_map (f : α → β) (d : Duo α) (p : Player) : (d.map f).get p = f (d.get p) := by
  cases p <;> rfl

end Duo

end MazeDuel
