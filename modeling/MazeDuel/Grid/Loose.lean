import MazeDuel.Place
/-!
Loose entries: what was noted on a grid under places that are no cells, and the forms in which cells
were given that are not their own.
-/

namespace MazeDuel

structure Loose (α : Type) where
  /-- The entries under places that are no cells, in the order in which they came. -/
  entries : List (Place × α) := []
  /-- Cells that were first given in another form, with that form. -/
  forms : List (Cell × Place) := []
  deriving Inhabited

namespace Loose

def find? (t : Loose α) (p : Place) : Option α := (t.entries.find? (·.1.same p)).map (·.2)

/-- The entries with one more, or with one replaced; a replaced entry keeps its place. -/
def insert (t : Loose α) (p : Place) (a : α) : Loose α :=
  if t.entries.any (·.1.same p) then
    { t with entries := t.entries.map fun entry => if entry.1.same p then (entry.1, a) else entry }
  else { t with entries := t.entries ++ [(p, a)] }

def erase (t : Loose α) (p : Place) : Loose α :=
  { t with entries := t.entries.eraseP (·.1.same p) }

def form (t : Loose α) (c : Cell) : Place :=
  match t.forms.find? (·.1 == c) with
  | some entry => entry.2
  | none => .cell c

def setForm (t : Loose α) (c : Cell) (p : Place) : Loose α :=
  let forms := t.forms.filter (·.1 != c)
  match p with
  | .cell _ => { t with forms }
  | .row _ => { t with forms := (c, p) :: forms }

@[simp] theorem find?_empty (p : Place) : ({} : Loose α).find? p = none := rfl

@[simp] theorem form_empty (c : Cell) : ({} : Loose α).form c = .cell c := rfl

@[simp] theorem setForm_empty (c d : Cell) : ({} : Loose α).setForm c (.cell d) = {} := rfl

end Loose

end MazeDuel
