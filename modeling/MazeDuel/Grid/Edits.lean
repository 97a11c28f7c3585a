import MazeDuel.Grid.Basic
/-!
Edits: the operations that change a grid, as data. Each is given twice, by the grid that it makes
and write by write on one grid, so that what a failed one has written so far stays. That the two
agree wherever walls are noted of just the cells in bounds is `Edit.on_inPlace`.
-/

namespace MazeDuel.Grid

/-- An operation that changes a grid. -/
inductive Edit where
  | addWall (c : Cell) (side : Facing)
  | removeWall (c : Cell) (side : Facing)
  | carveBetween (a b : Cell)
  | setExit (c : Cell)
  | placePowerup (c : Cell) (kind : Powerup)
  | takePowerup (c : Cell)

namespace Edit

def apply (g : Grid) : Edit → Except Fault Grid
  | addWall c side => g.addWall c side
  | removeWall c side => g.removeWall c side
  | carveBetween a b => g.carveBetween a b
  | setExit c => g.setExit c
  | placePowerup c kind => g.placePowerup c kind
  | takePowerup c => .ok (g.takePowerup c).2

/-- Whether an edit speaks of cells that it can be made at. -/
def Fits (g : Grid) : Edit → Prop
  | addWall c _ | removeWall c _ | setExit c | placePowerup c _ => g.inBounds c = true
  | carveBetween a b => g.inBounds a = true ∧ ∃ side : Facing, side.step a = b
  | takePowerup _ => True

end Edit

/-- Work on a grid: what has been written stays, also when the work fails. -/
abbrev InPlace := ExceptT Fault (StateM Grid)

namespace InPlace

def noteWall (c : Cell) (side : Facing) (up : Bool) : InPlace Unit := do
  match (← get).walls[c]? with
  | some sides => modify fun g => { g with walls := g.walls.insert c (sides.set side up) }
  | none => throw (.unknownPlace c)

def setWall (c : Cell) (side : Facing) (up : Bool) : InPlace Unit := do
  noteWall c side up
  if (← get).inBounds (side.step c) then noteWall (side.step c) side.opposite up

def carveBetween (a b : Cell) : InPlace Unit :=
  match Facing.all.find? fun f => f.step a == b with
  | some side => setWall a side false
  | none => throw (.notAdjacent a b)

def setExit (c : Cell) : InPlace Unit := do
  let g ← get
  if !g.inBounds c then throw (.exitOutside c g.widthJson g.heightJson)
  set { g with exit := some (.cell c) }

def placePowerup (c : Cell) (kind : Powerup) : InPlace Unit := do
  let g ← get
  if !g.inBounds c then throw (.powerupOutside c)
  set { g with powerups := g.powerups.insert c kind }

def takePowerup (c : Cell) : InPlace Unit :=
  modify fun g => { g with powerups := g.powerups.erase c }

/-- What the work answers, and the grid that it leaves. -/
def on (work : InPlace α) (g : Grid) : Except Fault α × Grid := (work.run.run g).run

theorem on_bind (work : InPlace α) (next : α → InPlace β) (g : Grid) :
    (work >>= next).on g = match work.on g with
      | (.ok a, g') => (next a).on g'
      | (.error fault, g') => (.error fault, g') := by
  unfold on ExceptT.run StateT.run Id.run
  simp only [bind, ExceptT.bind, ExceptT.mk, StateT.bind, ExceptT.bindCont]
  cases work g with
  | mk answer g' => cases answer <;> rfl

@[simp] theorem on_pure (a : α) (g : Grid) : (pure a : InPlace α).on g = (.ok a, g) := rfl

@[simp] theorem on_get (g : Grid) : (get : InPlace Grid).on g = (.ok g, g) := rfl

@[simp] theorem on_set (g g' : Grid) : (set g' : InPlace PUnit).on g = (.ok ⟨⟩, g') := rfl

@[simp] theorem on_modify (change : Grid → Grid) (g : Grid) :
    (modify change : InPlace PUnit).on g = (.ok ⟨⟩, change g) := rfl

@[simp] theorem on_throw (fault : Fault) (g : Grid) :
    (throw fault : InPlace α).on g = (.error fault, g) := rfl

end InPlace

def Edit.inPlace : Edit → InPlace PUnit
  | addWall c side => InPlace.setWall c side true
  | removeWall c side => InPlace.setWall c side false
  | carveBetween a b => InPlace.carveBetween a b
  | setExit c => InPlace.setExit c
  | placePowerup c kind => InPlace.placePowerup c kind
  | takePowerup c => InPlace.takePowerup c

/-- The answer of an operation that gives a new grid or fails, with the grid that is left: if it
fails, the one it was asked on. -/
def settle (g : Grid) : Except Fault Grid → Except Fault PUnit × Grid
  | .ok g' => (.ok ⟨⟩, g')
  | .error fault => (.error fault, g)

/-- The grid after some edits, whether they succeed or not. -/
def edited (g : Grid) (edits : List Edit) : Grid := edits.foldl (fun g e => (e.inPlace.on g).2) g

end MazeDuel.Grid
