import MazeDuel.Document
import MazeDuel.Turn.State
/-!
Frames: what is passed on of a match after a turn. The arena is held as a document, so that a frame
can be made of any document of that form.
-/

namespace MazeDuel

open Turn

structure Frame where
  arena : Json
  state : TurnState
  /-- What came of the run of the turn, if there was one. -/
  execution : Option Json := none
  events : List Json := []
  board : Json := .null

namespace Frame

def done (f : Frame) : Bool := f.state.phase == .over

def members (value : Json) : Except Fault (List (String × Json)) :=
  match value with
  | .object members => .ok members
  | _ => .error .noMembers

def alive (combatant : Json) : Except Fault Bool := do
  return !(← (combatant.findD "health" (.whole 0)).toQuantity).atMost 0

/-- Why the members of a value cannot be copied, if it is no object: each of its parts would have
to be a key and a value. -/
def copyFault (value : Json) : Fault :=
  match value.parts with
  | .error fault => fault
  | .ok parts => (parts.findSome? pairFault?).getD .noMembers
where
  pairFault? (part : Json) : Option Fault :=
    match part.parts with
    | .error fault => some fault
    | .ok [key, _] => if (Place.row [key]).isKey then none else some .wrongType
    | .ok _ => some .wrongLength

/-- A combatant with the fix that the opponent has of it. -/
def combatant (radar : Json) (entry : String × Json) : Except Fault Json := do
  match entry.2 with
  | .object _ =>
    let alive ← alive entry.2
    let known ← (← radar.fieldD entry.1 (.object [])).fieldD "prev_end" .null
    return (entry.2.insert "alive" (.bool alive)).insert "known_to_opponent" known
  | value => throw (copyFault value)

def combatants (arena : Json) : Except Fault (List Json) := do
  let radar ← arena.fieldD "radar" (.object [])
  let entries ← members (← arena.fieldD "combatants" (.object []))
  entries.mapM (combatant radar)

/-- The frame as a document; a part that is missing or empty is left out. -/
def toJson (f : Frame) : Except Fault Json := do
  let combatants ← combatants f.arena
  return .object (
    [("turn", f.state.turnNumber), ("state", f.state.toJson), ("arena", f.arena),
      ("combatants", .list combatants), ("done", .bool f.done)] ++
    (f.execution.map fun result => ("execution", result)).toList ++
    (if f.events.isEmpty then [] else [("events", .list f.events)]) ++
    (match f.board with
      | .null => []
      | board => [("board", board)]))

end Frame

end MazeDuel
