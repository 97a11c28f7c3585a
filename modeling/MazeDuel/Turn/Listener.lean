import MazeDuel.Turn.Duel
/-!
Listeners: who is told of every notification while it happens, and may at once ask something of the
match in turn.
-/

namespace MazeDuel.Turn

inductive Request where
  | start
  | setScript (player : Player) (script : Json)
  | beginEditing (player : Player)
  | endEditing (player : Player)
  | execute (player : Player)
  | setContinuous (on : Bool)
  | toggleContinuous
  | lost (player : Player)
  | exited (player : Player)
  | shootAt (player : Player) (cell : Place)
  | tryMove (player : Player) (dir : MoveDir)
  | radarFor (player : Player)
  | position (player : Player)
  | facing (player : Player)
  deriving BEq

inductive Reply where
  | nothing
  | flag (value : Bool)
  | shot (result : ShotResult)
  | fix (fix : Fix)
  | place (place : Place)
  | facing (facing : Facing)
  /-- The request was met, and then something went wrong. -/
  | fault (fault : Fault)
  deriving BEq

def Reply.toJson : Reply → Except Fault Json
  | nothing => .ok .null
  | flag value => .ok (.bool value)
  | shot result => .ok result.toJson
  | fix f => .ok f.toJson
  | place p => .ok p.toJson
  | facing f => .ok (wordJson f)
  | fault f => .error f

/-- What a listener with memory `M` does on being told something, step by step. -/
inductive Plan (M : Type) where
  | stop
  /-- Looks at the match and at the memory. -/
  | look (next : Duel → M → Plan M)
  /-- Puts something in place of the memory. -/
  | keep (memory : M) (next : Plan M)
  | ask (request : Request) (next : Reply → Plan M)

structure Listener (M : Type) where
  plan : Notification → Plan M
  /-- How deep requests may be nested: beyond it the listener is silent. -/
  depth : Nat

/-- A listener that only listens. -/
def Listener.silent : Listener M := ⟨fun _ => .stop, 0⟩

end MazeDuel.Turn
