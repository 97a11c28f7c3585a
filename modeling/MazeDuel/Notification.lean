import MazeDuel.Shot
/-!
Notifications of a match, and the log that keeps them in order.
-/

namespace MazeDuel

inductive Notification where
  | turnChanged (player : Player)
  | powerupCollected (player : Player) (powerup : Powerup)
  | matchEnded (winner loser : Player) (reason : GameResult)
  /-- An action changed the player's place or facing; the values are those before it. -/
  | positionMoved (player : Player) (previous : Fix)
  | shot (result : ShotResult)
  deriving BEq, Inhabited

namespace Notification

inductive Kind where
  | turnChanged
  | powerupCollected
  | matchEnded
  | positionMoved
  | shot
  deriving DecidableEq, Repr, Inhabited

instance : Vocabulary Kind where
  kind := "event"
  all := [.turnChanged, .powerupCollected, .matchEnded, .positionMoved, .shot]
  word
    | .turnChanged => "turn_changed"
    | .powerupCollected => "powerup_collected"
    | .matchEnded => "match_ended"
    | .positionMoved => "position_moved"
    | .shot => "shot"
  find_word k := by cases k <;> decide

def kind : Notification → Kind
  | turnChanged _ => .turnChanged
  | powerupCollected _ _ => .powerupCollected
  | matchEnded _ _ _ => .matchEnded
  | positionMoved _ _ => .positionMoved
  | shot _ => .shot

/-- The player that a notification is about: who moved, shot, collected, won or is to move. -/
def player : Notification → Player
  | turnChanged p => p
  | powerupCollected p _ => p
  | matchEnded winner _ _ => winner
  | positionMoved p _ => p
  | shot result => result.shooter

def payload : Notification → List (String × Json)
  | turnChanged p => [("player", wordJson p)]
  | powerupCollected p powerup => [("player", wordJson p), ("powerup", wordJson powerup)]
  | matchEnded winner loser reason =>
    [("winner", wordJson winner), ("loser", wordJson loser), ("reason", wordJson reason)]
  | positionMoved p previous =>
    [("player", wordJson p), ("previous_position", previous.position.toJson),
      ("previous_facing", wordJson previous.facing)]
  | shot result => result.members

def document (kind : Kind) (payload : List (String × Json)) : Json :=
  .object (("event", wordJson kind) :: payload)

def toJson (n : Notification) : Json := document n.kind n.payload

end Notification

/-- The entries so far, oldest first; with a limit, only the latest of them. -/
structure EventLog (α : Type) where
  /-- How many entries are kept at most; null for all of them. -/
  limit : Json := .null
  events : List α := []

namespace EventLog

variable {α : Type}

def size (log : EventLog α) : Nat := log.events.length

/-- How many of the oldest of some number of entries have to go. It is asked whether the limit is a
whole number only when there are too many. -/
def excess (limit : Json) (size : Nat) : Except Fault Nat :=
  match limit with
  | .null => .ok 0
  | limit => do
    if (← limit.toQuantity).lt (Int.ofNat size) then return (size - (← limit.toInt)).toNat
    else return 0

def record (log : EventLog α) (entry : α) : EventLog α :=
  let events := log.events ++ [entry]
  { log with events := events.drop ((excess log.limit events.length).toOption.getD 0) }

def check (log : EventLog α) : Except Fault Unit := (fun _ => ()) <$> excess log.limit log.size

def clear (log : EventLog α) : EventLog α := { log with events := [] }

/-- The entries from a position on; a negative position counts from the end. -/
def since (log : EventLog α) (position : Int) : List α :=
  log.events.drop (if position < 0 then (log.size + position).toNat else position.toNat)

/-- The entries from a position that is given from outside; without one, all of them. -/
def sinceGiven (log : EventLog α) : Json → Except Fault (List α)
  | .null => .ok log.events
  | position => log.since <$> position.toInt

/-- The entries of one kind, in order; nothing is of a kind that is no word. -/
def ofKind (log : EventLog α) (kindOf : α → Json) (kind : Json) : List α :=
  log.events.filter fun entry => (kindOf entry).same kind

theorem events_record (log : EventLog α) (entry : α) (h : log.limit = .null) :
    (log.record entry).events = log.events ++ [entry] := by
  simp [record, h, excess, Except.toOption]

@[simp] theorem since_zero (log : EventLog α) : log.since 0 = log.events := by simp [since]

end EventLog

end MazeDuel
