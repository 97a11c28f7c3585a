import MazeDuel.Phase
import MazeDuel.Place
import MazeDuel.Player
import MazeDuel.Json.Reader
/-!
The ways in which a request to the library can fail, and the text for each that has one.
-/

namespace MazeDuel

inductive Fault where
  /-- A value is not a word of the vocabulary of that name. -/
  | unknownWord (value : Json) (kind : String)
  | missingKey (key : String)
  | wrongType
  | noMembers
  | wrongLength
  | noCoordinate
  | unknownPlayer (value : Json)
  | gridNotPositive (width height : Json)
  | unknownPlace (place : Place)
  | exitOutside (place : Place) (width height : Json)
  | powerupOutside (place : Place)
  | notAdjacent (a b : Place)
  | mazeTooSmall (width height : Json)
  | maxHealthNotPositive (value : Quantity)
  | combatantOrder
  | spawnOutside (label : String) (place : Place)
  | negativeShotDamage (value : Quantity)
  | noFix
  /-- The digits of a repeat count are too many to be read. -/
  | countTooLong
  /-- An empty block is to be repeated more often than can be counted. -/
  | countTooLarge
  /-- More blocks stand inside each other than there is room for. -/
  | nestedTooDeep
  | negativeTurnDelay (value : Quantity)
  | editTimeNotPositive (value : Quantity)
  | timerTickNotPositive (value : Quantity)
  | negativeStepDelay (value : Quantity)
  /-- The edit time holds infinitely many ticks. -/
  | endlessTimer
  /-- The edit time divided by the tick is no number. -/
  | undefinedTimer
  | notADocument (value : Json)
  | sectionNotADocument (label : String) (value : Json)
  | negativeSetting (name : String) (value : Json)
  | settingNotPositive (name : String) (value : Json)
  | matchFinished
  /-- A match is played without a limit and has no end. -/
  | endlessMatch
  | executionRefused (player : Player) (phase : Phase)
  | unreadable (fault : Json.ReadFault)
  | noSuchFile
  | isFolder
  /-- A part of a path is longer than a name can be. -/
  | nameTooLong
  | badName
  | unknownLevel
  /-- A value does not fit the place that a template has for it. -/
  | formatMismatch
  | badTemplate
  | numberTooLarge
  /-- A whole number has more digits than a text can show. -/
  | numberTooLong
  /-- A time lies outside the years that dates are written for. -/
  | noSuchDate
  /-- A time lies so far off that its year cannot be counted. -/
  | noSuchYear
  /-- A row has no item at an index. -/
  | noSuchItem
  | noItem (index : Nat)
  deriving BEq, Inhabited

namespace Fault

/-- The text of a fault; faults found below this library's own checks have none. -/
def message : Fault → Option String
  | unknownWord value kind => some (value.display ++ " is not a valid " ++ kind)
  | missingKey key => some (Text.quoted key)
  | unknownPlayer value => some ("Unknown player: " ++ value.display)
  | gridNotPositive w h =>
    some ("Grid dimensions must be positive: " ++ w.plainText ++ "x" ++ h.plainText)
  | unknownPlace place => some place.display
  | exitOutside place w h =>
    some ("Exit " ++ place.display ++ " is outside the " ++ w.plainText ++ "x" ++ h.plainText ++
      " grid")
  | powerupOutside place => some ("Powerup cell " ++ place.display ++ " is outside the grid")
  | notAdjacent a b => some ("Cells are not adjacent: " ++ a.display ++ " and " ++ b.display)
  | mazeTooSmall w h =>
    some ("Maze must be at least 3x3, got " ++ w.plainText ++ "x" ++ h.plainText)
  | maxHealthNotPositive q => some ("Max health must be positive: " ++ q.display)
  | combatantOrder => some "Arena expects combatants for players A and B, in that order"
  | spawnOutside label place => some (label ++ " spawns outside the grid at " ++ place.display)
  | negativeShotDamage q => some ("Shot damage cannot be negative: " ++ q.display)
  | negativeTurnDelay q => some ("Continuous turn delay cannot be negative: " ++ q.display)
  | editTimeNotPositive q => some ("Edit time limit must be positive: " ++ q.display)
  | timerTickNotPositive q => some ("Timer tick must be positive: " ++ q.display)
  | negativeStepDelay q => some ("Step delay cannot be negative: " ++ q.display)
  | notADocument value =>
    some ("Match config must be a dict, got <class '" ++ value.className ++ "'>")
  | sectionNotADocument label value =>
    some ("'" ++ label ++ "' must be a dict, got <class '" ++ value.className ++ "'>")
  | negativeSetting name value => some (name ++ " cannot be negative: " ++ value.plainText)
  | settingNotPositive name value => some (name ++ " must be positive: " ++ value.plainText)
  | matchFinished => some "Match is already finished"
  | executionRefused player phase =>
    some ("Coordinator refused to execute for " ++ word player ++ " (phase " ++ capitals phase ++
      ")")
  | noItem index => some (toString index)
  | wrongType | noMembers | wrongLength | noCoordinate | noFix | countTooLong | countTooLarge
  | nestedTooDeep
  | endlessTimer | undefinedTimer | endlessMatch | unreadable _ | noSuchFile | isFolder
  | nameTooLong | badName | unknownLevel | formatMismatch | badTemplate | numberTooLarge
  | numberTooLong | noSuchDate | noSuchYear | noSuchItem => none

end Fault

theorem exists_ok_of_bind {ε α β : Type} {x : Except ε α} {f : α → Except ε β} {b : β}
    (h : (x >>= f) = .ok b) : ∃ a, x = .ok a ∧ f a = .ok b := by
  cases x with
  | error e => cases h
  | ok a => exact ⟨a, rfl, h⟩

theorem eq_ok_of_toOption {ε α : Type} {x : Except ε α} {a : α} (h : x.toOption = some a) :
    x = .ok a := by
  cases x with
  | error e => cases h
  | ok b => exact congrArg _ (Option.some.inj h)

theorem bind_eq_ok {ε α β : Type} {x : Except ε α} {f : α → Except ε β} {a : α} {b : β}
    (hx : x = .ok a) (hf : f a = .ok b) : (x >>= f) = .ok b := by
  rw [hx]
  exact hf

end MazeDuel
