import MazeDuel.Combatant
import MazeDuel.Player
/-!
The radar: for each player the fixes at the ends of their last two turns. A question about a player
is answered with the older of the two, unless a true radar is spent on the live one.
-/

namespace MazeDuel

structure Fixes where
  prev : Fix
  last : Fix
  deriving BEq, Inhabited

namespace Fixes

def fresh (f : Fix) : Fixes := ⟨f, f⟩

def push (fixes : Fixes) (f : Fix) : Fixes := ⟨fixes.last, f⟩

def toJson (fixes : Fixes) : Json :=
  .object [("last_end", fixes.last.toJson), ("prev_end", fixes.prev.toJson)]

end Fixes

namespace Radar

/-- The live fix of the opponent; the requester's true radar is spent on it. -/
def live (requester opponent : Combatant) : Logged (Fix × Combatant) :=
  ⟨(opponent.fix, requester.consumeTrueRadar.2),
    [⟨.info, "duel.mechanics.radar", requester.label ++ " used true radar on " ++ opponent.label ++
      ": " ++ opponent.fix.display⟩]⟩

/-- The fix that a player gets of the opponent, and the player after it. -/
def query (known : Fixes) (requester opponent : Combatant) : Logged (Fix × Combatant) :=
  if requester.active.trueRadar.isPresent then live requester opponent
  else pure (known.prev, requester)

def turnEndRecord (p : Player) (fixes : Fixes) : Record :=
  ⟨.debug, "duel.mechanics.radar", "Radar history for " ++ word p ++ ": prev=" ++
    fixes.prev.display ++ " last=" ++ fixes.last.display⟩

end Radar

/-- A history that may not have heard of a player yet. -/
structure RadarHistory where
  slots : Duo (Option Fixes) := ⟨none, none⟩
  deriving Inhabited

namespace RadarHistory

def fixes (h : RadarHistory) (p : Player) : Except Fault Fixes :=
  match h.slots.get p with
  | some fixes => .ok fixes
  | none => .error .noFix

def reset (h : RadarHistory) (p : Player) (f : Fix) : RadarHistory :=
  ⟨h.slots.set p (some (Fixes.fresh f))⟩

/-- Adds the fix at the end of a turn; the first one stands for both generations. -/
def record (h : RadarHistory) (p : Player) (f : Fix) : Logged RadarHistory :=
  let fixes := match h.slots.get p with
    | some fixes => fixes.push f
    | none => Fixes.fresh f
  ⟨⟨h.slots.set p (some fixes)⟩, [Radar.turnEndRecord p fixes]⟩

/-- Like `Radar.query`, from a history that may know nothing. -/
def query (h : RadarHistory) (requester opponent : Combatant) :
    Logged (Except Fault Fix × Combatant) :=
  match h.slots.get opponent.player with
  | some known => (fun r => (.ok r.1, r.2)) <$> Radar.query known requester opponent
  | none =>
    if requester.active.trueRadar.isPresent then
      (fun r => (.ok r.1, r.2)) <$> Radar.live requester opponent
    else pure (.error .noFix, requester)

def toJson (h : RadarHistory) : Json :=
  .object ([Player.a, Player.b].filterMap fun p =>
    (h.slots.get p).map fun fixes => (word p, fixes.toJson))

end RadarHistory

end MazeDuel
