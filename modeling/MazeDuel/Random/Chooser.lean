import MazeDuel.Random.Twister
/-!
Choices: picking among finitely many things and shuffling them, by any generator that can name a
number below a bound.
-/

namespace MazeDuel.Random

/-- How a generator with states in `G` names a number below a positive bound. -/
structure Chooser (G : Type) where
  below : G → (n : Nat) → 0 < n → Fin n × G

namespace Chooser

variable {G : Type} (c : Chooser G)

/-- One element of a list that is not empty. -/
def pick (g : G) (head : α) (tail : List α) : α × G :=
  let (i, g) := c.below g (tail.length + 1) (Nat.succ_pos _)
  ((head :: tail)[i], g)

/-- Swaps each of the last `count` places but the first with a place at or before it, from the
back. -/
def shuffleFrom (g : G) : Nat → Array α → Array α × G
  | 0, items => (items, g)
  | 1, items => (items, g)
  | count + 2, items =>
    let (j, g) := c.below g (count + 2) (Nat.succ_pos _)
    shuffleFrom g (count + 1) (items.swapIfInBounds (count + 1) j)

def shuffle (g : G) (items : List α) : List α × G :=
  let (shuffled, g) := c.shuffleFrom g items.length items.toArray
  (shuffled.toList, g)

end Chooser

/-- Draws as many bits as the bound has until they name a number below it. More than a few draws
hardly ever happen; should the draws run out, the last is reduced to the bound. -/
def Twister.below (n : Nat) (h : 0 < n) : Nat → Twister → Fin n × Twister
  | 0, t =>
    let (value, t) := t.bits (n.log2 + 1)
    (⟨value % n, Nat.mod_lt _ h⟩, t)
  | fuel + 1, t =>
    let (value, t') := t.bits (n.log2 + 1)
    if hv : value < n then (⟨value, hv⟩, t') else Twister.below n h fuel t'

def Twister.chooser : Chooser Twister := ⟨fun t n h => Twister.below n h 4096 t⟩

end MazeDuel.Random
