/-!
Classes of characters given as tables of code point ranges.
-/

namespace MazeDuel.Text

/-- Whether a code point lies in one of the ranges, both ends included. -/
def covered (ranges : List (Nat × Nat)) (point : Nat) : Bool :=
  ranges.any fun range => range.1 ≤ point && point ≤ range.2

end MazeDuel.Text
