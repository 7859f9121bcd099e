/-!
# Sets of characters

A set of characters is given by the ranges of code points that it covers.
-/

namespace PuzzleShell.Text

/-- Ranges of code points, both ends included. -/
abbrev CodeRanges := List (Nat × Nat)

def CodeRanges.has (ranges : CodeRanges) (c : Char) : Bool :=
  ranges.any fun r => r.1 ≤ c.toNat && c.toNat ≤ r.2

end PuzzleShell.Text
