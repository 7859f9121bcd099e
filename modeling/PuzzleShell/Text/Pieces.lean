/-!
# Pieces of a text

Two ways to take a text apart: `cuts` keeps the empty parts between neighbouring separators,
`pieces` drops them.
-/

namespace PuzzleShell.Text

/-- The parts between the occurrences of `sep`, one more than there are occurrences. -/
def cuts (sep : Char) (s : String) : List String :=
  (s.toList.splitOn sep).map String.ofList

/-- The longest runs of characters that do not satisfy `sep`. -/
def pieces (sep : Char → Bool) (s : String) : List String :=
  ((s.toList.splitOnP sep).filter (!·.isEmpty)).map String.ofList

end PuzzleShell.Text
