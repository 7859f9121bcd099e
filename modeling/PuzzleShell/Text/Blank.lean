import PuzzleShell.Text.CodeRanges
import PuzzleShell.Text.Pieces

/-!
# Blank characters

The white space of all writing systems, the four information separators included, and the two
operations that only blanks govern: stripping both ends and taking a line apart into words.
-/

namespace PuzzleShell.Text

def blankRanges : CodeRanges := [
  (0x09, 0x0D), (0x1C, 0x20), (0x85, 0x85), (0xA0, 0xA0), (0x1680, 0x1680), (0x2000, 0x200A),
  (0x2028, 0x2029), (0x202F, 0x202F), (0x205F, 0x205F), (0x3000, 0x3000)]

def isBlank (c : Char) : Bool := blankRanges.has c

def dropEndWhile (p : Char → Bool) (cs : List Char) : List Char :=
  (cs.reverse.dropWhile p).reverse

def strip (s : String) : String :=
  String.ofList (dropEndWhile isBlank (s.toList.dropWhile isBlank))

/-- The words of a line, in order: each is non-empty and holds no blank. -/
def words (s : String) : List String := pieces isBlank s

end PuzzleShell.Text
