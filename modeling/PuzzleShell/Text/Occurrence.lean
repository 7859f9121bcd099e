/-!
# Occurrences of one text in another

Tests for a text at the start, at the end or anywhere in another, and the removal of a part.
-/

namespace PuzzleShell.Text

def startsWith (pattern s : String) : Bool := pattern.toList.isPrefixOf s.toList

def endsWith (last : Char) (s : String) : Bool := s.toList.getLast? == some last

def drop (n : Nat) (s : String) : String := String.ofList (s.toList.drop n)

def dropWhile (p : Char → Bool) (s : String) : String := String.ofList (s.toList.dropWhile p)

def occursIn (pattern : List Char) : List Char → Bool
  | [] => pattern.isEmpty
  | c :: rest => pattern.isPrefixOf (c :: rest) || occursIn pattern rest

def contains (pattern s : String) : Bool := occursIn pattern.toList s.toList

theorem occursIn_iff (pattern : List Char) (cs : List Char) :
    occursIn pattern cs = true ↔ pattern <:+: cs := by
  induction cs with
  | nil => simp [occursIn]
  | cons c rest ih => simp [occursIn, ih, List.infix_cons_iff]

theorem contains_iff (pattern s : String) :
    contains pattern s = true ↔ pattern.toList <:+: s.toList :=
  occursIn_iff _ _

end PuzzleShell.Text
