/-!
# Outer quotes

Words are not parsed for quotes. A command that prints its words drops one quote at each end of
the text instead.
-/

namespace PuzzleShell.Text

def isQuote (c : Char) : Bool := c = '"' || c = '\''

def dropFirstQuote : List Char → List Char
  | [] => []
  | c :: rest => if isQuote c then rest else c :: rest

/-- Drops a quote that is last, or last before a final line feed. -/
def dropLastQuote : List Char → List Char
  | [] => []
  | [c] => if isQuote c then [] else [c]
  | [c, '\n'] => if isQuote c then ['\n'] else [c, '\n']
  | c :: rest => c :: dropLastQuote rest

def stripQuotes (s : String) : String :=
  String.ofList (dropLastQuote (dropFirstQuote s.toList))

end PuzzleShell.Text
