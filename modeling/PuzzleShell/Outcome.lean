import PuzzleShell.State

/-!
# Outcomes

What comes of one line: the lines to display and the patch to apply.
-/

namespace PuzzleShell

structure Outcome where
  lines : List Line := []
  patch : Patch := {}
deriving DecidableEq

namespace Outcome

def fail (text : String) : Outcome := { lines := [.error text] }

def print (texts : List String) : Outcome := { lines := texts.map .output }

def inform (text : String) : Outcome := { lines := [.info text] }

def text (o : Outcome) : String := "\n".intercalate (o.lines.map (·.text))

def hasErrors (o : Outcome) : Bool := o.lines.any (·.kind == .error)

def exitCode (o : Outcome) : Nat := if o.hasErrors then 1 else 0

end Outcome

end PuzzleShell
