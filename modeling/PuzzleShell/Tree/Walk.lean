import PuzzleShell.Path
import PuzzleShell.Tree.Node

/-!
# Walks

The nodes at and below a node in order, each with its path, and the space that they take.
-/

namespace PuzzleShell.Node

mutual
/-- A node comes before its children, and the children come by name. -/
def walk (path : String) : Node → List (String × Node)
  | .file n d => [(path, .file n d)]
  | .dir n o cs => (path, .dir n o cs) :: walkAll path cs

def walkAll (base : String) : List Node → List (String × Node)
  | [] => []
  | c :: rest => walk (Path.join base c.name) c ++ walkAll base rest
end

mutual
/-- The space of a file is its size; a directory adds that of all it holds to its own. -/
def usage : Node → Nat
  | .file n d => (Node.file n d).size
  | .dir _ _ cs => dirSize + usageAll cs

def usageAll : List Node → Nat
  | [] => 0
  | c :: rest => usage c + usageAll rest
end

end PuzzleShell.Node
