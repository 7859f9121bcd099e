import PuzzleShell.Config
import PuzzleShell.Outcome
import PuzzleShell.Shell.Moment
import PuzzleShell.Size

/-!
# Requests

What a command is given, the ways in which it can read a file, and the edits that a command with
many operands collects.
-/

namespace PuzzleShell

/-- The packages that can be installed where a mission names none. -/
def defaultCatalog : List String :=
  ["nginx", "apache2", "mysql", "postgresql", "nodejs", "python3", "git", "vim", "curl", "wget"]

/-- What is fixed while a line is executed. -/
structure Context where
  config : Config := {}
  packages : Option (List String) := none
  now : Moment := default
deriving DecidableEq, Repr

def Context.catalog (c : Context) : List String := c.packages.getD defaultCatalog

/-- A command as it was typed, and what it sees. -/
structure Request where
  name : String
  args : List String
  state : State
  context : Context

/-- An error that a command does not turn into a line of its own. -/
inductive Fault where
  | edit (e : EditError)
  | size (e : Size.Error)
deriving DecidableEq, Repr

inductive ReadError where
  | missing
  | isDirectory
deriving DecidableEq, Repr

def ReadError.line (command target : String) : ReadError → Line
  | missing => .error s!"{command}: {target}: No such file or directory"
  | isDirectory => .error s!"{command}: {target}: Is a directory"

namespace Request

def cwd (r : Request) : String := r.state.cwd

def tree (r : Request) : FileTree := r.state.tree

def resolve (r : Request) (target : String) : String := Path.resolve target r.cwd

def lookup (r : Request) (target : String) : Option Node := r.tree.lookup (r.resolve target)

def read (r : Request) (target : String) : Except ReadError String :=
  match r.lookup target with
  | none => .error .missing
  | some (.dir ..) => .error .isDirectory
  | some (.file _ data) => .ok data.content

end Request

/-- The tree as it has been edited so far, and the lines reported on the way. -/
structure Draft where
  tree : FileTree
  edited : Bool := false
  lines : List Line := []

namespace Draft

def report (d : Draft) (line : Line) : Draft := { d with lines := d.lines ++ [line] }

def update (d : Draft) (tree : FileTree) : Draft := { d with tree, edited := true }

/-- The tree is replaced if an edit was made, even one that left it the same. -/
def outcome (d : Draft) : Outcome :=
  { lines := d.lines, patch := { tree := if d.edited then some d.tree else none } }

end Draft

end PuzzleShell
