import PuzzleShell.Shell.Request
import PuzzleShell.Text.Occurrence

/-!
# Missions

A mission sets the world in which a session starts, the hints it may give and the condition that
completes it.
-/

namespace PuzzleShell

inductive Goal where
  | exists (path : String)
  | missing (path : String)
  | contains (path text : String)
  | installed (pkg : String)
  | cwd (path : String)
  | ran (line : String)
deriving DecidableEq, Repr

def Goal.holds (s : State) : Goal → Bool
  | .exists path => (s.tree.lookup path).isSome
  | .missing path => (s.tree.lookup path).isNone
  | .contains path text => match s.tree.lookup path with
    | some (.file _ data) => Text.contains text data.content
    | _ => false
  | .installed pkg => s.installed.contains pkg
  | .cwd path => s.cwd == path
  | .ran line => s.commandHistory.contains line

structure Mission where
  tree : FileTree := .base
  cwd : String := Path.home
  hints : List String := []
  maxHints : Option Int := none
  packages : Option (List String) := none
  installed : List String := []
  isWon : State → Bool := fun _ => false

namespace Mission

def hintLimit (m : Mission) : Nat :=
  match m.maxHints with
  | none => m.hints.length
  | some n => min n.toNat m.hints.length

/-- The state in which an attempt starts. A package is installed once however often it is named. -/
def start (m : Mission) : State where
  cwd := m.cwd
  tree := m.tree
  installed := m.installed.eraseDups

end Mission

end PuzzleShell
