import PuzzleShell.Line
import PuzzleShell.Tree.Base

/-!
# States and patches

A state is a snapshot of the shell. A command never changes one: it answers a patch, which names
the slots to be replaced, and `Patch.apply` makes the next state.
-/

namespace PuzzleShell

structure State where
  cwd : String := Path.home
  tree : FileTree := .base
  commandHistory : List String := []
  outputHistory : List Line := []
  installed : List String := []
  environment : List (String × String) := []
  editingFile : Option String := none
  editingContent : String := ""
deriving DecidableEq

inductive Slot where
  | cwd
  | tree
  | commandHistory
  | outputHistory
  | installed
  | environment
  | editingFile
  | editingContent
deriving DecidableEq, Repr

def Slot.all : List Slot :=
  [cwd, tree, commandHistory, outputHistory, installed, environment, editingFile, editingContent]

/-- A new value for some of the slots of a state. -/
structure Patch where
  cwd : Option String := none
  tree : Option FileTree := none
  commandHistory : Option (List String) := none
  outputHistory : Option (List Line) := none
  installed : Option (List String) := none
  environment : Option (List (String × String)) := none
  editingFile : Option (Option String) := none
  editingContent : Option String := none
deriving DecidableEq

namespace Patch

def apply (p : Patch) (s : State) : State where
  cwd := p.cwd.getD s.cwd
  tree := p.tree.getD s.tree
  commandHistory := p.commandHistory.getD s.commandHistory
  outputHistory := p.outputHistory.getD s.outputHistory
  installed := p.installed.getD s.installed
  environment := p.environment.getD s.environment
  editingFile := p.editingFile.getD s.editingFile
  editingContent := p.editingContent.getD s.editingContent

def sets (p : Patch) : Slot → Bool
  | .cwd => p.cwd.isSome
  | .tree => p.tree.isSome
  | .commandHistory => p.commandHistory.isSome
  | .outputHistory => p.outputHistory.isSome
  | .installed => p.installed.isSome
  | .environment => p.environment.isSome
  | .editingFile => p.editingFile.isSome
  | .editingContent => p.editingContent.isSome

def changes (p : Patch) : List Slot := Slot.all.filter p.sets

def isEmpty (p : Patch) : Bool := p.changes.isEmpty

/-- The slot is not set, or set to nothing: an empty text, list or record, or no file. -/
def isBlank (p : Patch) : Slot → Bool
  | .cwd => p.cwd.getD "" == ""
  | .tree => p.tree.isNone
  | .commandHistory => (p.commandHistory.getD []).isEmpty
  | .outputHistory => (p.outputHistory.getD []).isEmpty
  | .installed => (p.installed.getD []).isEmpty
  | .environment => (p.environment.getD []).isEmpty
  | .editingFile => (p.editingFile.getD none).getD "" == ""
  | .editingContent => p.editingContent.getD "" == ""

end Patch

end PuzzleShell
