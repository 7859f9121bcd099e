import PuzzleShell.Shell.Request

/-!
# The editor

Opening a file puts its path and content into the state; saving writes the buffer to that path,
wherever the current directory has moved meanwhile.
-/

namespace PuzzleShell.Editor

/-- A file that does not exist yet is opened empty. -/
def start (r : Request) : Outcome :=
  let name := r.name
  match r.args with
  | [] => .fail s!"{name}: no file specified"
  | target :: _ =>
    match r.read target with
    | .error .isDirectory => .fail s!"{name}: {target}: Is a directory"
    | content =>
      { lines := [.info s!"Opening {target} in editor..."]
        patch := {
          editingFile := some (some (r.resolve target))
          editingContent := some (content.toOption.getD "") } }

/-- Writes `content`, or the buffer when there is none, to the open file. -/
def save (s : State) (content : Option String) : Outcome :=
  match s.editingFile with
  | none => .fail "No file is open in the editor"
  | some path =>
    let buffer := content.getD s.editingContent
    match s.tree.write path buffer with
    | .ok tree =>
      { lines := [.success s!"File saved: {path}"]
        patch := { tree := some tree, editingContent := some buffer } }
    | .error _ => .fail s!"Cannot save {path}: No such file or directory"

def close : Outcome := { patch := { editingFile := some none, editingContent := some "" } }

end PuzzleShell.Editor
