import PuzzleShell.Input
import PuzzleShell.Shell.Request

/-!
# Removing

`rm` removes what its operands name. When the current directory is gone afterwards, the nearest
directory above it that is still there takes its place.
-/

namespace PuzzleShell

/-- Climbs from `path` to the first place that exists, at most `steps` levels up. -/
def FileTree.climb (t : FileTree) : (steps : Nat) → (path : String) → String
  | 0, path => path
  | steps + 1, path =>
    if (t.lookup path).isSome then path else t.climb steps (Path.parent path)

def FileTree.surviving (t : FileTree) (path : String) : String :=
  t.climb (Path.segments path).length path

namespace Shell

def rmOne (r : Request) (flags : Flags) (d : Draft) (target : String) : Except Fault Draft :=
  let path := r.resolve target
  if Path.name target = "." ∨ Path.name target = ".." then
    .ok (d.report
      (.error s!"rm: refusing to remove '.' or '..' directory: skipping '{target}'"))
  else match d.tree.lookup path with
    | none =>
      .ok (if flags.has "f" then d
        else d.report (.error s!"rm: cannot remove '{target}': No such file or directory"))
    | some n =>
      if path = "/" then
        .ok (d.report (.error s!"rm: cannot remove '{target}': Permission denied"))
      else if n.isDir && !(flags.has "r" || flags.has "R") then
        .ok (d.report (.error s!"rm: cannot remove '{target}': Is a directory"))
      else ((d.tree.remove path).mapError .edit).map d.update

def rm (r : Request) : Except Fault Outcome :=
  let flags := Flags.ofArgs r.args
  if flags.operands.isEmpty then .ok (.fail "rm: missing operand")
  else do
    let d ← flags.operands.foldlM (rmOne r flags) { tree := r.tree }
    let cwd := d.tree.surviving r.cwd
    let o := d.outcome
    return if cwd = r.cwd then o else { o with patch := { o.patch with cwd := some cwd } }

end Shell

end PuzzleShell
