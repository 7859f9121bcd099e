import PuzzleShell.Path
import PuzzleShell.Tree.Node

/-!
# File trees and their edits

A `FileTree` is an ordered node. Its three edits put a tree at a path, remove what is there, and
write a file. An edit answers a new tree or says why there is none; the tree it is given stays as
it was.
-/

namespace PuzzleShell

inductive EditError where
  /-- No directory is there to hold the entry. -/
  | notFound (path : String)
  /-- A file was to take the place of a directory. -/
  | isDirectory (path : String)
  /-- The root cannot be removed. -/
  | denied (path : String)
deriving DecidableEq, Repr

def EditError.path : EditError → String
  | .notFound p => p
  | .isDirectory p => p
  | .denied p => p

namespace Node

/-- Makes `new` the entry at the path `name :: rest` below `d`, or takes that entry away. The
directories on the way are kept. Where one is missing, the error names what is left of the path. -/
def graft (new : Option Node) (d : Node) (name : String) : List String → Except EditError Node
  | [] => if d.isDir then .ok (d.withChild name new) else .error (.notFound name)
  | next :: rest =>
    match d.child? name with
    | some (.dir m o cs) => do
      let c ← graft new (.dir m o cs) next rest
      return d.withChild name (some c)
    | _ => .error (.notFound ("/".intercalate (name :: next :: rest)))

theorem Ordered.graft {new : Option Node} {d : Node} {name : String} {rest : List String}
    {d' : Node} (h : d.Ordered) (hnew : ∀ n ∈ new, n.Ordered)
    (hd : Node.graft new d name rest = .ok d') : d'.Ordered := by
  induction rest generalizing d name d' with
  | nil =>
    simp only [Node.graft] at hd
    split at hd
    · cases hd; exact h.withChild name hnew
    · cases hd
  | cons next rest ih =>
    simp only [Node.graft] at hd
    split at hd
    · next m o cs hc =>
      cases hg : Node.graft new (.dir m o cs) next rest with
      | error e => rw [hg] at hd; cases hd
      | ok c =>
        rw [hg] at hd
        cases hd
        refine h.withChild name fun n hn => ?_
        cases hn
        exact ih (h.child? hc) hg
    · cases hd

end Node

/-- A whole tree, or a part of one that stands on its own. -/
structure FileTree where
  root : Node
  ordered : root.Ordered
deriving DecidableEq

namespace FileTree

def file (name : String) (data : FileData) : FileTree := ⟨.file name data, .file name data⟩

def emptyDir (name : String) : FileTree :=
  ⟨.dir name defaultOwner [], .dir name defaultOwner .nil (by simp)⟩

def rename (name : String) (t : FileTree) : FileTree := ⟨t.root.rename name, t.ordered.rename name⟩

def lookup (t : FileTree) (path : String) : Option Node := t.root.get? (Path.segments path)

/-- Puts `new` at the segments `name :: rest`, or removes what is there. -/
def graft (t : FileTree) (new : Option FileTree) (name : String) (rest : List String) :
    Except EditError FileTree :=
  match h : Node.graft (new.map root) t.root name rest with
  | .error e => .error e
  | .ok r => .ok ⟨r, t.ordered.graft (by
      intro n hn
      obtain ⟨s, _, rfl⟩ := Option.map_eq_some_iff.1 hn
      exact s.ordered) h⟩

@[ext]
theorem ext {s t : FileTree} (h : s.root = t.root) : s = t := by
  cases s
  cases t
  cases h
  rfl

theorem graft_eq_ok {t t' : FileTree} {new : Option FileTree} {name : String}
    {rest : List String} : t.graft new name rest = .ok t' ↔
      Node.graft (new.map root) t.root name rest = .ok t'.root := by
  unfold graft
  split
  · next e he => simp [he]
  · next r hr =>
    simp only [hr, Except.ok.injEq]
    exact ⟨fun h => h ▸ rfl, fun h => FileTree.ext h⟩

theorem graft_eq_error {t : FileTree} {new : Option FileTree} {name : String}
    {rest : List String} {e : EditError} : t.graft new name rest = .error e ↔
      Node.graft (new.map root) t.root name rest = .error e := by
  unfold graft
  split
  · next e he => simp [he]
  · next r hr => simp [hr]

/-- Puts `new` at the path under the name that the path gives it. At the root only a directory
may stand. -/
def put (t : FileTree) (path : String) (new : FileTree) : Except EditError FileTree :=
  match Path.segments path with
  | [] => if new.root.isDir then .ok (new.rename "/") else .error (.isDirectory "/")
  | name :: rest => t.graft (some new) name rest

/-- Removes what is at the path; an entry that is missing from its directory is removed already. -/
def remove (t : FileTree) (path : String) : Except EditError FileTree :=
  match Path.segments path with
  | [] => .error (.denied "/")
  | name :: rest => t.graft none name rest

/-- Gives the file at the path this content. A new file has the default data, an existing one
keeps the rest of its data. -/
def write (t : FileTree) (path content : String) : Except EditError FileTree :=
  if Path.name path = "" then .error (.isDirectory path)
  else match t.lookup (Path.parent path) with
    | some (.dir m o cs) =>
      match (Node.dir m o cs).child? (Path.name path) with
      | some (.dir ..) => .error (.isDirectory path)
      | some (.file n data) => t.put path (.file n { data with content })
      | none => t.put path (.file (Path.name path) { content })
    | _ => .error (.notFound path)

end FileTree

end PuzzleShell
