import PuzzleShell.Proofs.Tree.Success
import PuzzleShell.Proofs.Tree.Traversal
import PuzzleShell.Tree.Base

/-!
# Splitting a path

A canonical path other than that of the root splits into the path of a directory and the name of
one of its entries. Taking the parts and joining them are inverse to each other, so the parts are
the only two that give the path. A tree finds at the whole what it finds under the name among the
children of what it finds at the first part.
-/

namespace PuzzleShell

open PuzzleShell.Path (Canonical IsName)

namespace Path

/-- The path is made of that of a directory and the name of an entry there. -/
structure SplitsInto (path base child : String) : Prop where
  canonical : Canonical base
  isName : IsName child
  join_eq : join base child = path

theorem Canonical.splitsInto {path : String} (h : Canonical path) (hroot : path ≠ "/") :
    SplitsInto path (Path.parent path) (name path) := by
  have hne : Path.segments path ≠ [] := mt h.segments_eq_nil_iff.1 hroot
  have hlast := segments_parent_append_name hne
  have hmem : name path ∈ Path.segments path := hlast ▸ List.mem_concat_self
  refine ⟨h.parent, h.segments _ hmem, ?_⟩
  rw [h.parent.join_eq, hlast, h.ofSegments_segments]

namespace SplitsInto

variable {path base child : String}

theorem segments_eq (h : SplitsInto path base child) :
    Path.segments path = Path.segments base ++ [child] := by
  rw [← h.join_eq, segments_join, h.isName.segments_eq]

theorem parent_eq (h : SplitsInto path base child) : parent path = base := by
  rw [parent, h.segments_eq, List.dropLast_concat, h.canonical.ofSegments_segments]

theorem name_eq (h : SplitsInto path base child) : name path = child := by
  rw [name, h.segments_eq, List.getLast?_concat, Option.getD_some]

theorem canonical_whole (h : SplitsInto path base child) : Canonical path :=
  h.join_eq ▸ h.canonical.join h.isName

theorem ne_root (h : SplitsInto path base child) : path ≠ "/" := by
  rintro rfl
  have hsegments := h.segments_eq
  rw [segments_root] at hsegments
  exact List.concat_ne_nil child _ hsegments.symm

theorem lookup_eq (h : SplitsInto path base child) (t : FileTree) :
    t.lookup path = (t.lookup base).bind (·.child? child) := by
  rw [← h.join_eq, t.lookup_join h.isName]

end SplitsInto

theorem splitsInto_iff {path base child : String} : SplitsInto path base child ↔
    Canonical path ∧ path ≠ "/" ∧ parent path = base ∧ name path = child := by
  constructor
  · intro h
    exact ⟨h.canonical_whole, h.ne_root, h.parent_eq, h.name_eq⟩
  · rintro ⟨hpath, hroot, rfl, rfl⟩
    exact hpath.splitsInto hroot

/-- Splitting and joining are inverse to each other: a path other than the root is joined from its
parts, and a name joined to a path is split off again. The joined path stays what it is wherever it
is resolved, and leads to the child of that name if its first part leads to a directory. -/
theorem split_join :
    (∀ path, Canonical path → path ≠ "/" →
      Canonical (parent path) ∧ IsName (name path) ∧ join (parent path) (name path) = path ∧
      segments path = segments (parent path) ++ [name path]) ∧
    ∀ base child, Canonical base → IsName child →
      parent (join base child) = base ∧ name (join base child) = child ∧
      (∀ cwd, resolve (join base child) cwd = join base child) ∧
      ∀ t : FileTree, t.lookup (join base child) = match t.lookup base with
        | some (.dir _ _ children) => children.find? (·.name == child)
        | _ => none := by
  constructor
  · intro path hpath hroot
    have hsplit := hpath.splitsInto hroot
    exact ⟨hsplit.canonical, hsplit.isName, hsplit.join_eq, hsplit.segments_eq⟩
  · intro base child hbase hchild
    have hsplit : SplitsInto (join base child) base child := ⟨hbase, hchild, rfl⟩
    have hresolve (cwd : String) : resolve (join base child) cwd = join base child :=
      hsplit.canonical_whole.resolve_eq cwd
    refine ⟨hsplit.parent_eq, hsplit.name_eq, hresolve, fun t => ?_⟩
    rw [hsplit.lookup_eq]
    -- A file has no children, so nothing is found below it.
    rcases t.lookup base with _ | ⟨_, _⟩ | ⟨_, _, children⟩ <;> rfl

/-- Below the root, where no second slash is put in, and under the name that alone would lead
home. -/
theorem split_join_tilde : (Canonical "/~" ∧ "/~" ≠ "/" ∧ join (parent "/~") (name "/~") = "/~") ∧
    Canonical "/" ∧ IsName "~" ∧ parent (join "/" "~") = "/" ∧ name (join "/" "~") = "~" ∧
    (∀ cwd, resolve (join "/" "~") cwd = join "/" "~") ∧
    FileTree.base.lookup (join "/" "~") = none := by
  have hpath : Canonical "/~" := by decide +kernel
  have hbase : Canonical "/" := by decide +kernel
  have hchild : IsName "~" := by decide
  have hparts := split_join.1 "/~" hpath (by decide)
  obtain ⟨hparent, hname, hresolve, hlookup⟩ := split_join.2 "/" "~" hbase hchild
  refine ⟨⟨hpath, by decide, hparts.2.2.1⟩, hbase, hchild, hparent, hname, hresolve, ?_⟩
  rw [hlookup, FileTree.lookup, segments_root]
  rfl

end Path

end PuzzleShell
