import Mathlib.Logic.Relation
import PuzzleShell.Proofs.Path.Canonical
import PuzzleShell.Proofs.Tree.Lookup

/-!
# Changes of a tree

Every command changes a tree through a few edits, each at one path. `Growth` lists the edits that
put something into the tree, and the only other one removes. Two facts about a single edit, and
with them about a whole series, carry the rest: an edit keeps the label of every node that its
path does not cover, and a growth keeps every directory.
-/

namespace PuzzleShell.FileTree

open PuzzleShell.Path (Covers)

variable {t t' : FileTree} {path other : String}

def hasDir (t : FileTree) (path : String) : Bool := (t.lookup path).any (·.isDir)

theorem hasDir_eq_true_iff : t.hasDir path = true ↔ ∃ d, t.lookup path = some d ∧ d.isDir = true := by
  simp [hasDir, Option.any_eq_true]

/-- What is at `path`, leaving aside what a directory holds. -/
def labelAt (t : FileTree) (path : String) : Option Node := (t.lookup path).map Node.label

theorem isSome_labelAt : (t.labelAt path).isSome = (t.lookup path).isSome := Option.isSome_map

theorem hasDir_eq_any_labelAt : t.hasDir path = (t.labelAt path).any (·.isDir) := by
  unfold hasDir labelAt
  cases t.lookup path with
  | none => rfl
  | some n => exact (Node.isDir_label n).symm

theorem lookup_of_covers {n : Node} (h : Covers path other) (hn : t.lookup other = some n) :
    ∃ d, t.lookup path = some d ∧ (n.isDir = true → d.isDir = true) := by
  obtain ⟨d, hd, heq | hdir⟩ := Node.get?_of_prefix hn h
  · refine ⟨d, hd, fun hdir => ?_⟩
    have hsame : some d = some n := by rw [← hd, ← hn, heq]; rfl
    rwa [Option.some.inj hsame]
  · exact ⟨d, hd, fun _ => hdir⟩

theorem hasDir_of_covers (h : Covers path other) (hdir : t.hasDir other = true) :
    t.hasDir path = true := by
  obtain ⟨n, hn, hndir⟩ := hasDir_eq_true_iff.1 hdir
  obtain ⟨d, hd, hddir⟩ := lookup_of_covers h hn
  exact hasDir_eq_true_iff.2 ⟨d, hd, hddir hndir⟩

theorem lookup_eq_child? (h : Path.segments path ≠ []) :
    t.lookup path = (t.lookup (Path.parent path)).bind (·.child? (Path.name path)) := by
  unfold lookup
  rw [← Path.segments_parent_append_name h, Node.get?_append]
  simp only [Node.get?_singleton]

section Edits

theorem put_eq_graft {new : FileTree} {name : String} {rest : List String}
    (hs : Path.segments path = name :: rest) (h : t.put path new = .ok t') :
    Node.graft (some new.root) t.root name rest = .ok t'.root := by
  simp only [put, hs] at h
  exact graft_eq_ok.1 h

theorem remove_eq_graft (h : t.remove path = .ok t') : ∃ name rest,
    Path.segments path = name :: rest ∧ Node.graft none t.root name rest = .ok t'.root := by
  cases hs : Path.segments path with
  | nil => simp [remove, hs] at h
  | cons name rest =>
    simp only [remove, hs] at h
    exact ⟨name, rest, rfl, graft_eq_ok.1 h⟩

theorem labelAt_put {new : FileTree} (h : t.put path new = .ok t') (hc : ¬ Covers path other) :
    t'.labelAt other = t.labelAt other := by
  cases hs : Path.segments path with
  | nil =>
    refine absurd ?_ hc
    rw [Covers, hs]
    exact List.nil_prefix
  | cons name rest =>
    refine Node.map_label_get?_graft (put_eq_graft hs h) ?_
    rwa [Covers, hs] at hc

theorem labelAt_remove (h : t.remove path = .ok t') (hc : ¬ Covers path other) :
    t'.labelAt other = t.labelAt other := by
  obtain ⟨name, rest, hs, hg⟩ := remove_eq_graft h
  refine Node.map_label_get?_graft hg ?_
  rwa [Covers, hs] at hc

theorem lookup_remove_of_covers (h : t.remove path = .ok t') (hc : Covers path other) :
    t'.lookup other = none := by
  obtain ⟨name, rest, hs, hg⟩ := remove_eq_graft h
  obtain ⟨q, hq⟩ := hc
  rw [lookup, ← hq, hs, Node.get?_graft_append hg]
  rfl

theorem labelAt_remove_of_isSome (h : t.remove path = .ok t')
    (hsome : (t'.lookup other).isSome = true) : t'.labelAt other = t.labelAt other := by
  by_cases hc : Covers path other
  · rw [lookup_remove_of_covers h hc] at hsome
    cases hsome
  · exact labelAt_remove h hc

/-- A write puts a file where there is none yet, or in place of a file of which it keeps all but
the content. -/
theorem write_eq_ok {content : String} (h : t.write path content = .ok t') :
    ∃ name data, (t.lookup path = none ∧ name = Path.name path ∧ data = {} ∨
      t.lookup path = some (.file name data)) ∧
      t.put path (.file name { data with content }) = .ok t' := by
  rw [write] at h
  split at h
  · cases h
  · next hname =>
    have hs : Path.segments path ≠ [] := fun hs => hname (Path.name_eq_empty_iff.2 hs)
    split at h
    · next m o cs hparent =>
      have hchild := lookup_eq_child? (t := t) hs
      rw [hparent, Option.bind_some] at hchild
      split at h
      · cases h
      · next name data hfile =>
        exact ⟨name, data, .inr (hchild.trans hfile), h⟩
      · next hnone =>
        exact ⟨Path.name path, {}, .inl ⟨hchild.trans hnone, rfl, rfl⟩, h⟩
    · cases h

end Edits

/-- The edits that put something into a tree: a file is written, a directory is made where nothing
is, or the mode of a file is set. -/
inductive Growth (path : String) (t t' : FileTree) : Prop
  | write (content : String) (h : t.write path content = .ok t')
  | makeDir (hnew : t.lookup path = none)
      (h : t.put path (emptyDir (Path.name path)) = .ok t')
  | setMode (name : String) (data : FileData) (executable : Bool)
      (hfile : t.lookup path = some (.file name data))
      (h : t.put path (file name { data with
        executable, permissions := if executable then executableMode else plainMode }) = .ok t')

namespace Growth

theorem exists_put (h : Growth path t t') :
    ∃ new : FileTree, new.root.children = [] ∧ t.put path new = .ok t' := by
  cases h with
  | write content h =>
    obtain ⟨name, data, -, hput⟩ := write_eq_ok h
    exact ⟨_, rfl, hput⟩
  | makeDir _ h => exact ⟨_, rfl, h⟩
  | setMode _ _ _ _ h => exact ⟨_, rfl, h⟩

theorem vacant (h : Growth path t t') : t.hasDir path = false := by
  unfold hasDir
  cases h with
  | write content h =>
    obtain ⟨name, data, ⟨hnone, -, -⟩ | hfile, -⟩ := write_eq_ok h
    · rw [hnone]; rfl
    · rw [hfile]; rfl
  | makeDir hnew _ => rw [hnew]; rfl
  | setMode _ _ _ hfile _ => rw [hfile]; rfl

theorem labelAt (h : Growth path t t') (hc : ¬ Covers path other) :
    t'.labelAt other = t.labelAt other := by
  obtain ⟨new, -, hput⟩ := h.exists_put
  exact labelAt_put hput hc

theorem hasDir (h : Growth path t t') (hdir : t.hasDir other = true) : t'.hasDir other = true := by
  have hc : ¬ Covers path other := by
    intro hc
    have hvacant := h.vacant
    rw [hasDir_of_covers hc hdir] at hvacant
    cases hvacant
  rwa [hasDir_eq_any_labelAt, h.labelAt hc, ← hasDir_eq_any_labelAt]

end Growth

def Removal (path : String) (t t' : FileTree) : Prop := t.remove path = .ok t'

def Edit (path : String) (t t' : FileTree) : Prop := Growth path t t' ∨ Removal path t t'

theorem Edit.labelAt (h : Edit path t t') (hc : ¬ Covers path other) :
    t'.labelAt other = t.labelAt other := by
  rcases h with hgrow | hremove
  · exact hgrow.labelAt hc
  · exact labelAt_remove hremove hc

/-- A series of edits of one kind, each at one of the paths. -/
def Series (E : String → FileTree → FileTree → Prop) (paths : List String) :
    FileTree → FileTree → Prop :=
  Relation.ReflTransGen fun t t' => ∃ path ∈ paths, E path t t'

variable {paths : List String}

theorem Series.mono {E F : String → FileTree → FileTree → Prop}
    (hEF : ∀ {path t t'}, E path t t' → F path t t') (h : Series E paths t t') :
    Series F paths t t' := by
  refine Relation.ReflTransGen.mono ?_ t t' h
  rintro t t' ⟨path, hpath, he⟩
  exact ⟨path, hpath, hEF he⟩

theorem Series.labelAt (h : Series Edit paths t t') (hc : ∀ path ∈ paths, ¬ Covers path other) :
    t'.labelAt other = t.labelAt other := by
  induction h with
  | refl => rfl
  | tail _ hstep ih =>
    obtain ⟨path, hpath, hedit⟩ := hstep
    exact (hedit.labelAt (hc path hpath)).trans ih

theorem Series.hasDir (h : Series Growth paths t t') (hdir : t.hasDir other = true) :
    t'.hasDir other = true := by
  induction h with
  | refl => exact hdir
  | tail _ hstep ih =>
    obtain ⟨path, -, hgrow⟩ := hstep
    exact hgrow.hasDir ih

theorem Series.labelAt_of_isSome (h : Series Removal paths t t')
    (hsome : (t'.lookup other).isSome = true) : t'.labelAt other = t.labelAt other := by
  induction h with
  | refl => rfl
  | tail _ hstep ih =>
    obtain ⟨path, -, hremove⟩ := hstep
    have hlabel := labelAt_remove_of_isSome hremove hsome
    refine hlabel.trans (ih ?_)
    rw [← isSome_labelAt, ← hlabel, isSome_labelAt, hsome]

end PuzzleShell.FileTree
