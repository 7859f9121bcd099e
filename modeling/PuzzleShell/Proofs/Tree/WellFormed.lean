import PuzzleShell.Proofs.Tree.Change
import PuzzleShell.Tree.Base

/-!
# Well-formed trees

A tree is well formed when its root is a directory, everything below the root has a proper name,
and every directory finds each of its children under the child's own name. An edit at a canonical
path keeps a tree well formed: it adds names only from its path.
-/

namespace PuzzleShell

namespace Node

inductive WellNamed : Node → Prop
  | file (name : String) (data : FileData) : WellNamed (.file name data)
  | dir (name owner : String) {children : List Node}
      (proper : ∀ c ∈ children, Path.IsName c.name)
      (found : ∀ c ∈ children, (Node.dir name owner children).child? c.name = some c)
      (below : ∀ c ∈ children, WellNamed c) : WellNamed (.dir name owner children)

theorem find?_of_pairwise {siblings : List Node} {c : Node}
    (hsorted : siblings.Pairwise (·.name < ·.name)) (hc : c ∈ siblings) :
    siblings.find? (·.name == c.name) = some c := by
  induction siblings with
  | nil => cases hc
  | cons first rest ih =>
    obtain ⟨hfirst, hrest⟩ := List.pairwise_cons.1 hsorted
    rcases List.mem_cons.1 hc with rfl | hc
    · simp
    · have hne : first.name ≠ c.name := fun he => String.lt_irrefl c.name (by
        simpa only [he] using hfirst c hc)
      rw [List.find?_cons_of_neg (by simpa using hne)]
      exact ih hrest hc

theorem Ordered.child?_of_mem {d c : Node} (h : d.Ordered) (hc : c ∈ d.children) :
    d.child? c.name = some c :=
  find?_of_pairwise h.children.1 hc

theorem WellNamed.rename {n : Node} (h : n.WellNamed) (m : String) : (n.rename m).WellNamed := by
  cases h with
  | file name data => exact .file m data
  | dir name owner proper found below => exact .dir m owner proper found below

theorem WellNamed.children {n : Node} (h : n.WellNamed) :
    ∀ c ∈ n.children, Path.IsName c.name ∧ c.WellNamed := by
  cases h with
  | file => simp [Node.children]
  | dir _ _ proper _ below => exact fun c hc => ⟨proper c hc, below c hc⟩

/-- In an ordered node the look-ups succeed of themselves. -/
theorem wellNamed_of_ordered {n : Node} (ho : n.Ordered)
    (h : ∀ c ∈ n.children, Path.IsName c.name ∧ c.WellNamed) : n.WellNamed := by
  cases n with
  | file name data => exact .file name data
  | dir name owner cs =>
    exact .dir name owner (fun c hc => (h c hc).1) (fun c hc => ho.child?_of_mem hc)
      fun c hc => (h c hc).2

theorem wellNamed_of_children_eq_nil {n : Node} (ho : n.Ordered) (h : n.children = []) :
    n.WellNamed :=
  wellNamed_of_ordered ho (by simp [h])

theorem WellNamed.withChild {d : Node} {name : String} {new : Option Node} (h : d.WellNamed)
    (hname : Path.IsName name) (ho : (d.withChild name new).Ordered)
    (hnew : ∀ n ∈ new, n.WellNamed) : (d.withChild name new).WellNamed := by
  refine wellNamed_of_ordered ho fun c hc => ?_
  cases d with
  | file => simp [Node.withChild, Node.children] at hc
  | dir m o cs =>
    cases new with
    | none => exact h.children c (List.mem_filter.1 hc).1
    | some n =>
      rcases mem_place hc with rfl | hc
      · rw [name_rename]
        exact ⟨hname, (hnew n rfl).rename name⟩
      · exact h.children c hc

theorem WellNamed.graft {new : Option Node} {d d' : Node} {name : String} {rest : List String}
    (h : d.WellNamed) (ho : d.Ordered) (hnames : ∀ s ∈ name :: rest, Path.IsName s)
    (hnew : ∀ n ∈ new, n.Ordered ∧ n.WellNamed) (hg : Node.graft new d name rest = .ok d') :
    d'.WellNamed := by
  have hboth : d'.Ordered ∧ d'.WellNamed := by
    refine graft_preserves (P := fun n => n.Ordered ∧ n.WellNamed) ?_ ?_ ⟨ho, h⟩ hnames hnew hg
    · rintro d c name ⟨ho, h⟩ hc
      exact ⟨ho.child? hc, (h.children c (List.mem_of_find?_eq_some hc)).2⟩
    · rintro d name new ⟨ho, h⟩ hname hnew
      have ho' := ho.withChild name fun n hn => (hnew n hn).1
      exact ⟨ho', h.withChild hname ho' fun n hn => (hnew n hn).2⟩
  exact hboth.2

end Node

namespace FileTree

structure WellFormed (t : FileTree) : Prop where
  isDir : t.root.isDir = true
  wellNamed : t.root.WellNamed

variable {t t' : FileTree} {path : String}

theorem WellFormed.graft {new : Option FileTree} {name : String} {rest : List String}
    (h : t.WellFormed) (hpath : Path.Canonical path) (hs : Path.segments path = name :: rest)
    (hnew : ∀ n ∈ new, n.root.WellNamed)
    (hg : Node.graft (new.map root) t.root name rest = .ok t'.root) : t'.WellFormed where
  isDir := by
    rw [← Node.isDir_label, Node.label_graft hg, Node.isDir_label]
    exact h.isDir
  wellNamed := by
    refine h.wellNamed.graft t.ordered (fun s hm => hpath.segments s (hs ▸ hm)) (fun n hn => ?_) hg
    obtain ⟨s, hsome, rfl⟩ := Option.map_eq_some_iff.1 hn
    exact ⟨s.ordered, hnew s hsome⟩

theorem WellFormed.put {new : FileTree} (h : t.WellFormed) (hpath : Path.Canonical path)
    (hnew : new.root.WellNamed) (hput : t.put path new = .ok t') : t'.WellFormed := by
  cases hs : Path.segments path with
  | nil =>
    simp only [FileTree.put, hs] at hput
    split at hput
    · next hdir =>
      cases hput
      exact ⟨(Node.isDir_rename new.root "/").trans hdir, hnew.rename "/"⟩
    · cases hput
  | cons name rest =>
    have hg : Node.graft ((some new).map root) t.root name rest = .ok t'.root :=
      put_eq_graft hs hput
    refine h.graft hpath hs (fun n hn => ?_) hg
    cases hn
    exact hnew

theorem WellFormed.edit (h : t.WellFormed) (hpath : Path.Canonical path) (he : Edit path t t') :
    t'.WellFormed := by
  rcases he with hgrow | hremove
  · obtain ⟨new, hleaf, hput⟩ := hgrow.exists_put
    exact h.put hpath (Node.wellNamed_of_children_eq_nil new.ordered hleaf) hput
  · obtain ⟨name, rest, hs, hg⟩ := remove_eq_graft hremove
    have hg' : Node.graft ((none : Option FileTree).map root) t.root name rest = .ok t'.root := hg
    exact h.graft hpath hs (by simp) hg'

theorem WellFormed.series {paths : List String} (h : t.WellFormed)
    (hpaths : ∀ path ∈ paths, Path.Canonical path) (hseries : Series Edit paths t t') :
    t'.WellFormed := by
  induction hseries with
  | refl => exact h
  | tail _ hstep ih =>
    obtain ⟨path, hpath, hedit⟩ := hstep
    exact ih.edit (hpaths path hpath) hedit

theorem base_wellFormed : base.WellFormed := by
  have leaf (n : String) : (Node.dir n defaultOwner []).WellNamed :=
    .dir _ _ (by simp) (by simp) (by simp)
  have twig (n m : String) (hm : Path.IsName m) :
      (Node.dir n defaultOwner [.dir m defaultOwner []]).WellNamed :=
    .dir _ _ (by simpa [Node.name] using hm) (by simp [Node.child?, Node.children]) (by simp [leaf])
  refine ⟨rfl, Node.wellNamed_of_ordered base.ordered ?_⟩
  simp only [base, Node.children, List.forall_mem_cons]
  exact ⟨⟨by decide, leaf _⟩, ⟨by decide, leaf _⟩, ⟨by decide, twig _ _ (by decide)⟩,
    ⟨by decide, leaf _⟩, ⟨by decide, twig _ _ (by decide)⟩, ⟨by decide, twig _ _ (by decide)⟩,
    by simp⟩

end FileTree

end PuzzleShell
