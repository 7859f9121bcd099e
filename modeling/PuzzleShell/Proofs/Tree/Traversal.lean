import PuzzleShell.Proofs.Path.Joining
import PuzzleShell.Proofs.Tree.WellFormed
import PuzzleShell.Tree.Walk

/-!
# What a walk meets

A walk that starts at a canonical path meets exactly what is found from there along some names, and
shows it under the path that these names lead to. A directory comes before what it holds and the
children come by name, so the paths strictly increase as lists of names.
-/

namespace PuzzleShell.Node

open PuzzleShell.Path (Canonical IsName)

variable {n m : Node} {base path : String}

theorem walkAll_eq_flatMap (base : String) (cs : List Node) :
    walkAll base cs = cs.flatMap fun c => c.walk (Path.join base c.name) := by
  induction cs with
  | nil => rfl
  | cons c rest ih => rw [walkAll, ih, List.flatMap_cons]

/-- The path of what is found from `base` on along the names `rest`. -/
def pathBelow (base : String) (rest : List String) : String :=
  Path.ofSegments (Path.segments base ++ rest)

theorem pathBelow_nil (h : Canonical base) : pathBelow base [] = base := by
  rw [pathBelow, List.append_nil, h.ofSegments_segments]

theorem segments_pathBelow {rest : List String} (h : Canonical base)
    (hrest : ∀ s ∈ rest, IsName s) : Path.segments (pathBelow base rest) =
      Path.segments base ++ rest := by
  refine Path.segments_ofSegments fun s hs => ?_
  have hname : IsName s := by
    rcases List.mem_append.1 hs with hs | hs
    · exact h.segments s hs
    · exact hrest s hs
  exact ⟨hname.1, hname.2.1⟩

theorem pathBelow_join {name : String} (h : IsName name) (base : String) (rest : List String) :
    pathBelow (Path.join base name) rest = pathBelow base (name :: rest) := by
  rw [pathBelow, Path.segments_join, h.segments_eq, List.append_assoc]
  rfl

theorem WellNamed.get? {rest : List String} (h : n.WellNamed) (hm : n.get? rest = some m) :
    m.WellNamed := by
  induction rest generalizing n with
  | nil =>
    cases hm
    exact h
  | cons name rest ih =>
    rw [get?_cons] at hm
    obtain ⟨c, hc, hm⟩ := Option.bind_eq_some_iff.1 hm
    exact ih (h.children c (List.mem_of_find?_eq_some hc)).2 hm

theorem WellNamed.names {rest : List String} (h : n.WellNamed) (hm : n.get? rest = some m) :
    ∀ s ∈ rest, IsName s := by
  induction rest generalizing n with
  | nil => exact List.forall_mem_nil _
  | cons name rest ih =>
    rw [get?_cons] at hm
    obtain ⟨c, hc, hm⟩ := Option.bind_eq_some_iff.1 hm
    obtain ⟨hname, hbelow⟩ := h.children c (List.mem_of_find?_eq_some hc)
    rw [name_of_child? hc] at hname
    exact List.forall_mem_cons.2 ⟨hname, ih hbelow hm⟩

/-- One case for each constructor: what a walk meets is what is found below. -/
theorem WellNamed.mem_walk_iff (h : n.WellNamed) (hbase : Canonical base) :
    (path, m) ∈ n.walk base ↔ ∃ rest, n.get? rest = some m ∧ path = pathBelow base rest := by
  induction h generalizing base with
  | file name data =>
    rw [walk, List.mem_singleton]
    constructor
    · rintro ⟨⟩
      exact ⟨[], rfl, (pathBelow_nil hbase).symm⟩
    · rintro ⟨rest, hm, rfl⟩
      cases rest with
      | nil =>
        cases hm
        rw [pathBelow_nil hbase]
      | cons => cases hm
  | @dir name owner cs proper found below ih =>
    rw [walk, walkAll_eq_flatMap, List.mem_cons, List.mem_flatMap]
    constructor
    · rintro (hhere | ⟨c, hc, hm⟩)
      · cases hhere
        exact ⟨[], rfl, (pathBelow_nil hbase).symm⟩
      · obtain ⟨rest, hrest, rfl⟩ := (ih c hc (hbase.join (proper c hc))).1 hm
        refine ⟨c.name :: rest, ?_, pathBelow_join (proper c hc) base rest⟩
        rw [get?_cons, found c hc, Option.bind_some, hrest]
    · rintro ⟨rest, hm, rfl⟩
      cases rest with
      | nil =>
        cases hm
        exact .inl (by rw [pathBelow_nil hbase])
      | cons child rest =>
        rw [get?_cons] at hm
        obtain ⟨c, hchild, hfound⟩ := Option.bind_eq_some_iff.1 hm
        obtain rfl : c.name = child := name_of_child? hchild
        have hc : c ∈ cs := List.mem_of_find?_eq_some hchild
        refine .inr ⟨c, hc, (ih c hc (hbase.join (proper c hc))).2 ⟨rest, hfound, ?_⟩⟩
        exact (pathBelow_join (proper c hc) base rest).symm

theorem WellNamed.pairwise_walk (h : n.WellNamed) (ho : n.Ordered) (hbase : Canonical base) :
    (n.walk base).Pairwise fun a b => Path.segments a.1 < Path.segments b.1 := by
  induction h generalizing base with
  | file name data => exact List.pairwise_singleton _ _
  | @dir name owner cs proper found below ih =>
    -- What is met through a child lies below the path of that child.
    have hsegments : ∀ c ∈ cs, ∀ e ∈ c.walk (Path.join base c.name), ∃ rest,
        Path.segments e.1 = Path.segments base ++ c.name :: rest := by
      intro c hc e he
      have hjoin := hbase.join (proper c hc)
      obtain ⟨rest, hm, hpath⟩ := ((below c hc).mem_walk_iff hjoin).1 he
      refine ⟨rest, ?_⟩
      rw [hpath, segments_pathBelow hjoin ((below c hc).names hm), Path.segments_join,
        (proper c hc).segments_eq, List.append_assoc]
      rfl
    rw [walk, walkAll_eq_flatMap, List.pairwise_cons, List.pairwise_flatMap]
    refine ⟨fun e he => ?_, fun c hc => ?_, ?_⟩
    · obtain ⟨c, hc, he⟩ := List.mem_flatMap.1 he
      obtain ⟨rest, hrest⟩ := hsegments c hc e he
      have hlt : Path.segments base ++ [] < Path.segments base ++ c.name :: rest :=
        List.append_left_lt (List.nil_lt_cons c.name rest)
      rw [List.append_nil] at hlt
      rwa [hrest]
    · exact ih c hc (ho.children.2 c hc) (hbase.join (proper c hc))
    · refine ho.children.1.imp_of_mem fun {c d} hc hd hlt e he e' he' => ?_
      obtain ⟨rest, hrest⟩ := hsegments c hc e he
      obtain ⟨rest', hrest'⟩ := hsegments d hd e' he'
      rw [hrest, hrest']
      exact List.append_left_lt (List.cons_lt_cons_iff.2 (.inl hlt))

end PuzzleShell.Node

namespace PuzzleShell.FileTree

open PuzzleShell.Path (IsName)

variable {t : FileTree} {path : String} {d c : Node}

theorem lookup_join {name : String} (hname : IsName name) (t : FileTree) (path : String) :
    t.lookup (Path.join path name) = (t.lookup path).bind (·.child? name) := by
  rw [lookup, Path.segments_join, hname.segments_eq, Node.get?_append]
  simp only [Node.get?_singleton]
  rfl

theorem WellFormed.lookup_child (h : t.WellFormed) (hd : t.lookup path = some d)
    (hc : c ∈ d.children) : t.lookup (Path.join path c.name) = some c := by
  have hname : IsName c.name := ((h.wellNamed.get? hd).children c hc).1
  rw [t.lookup_join hname, hd, Option.bind_some]
  exact (t.ordered.get? hd).child?_of_mem hc

end PuzzleShell.FileTree
