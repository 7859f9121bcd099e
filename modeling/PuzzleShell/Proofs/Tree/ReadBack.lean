import PuzzleShell.Proofs.Tree.Change
import PuzzleShell.Tree.Base
import PuzzleShell.Tree.Template

/-!
# Trees that are read back as they are

A template leaves out what is to take its default, and a written tree is read by the same rules. A
node is complete when none of them would change it: its names are those that can be read, and no
permissions and no owner are empty. Whatever is read is complete, an edit leaves a complete tree
complete, and a complete tree is what is read from its own template.
-/

namespace PuzzleShell

namespace Template

def IsKey (name : String) : Prop := ¬ ('/' ∈ name.toList ∧ name ≠ "/")

theorem orDefault_ne_empty {default : String} (h : default ≠ "") (field : Option String) :
    orDefault field default ≠ "" := by
  cases field with
  | none => exact h
  | some s =>
    by_cases hs : s = ""
    · simpa only [orDefault, if_pos hs] using h
    · simpa only [orDefault, if_neg hs] using hs

theorem orDefault_some {s : String} (h : s ≠ "") (default : String) :
    orDefault (some s) default = s := if_neg h

theorem orDefault_empty (s : String) : orDefault (some s) "" = s := by
  by_cases h : s = ""
  · rw [h]
    rfl
  · exact orDefault_some h ""

/-- A template is read under a name that can be read, as a file or with all that it lists. -/
theorem toNode_cases {name : String} {t : Template} {n : Node} (h : t.toNode name = .ok n) :
    IsKey name ∧
      ((t.kind = .text "file" ∧ n = .file name {
          content := orDefault t.content ""
          executable := t.executable.isSet
          permissions := orDefault t.permissions plainMode
          owner := orDefault t.owner defaultOwner }) ∨
        (t.kind = .text "directory" ∧ ∃ made, toNodes [] t.children = .ok made ∧
          n = .dir name (orDefault t.owner defaultOwner) made)) := by
  obtain ⟨kind, _, content, executable, permissions, owner, children⟩ := t
  simp only [toNode] at h
  split at h
  · cases h
  · next hkey =>
    refine ⟨hkey, ?_⟩
    split at h
    · next hfile =>
      cases h
      exact .inl ⟨hfile, rfl⟩
    · split at h
      · next hdir =>
        cases hm : toNodes [] children with
        | error e => rw [hm] at h; cases h
        | ok made =>
          rw [hm] at h
          cases h
          exact .inr ⟨hdir, made, rfl, rfl⟩
      · cases h

end Template

namespace Node

open Template (IsKey)

inductive Complete : Node → Prop
  | file {name : String} {data : FileData} (key : IsKey name)
      (permissions : data.permissions ≠ "") (owner : data.owner ≠ "") : Complete (.file name data)
  | dir {name owner : String} {children : List Node} (key : IsKey name) (owned : owner ≠ "")
      (below : ∀ c ∈ children, Complete c) : Complete (.dir name owner children)

theorem Complete.key {n : Node} (h : n.Complete) : IsKey n.name := by
  cases h with
  | file key => exact key
  | dir key => exact key

theorem Complete.children {n : Node} (h : n.Complete) : ∀ c ∈ n.children, c.Complete := by
  cases h with
  | file => simp [Node.children]
  | dir _ _ below => exact below

theorem Complete.child? {d c : Node} {name : String} (h : d.Complete)
    (hc : d.child? name = some c) : c.Complete :=
  h.children c (List.mem_of_find?_eq_some hc)

theorem Complete.get? {n m : Node} {path : List String} (h : n.Complete)
    (hm : n.get? path = some m) : m.Complete := by
  induction path generalizing n with
  | nil =>
    cases hm
    exact h
  | cons name rest ih =>
    rw [get?_cons] at hm
    obtain ⟨c, hc, hm⟩ := Option.bind_eq_some_iff.1 hm
    exact ih (h.child? hc) hm

theorem Complete.rename {n : Node} (h : n.Complete) {name : String} (hname : IsKey name) :
    (n.rename name).Complete := by
  cases h with
  | file _ permissions owner => exact .file hname permissions owner
  | dir _ owned below => exact .dir hname owned below

theorem Complete.withChild {d : Node} {name : String} {new : Option Node} (h : d.Complete)
    (hname : IsKey name) (hnew : ∀ n ∈ new, n.Complete) : (d.withChild name new).Complete := by
  cases h with
  | file key permissions owner => exact .file key permissions owner
  | dir key owned below =>
    refine .dir key owned fun c hc => ?_
    cases new with
    | none => exact below c (List.mem_filter.1 hc).1
    | some n =>
      rcases mem_place hc with rfl | hc
      · exact (hnew n rfl).rename hname
      · exact below c hc

mutual
theorem complete_toNode (name : String) : (t : Template) → ∀ {n : Node},
    t.toNode name = .ok n → n.Complete
  | ⟨kind, _, content, executable, permissions, owner, children⟩, n, h => by
    obtain ⟨hkey, ⟨-, rfl⟩ | ⟨-, made, hm, rfl⟩⟩ := Template.toNode_cases h
    · exact .file hkey (Template.orDefault_ne_empty (by decide) permissions)
        (Template.orDefault_ne_empty (by decide) owner)
    · exact .dir hkey (Template.orDefault_ne_empty (by decide) owner)
        (complete_toNodes children (by simp) hm)

theorem complete_toNodes : (ts : List (String × Template)) → ∀ {made ns : List Node},
    (∀ c ∈ made, c.Complete) → Template.toNodes made ts = .ok ns → ∀ c ∈ ns, c.Complete
  | [], made, ns, hmade, h => by
    simp only [Template.toNodes, Except.ok.injEq] at h
    exact h ▸ hmade
  | (key, t) :: rest, made, ns, hmade, h => by
    simp only [Template.toNodes] at h
    cases hn : t.toNode key with
    | error e => rw [hn] at h; cases h
    | ok n =>
      rw [hn] at h
      refine complete_toNodes rest (fun c hc => ?_) h
      rcases mem_place hc with rfl | hc
      · exact complete_toNode key t hn
      · exact hmade c hc
end

theorem place_eq_append {n : Node} {siblings : List Node} (h : ∀ c ∈ siblings, c.name < n.name) :
    place n siblings = siblings ++ [n] := by
  induction siblings with
  | nil => rfl
  | cons c rest ih =>
    obtain ⟨hc, hrest⟩ := List.forall_mem_cons.1 h
    have hnlt : ¬ n.name < c.name := fun hlt => String.lt_irrefl _ (String.lt_trans hlt hc)
    rw [place, if_neg hnlt, if_pos hc, ih hrest, List.cons_append]

mutual
theorem toNode_toTemplate : (n : Node) → n.Complete → n.Ordered →
    n.toTemplate.toNode n.name = .ok n
  | .file name data, h, _ => by
    cases h with
    | file key permissions owner =>
      simp only [toTemplate, Template.toNode, Node.name]
      rw [if_neg key, if_pos trivial, Template.orDefault_empty, Template.orDefault_some permissions,
        Template.orDefault_some owner]
      rfl
  | .dir name owner cs, h, ho => by
    cases h with
    | dir key owned below =>
      have hread : Template.toNodes [] (toTemplates cs) = .ok ([] ++ cs) :=
        toNodes_toTemplates cs below (ho.children.2) ho.children.1
      simp only [toTemplate, Template.toNode, Node.name]
      rw [if_neg key, if_neg (by decide), if_pos trivial, hread, Template.orDefault_some owned]
      rfl

/-- Written children come in the order of their names, so each is read behind the others. -/
theorem toNodes_toTemplates : (cs : List Node) → ∀ {made : List Node}, (∀ c ∈ cs, c.Complete) →
    (∀ c ∈ cs, c.Ordered) → (made ++ cs).Pairwise (·.name < ·.name) →
    Template.toNodes made (toTemplates cs) = .ok (made ++ cs)
  | [], made, _, _, _ => by rw [toTemplates, Template.toNodes, List.append_nil]
  | c :: rest, made, h, ho, hsorted => by
    obtain ⟨hc, hrest⟩ := List.forall_mem_cons.1 h
    obtain ⟨hco, hresto⟩ := List.forall_mem_cons.1 ho
    have hlast : ∀ m ∈ made, m.name < c.name := fun m hm =>
      (List.pairwise_append.1 hsorted).2.2 m hm c List.mem_cons_self
    have hread : Template.toNodes (made ++ [c]) (toTemplates rest) = .ok (made ++ [c] ++ rest) :=
      toNodes_toTemplates rest hrest hresto (by simpa using hsorted)
    rw [toTemplates, Template.toNodes, toNode_toTemplate c hc hco]
    change Template.toNodes (place c made) (toTemplates rest) = _
    rw [place_eq_append hlast, hread, List.append_assoc, List.singleton_append]
end

end Node

namespace FileTree

open Template (IsKey)

variable {t t' : FileTree} {path : String}

theorem ofTemplate_eq_ok {d : Template} :
    ofTemplate d = .ok t ↔ d.toNode (d.name.getD "") = .ok t.root := by
  unfold ofTemplate
  split
  · next e he => simp [he]
  · next n hn =>
    simp only [hn, Except.ok.injEq]
    exact ⟨fun h => h ▸ rfl, fun h => FileTree.ext h⟩

def Complete (t : FileTree) : Prop := t.root.Complete

theorem complete_ofTemplate {d : Template} (h : ofTemplate d = .ok t) : t.Complete :=
  Node.complete_toNode _ d (ofTemplate_eq_ok.1 h)

theorem base_complete : base.Complete := by
  have hread : ofTemplate base.root.toTemplate = .ok base := by rfl
  exact complete_ofTemplate hread

theorem Complete.ofTemplate_toTemplate (h : t.Complete) :
    ofTemplate t.root.toTemplate = .ok t := by
  have hname : t.root.toTemplate.name.getD "" = t.root.name := by
    cases t.root <;> rfl
  rw [ofTemplate_eq_ok, hname]
  exact Node.toNode_toTemplate t.root h t.ordered

theorem isKey_of_mem_segments {s : String} (path : String) (h : s ∈ Path.segments path) :
    IsKey s :=
  fun hslash => (Path.ne_empty_of_mem_segments h).2 hslash.1

theorem isKey_name (path : String) : IsKey (Path.name path) := by
  cases hs : Path.segments path with
  | nil =>
    rw [Path.name_eq_empty_iff.2 hs]
    exact fun hslash => absurd hslash.1 (by decide)
  | cons name rest =>
    refine isKey_of_mem_segments path ?_
    rw [← Path.segments_parent_append_name (by rw [hs]; exact List.cons_ne_nil _ _)]
    exact List.mem_append_right _ (List.mem_singleton_self _)

theorem Complete.lookup {n : Node} (h : t.Complete) (hn : t.lookup path = some n) : n.Complete :=
  Node.Complete.get? h hn

theorem Complete.graft {new : Option Node} {name : String} {rest : List String} (h : t.Complete)
    (hs : Path.segments path = name :: rest) (hnew : ∀ n ∈ new, n.Complete)
    (hg : Node.graft new t.root name rest = .ok t'.root) : t'.Complete := by
  have hkeys : ∀ s ∈ name :: rest, IsKey s := fun s hmem =>
    isKey_of_mem_segments path (hs ▸ hmem)
  exact Node.graft_preserves (fun h hc => h.child? hc)
    (fun h hname hnew => h.withChild hname hnew) h hkeys hnew hg

theorem Complete.put {new : FileTree} (h : t.Complete) (hnew : new.Complete)
    (hput : t.put path new = .ok t') : t'.Complete := by
  cases hs : Path.segments path with
  | nil =>
    simp only [FileTree.put, hs] at hput
    split at hput
    · cases hput
      exact Node.Complete.rename hnew fun hslash => hslash.2 rfl
    · cases hput
  | cons name rest =>
    refine h.graft hs (fun n hn => ?_) (put_eq_graft hs hput)
    cases hn
    exact hnew

theorem complete_emptyDir {name : String} (h : IsKey name) : (emptyDir name).Complete := by
  have howner : defaultOwner ≠ "" := by decide
  exact Node.Complete.dir h howner (by simp)

/-- New files and directories have an owner and permissions, and files that are changed keep theirs
or get those of another mode. -/
theorem Complete.growth (h : t.Complete) (he : Growth path t t') : t'.Complete := by
  have hplain : plainMode ≠ "" := by decide
  have hexecutable : executableMode ≠ "" := by decide
  have howner : defaultOwner ≠ "" := by decide
  cases he with
  | write content hwrite =>
    obtain ⟨name, data, hold, hput⟩ := write_eq_ok hwrite
    refine h.put ?_ hput
    rcases hold with ⟨-, rfl, rfl⟩ | hfile
    · exact .file (isKey_name path) hplain howner
    · cases h.lookup hfile with
      | file key permissions owner => exact .file key permissions owner
  | makeDir _ hput => exact h.put (complete_emptyDir (isKey_name path)) hput
  | setMode name data executable hfile hput =>
    refine h.put ?_ hput
    cases h.lookup hfile with
    | file key permissions owner =>
      cases executable with
      | false => exact .file key hplain owner
      | true => exact .file key hexecutable owner

theorem Complete.edit (h : t.Complete) (he : Edit path t t') : t'.Complete := by
  rcases he with hgrow | hremove
  · exact h.growth hgrow
  · obtain ⟨name, rest, hs, hg⟩ := remove_eq_graft hremove
    exact h.graft hs (by simp) hg

theorem Complete.series {paths : List String} (h : t.Complete) (hseries : Series Edit paths t t') :
    t'.Complete := by
  induction hseries with
  | refl => exact h
  | tail _ hstep ih =>
    obtain ⟨path, -, hedit⟩ := hstep
    exact ih.edit hedit

end FileTree

end PuzzleShell
