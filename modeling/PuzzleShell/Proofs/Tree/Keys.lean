import PuzzleShell.Proofs.Path.Joining
import PuzzleShell.Proofs.Tree.ReadBack
import PuzzleShell.Proofs.Tree.WellFormed

/-!
# Trees by the keys of their templates

A template lists what a directory holds by keys, and each key becomes the name of the node that is
read under it. A node below the root is looked up under the path that the keys leading to it make.
The path has those of the keys as segments that are neither empty nor a slash, and reading refuses
every other key with a slash in it. So a node is found where its keys lead as long as none of these
two is among them, and both are keys that reading lets pass.
-/

namespace PuzzleShell

open Template (IsKey)

namespace Node

variable {n m : Node} {keys : List String}

/-- The keys lead from one node down to another, each being the name of a child of the last. -/
inductive Leads : Node → List String → Node → Prop
  | here (n : Node) : Leads n [] n
  | down {d c m : Node} {keys : List String} (child : c ∈ d.children) (below : Leads c keys m) :
      Leads d (c.name :: keys) m

theorem Leads.get?_eq (h : n.Leads keys m) (ho : n.Ordered) : n.get? keys = some m := by
  induction h with
  | here => rfl
  | down child below ih =>
    rw [get?_cons, ho.child?_of_mem child, Option.bind_some]
    exact ih (ho.children.2 _ child)

theorem leads_of_get? (h : n.get? keys = some m) : n.Leads keys m := by
  induction keys generalizing n with
  | nil =>
    cases h
    exact .here _
  | cons key rest ih =>
    rw [get?_cons] at h
    obtain ⟨c, hc, hbelow⟩ := Option.bind_eq_some_iff.1 h
    obtain rfl : c.name = key := name_of_child? hc
    exact .down (List.mem_of_find?_eq_some hc) (ih hbelow)

theorem Leads.isKey (h : n.Leads keys m) (hn : n.Complete) : ∀ key ∈ keys, IsKey key := by
  induction h with
  | here => exact List.forall_mem_nil _
  | down child below ih =>
    have hchild := hn.children _ child
    exact List.forall_mem_cons.2 ⟨hchild.key, ih hchild⟩

theorem Leads.name_mem (h : n.Leads keys m) (hne : keys ≠ []) : m.name ∈ keys := by
  induction h with
  | here => exact absurd rfl hne
  | @down d c m keys child below ih =>
    by_cases hkeys : keys = []
    · subst hkeys
      cases below
      exact List.mem_cons_self
    · exact List.mem_cons_of_mem _ (ih hkeys)

end Node

namespace Path

/-- A key makes a segment of its own unless it is empty or a slash. -/
theorem segments_ofSegments_eq_filter {keys : List String} (h : ∀ key ∈ keys, IsKey key) :
    segments (ofSegments keys) = keys.filter fun key => key ≠ "" ∧ key ≠ "/" := by
  have hslash : segments "/" = [] := by decide +kernel
  rw [segments_ofSegments_eq_flatMap]
  induction keys with
  | nil => rfl
  | cons key rest ih =>
    obtain ⟨hkey, hrest⟩ := List.forall_mem_cons.1 h
    rw [List.flatMap_cons, ih hrest]
    by_cases hproper : key ≠ "" ∧ key ≠ "/"
    · have hsegment : '/' ∉ key.toList := fun hmem => hkey ⟨hmem, hproper.2⟩
      rw [segments_eq_singleton hproper.1 hsegment,
        List.filter_cons_of_pos (by simpa using hproper), List.singleton_append]
    · have hnone : segments key = [] := by
        rcases Decidable.not_and_iff_or_not.1 hproper with h | h
        · rw [Decidable.not_not.1 h, segments_empty]
        · rw [Decidable.not_not.1 h, hslash]
      rw [hnone, List.filter_cons_of_neg (by simpa using hproper), List.nil_append]

end Path

namespace Template

mutual
/-- The keys at any depth under which nodes are read; what a file lists is left unread. -/
def keys : Template → List String
  | ⟨kind, _, _, _, _, _, children⟩ => if kind = .text "file" then [] else keysAll children

def keysAll : List (String × Template) → List String
  | [] => []
  | (key, t) :: rest => key :: (keys t ++ keysAll rest)
end

def plain : Template := { kind := .text "file" }

def folder (children : List (String × Template)) : Template :=
  { kind := .text "directory", children }

theorem name_of_toNode {name : String} {t : Template} {n : Node} (h : t.toNode name = .ok n) :
    n.name = name := by
  obtain ⟨-, ⟨-, rfl⟩ | ⟨-, made, -, rfl⟩⟩ := toNode_cases h
  · rfl
  · rfl

mutual
theorem keys_of_leads (name : String) : (t : Template) → ∀ {n m : Node} {path : List String},
    t.toNode name = .ok n → n.Leads path m → ∀ key ∈ path, key ∈ t.keys
  | ⟨kind, _, content, executable, permissions, owner, children⟩, n, m, path, h, hleads => by
    obtain ⟨-, ⟨-, rfl⟩ | ⟨hdir, made, hm, rfl⟩⟩ := toNode_cases h
    · cases hleads with
      | here => exact List.forall_mem_nil _
      | down child => cases child
    · have hfile : kind ≠ .text "file" := fun hfile => absurd (hfile.symm.trans hdir) (by decide)
      rw [keys, if_neg hfile]
      cases hleads with
      | here => exact List.forall_mem_nil _
      | down child below =>
        rcases keysAll_of_leads children hm _ child with hmade | ⟨hname, hbelow⟩
        · cases hmade
        · exact List.forall_mem_cons.2 ⟨hname, hbelow below⟩

theorem keysAll_of_leads : (ts : List (String × Template)) → ∀ {made ns : List Node},
    toNodes made ts = .ok ns → ∀ c ∈ ns, c ∈ made ∨ c.name ∈ keysAll ts ∧
      ∀ {m : Node} {path : List String}, c.Leads path m → ∀ key ∈ path, key ∈ keysAll ts
  | [], made, ns, h, c, hc => by
    simp only [toNodes, Except.ok.injEq] at h
    exact .inl (h ▸ hc)
  | (key, t) :: rest, made, ns, h, c, hc => by
    simp only [toNodes] at h
    cases hn : t.toNode key with
    | error e => rw [hn] at h; cases h
    | ok n =>
      rw [hn] at h
      simp only [keysAll, List.mem_cons, List.mem_append]
      rcases keysAll_of_leads rest h c hc with hmade | ⟨hname, hbelow⟩
      · rcases Node.mem_place hmade with rfl | hmade
        · refine .inr ⟨.inl (name_of_toNode hn), fun hleads k hk => .inr (.inl ?_)⟩
          exact keys_of_leads key t hn hleads k hk
        · exact .inl hmade
      · exact .inr ⟨.inr (.inr hname), fun hleads k hk => .inr (.inr (hbelow hleads k hk))⟩
end

end Template

namespace FileTree

variable {t : FileTree} {d : Template} {n : Node} {keys : List String}

theorem exists_of_toNode (h : d.toNode (d.name.getD "") = .ok n) :
    ∃ t, ofTemplate d = .ok t ∧ t.root = n :=
  ⟨⟨n, Template.ordered_toNode _ d h⟩, ofTemplate_eq_ok.2 h, rfl⟩

/-- Where the path made of the keys leads, in a tree that was read from a template. -/
theorem lookup_of_leads (h : ofTemplate d = .ok t) (hn : t.root.Leads keys n) :
    (∀ key ∈ keys, key ∈ d.keys ∧ ('/' ∈ key.toList → key = "/")) ∧
      t.lookup (Path.ofSegments keys) =
        t.root.get? (keys.filter fun key => key ≠ "" ∧ key ≠ "/") ∧
      ((∀ key ∈ keys, key ≠ "" ∧ key ≠ "/") →
        (keys ≠ [] → n.name ≠ "" ∧ '/' ∉ n.name.toList) ∧
          t.lookup (Path.ofSegments keys) = some n) := by
  have hkeys : ∀ key ∈ keys, IsKey key := hn.isKey (complete_ofTemplate h)
  have hread : ∀ key ∈ keys, '/' ∈ key.toList → key = "/" := fun key hkey hslash =>
    Decidable.byContradiction fun hne => hkeys key hkey ⟨hslash, hne⟩
  have hlookup : t.lookup (Path.ofSegments keys) =
      t.root.get? (keys.filter fun key => key ≠ "" ∧ key ≠ "/") := by
    rw [lookup, Path.segments_ofSegments_eq_filter hkeys]
  refine ⟨fun key hkey => ⟨?_, hread key hkey⟩, hlookup, fun hproper => ⟨fun hne => ?_, ?_⟩⟩
  · exact Template.keys_of_leads _ d (ofTemplate_eq_ok.1 h) hn key hkey
  · have hname := hn.name_mem hne
    exact ⟨(hproper _ hname).1, fun hslash => (hproper _ hname).2 (hread _ hname hslash)⟩
  · rw [hlookup, List.filter_eq_self.2 (by simpa using hproper), hn.get?_eq t.ordered]

/-- Dots are not followed when a key is looked up. -/
theorem lookup_of_leads_dots : ∃ t,
    ofTemplate (.folder [("a", .folder [("..", .plain)])]) = .ok t ∧
      t.root.Leads ["a", ".."] (.file ".." {}) ∧
      t.lookup (Path.ofSegments ["a", ".."]) = some (.file ".." {}) := by
  obtain ⟨t, hread, hroot⟩ : ∃ t, ofTemplate (.folder [("a", .folder [("..", .plain)])]) = .ok t ∧
      t.root = .dir "" "user" [.dir "a" "user" [.file ".." {}]] := exists_of_toNode rfl
  have hleads : t.root.Leads ["a", ".."] (.file ".." {}) :=
    Node.leads_of_get? (by rw [hroot]; decide)
  exact ⟨t, hread, hleads, ((lookup_of_leads hread hleads).2.2 (by decide)).2⟩

/-- An empty key and a slash pass when they are read, but no path is made of them. -/
theorem lookup_of_unchecked {key : String} (hkey : key = "" ∨ key = "/") : ∃ t,
    ofTemplate (.folder [(key, .plain)]) = .ok t ∧ t.root.Leads [key] (.file key {}) ∧
      t.lookup (Path.ofSegments [key]) = some (.dir "" defaultOwner [.file key {}]) := by
  have hnode : (Template.folder [(key, .plain)]).toNode "" =
      .ok (.dir "" defaultOwner [.file key {}]) := by
    rcases hkey with rfl | rfl <;> rfl
  obtain ⟨t, hread, hroot⟩ : ∃ t, ofTemplate (.folder [(key, .plain)]) = .ok t ∧
      t.root = .dir "" defaultOwner [.file key {}] := exists_of_toNode hnode
  have hnone : Path.segments (Path.ofSegments [key]) = [] := by
    rcases hkey with rfl | rfl <;> decide +kernel
  refine ⟨t, hread, ?_, ?_⟩
  · rw [hroot]
    exact .down (c := .file key {}) (List.mem_singleton_self _) (.here _)
  · rw [lookup, hnone, hroot]
    rfl

/-- Below a root that holds a file called `/` no path leads to this file. -/
theorem lookup_of_leads_slash : ∃ t,
    ofTemplate (.folder [("/", .plain)]) = .ok t ∧ t.root.Leads ["/"] (.file "/" {}) ∧
      '/' ∈ (Node.file "/" {}).name.toList ∧
      t.lookup (Path.ofSegments ["/"]) ≠ some (.file "/" {}) := by
  obtain ⟨t, hread, hleads, hlookup⟩ := lookup_of_unchecked (.inr (Eq.refl "/"))
  exact ⟨t, hread, hleads, by decide, fun hfile => by cases hlookup.symm.trans hfile⟩

end FileTree

end PuzzleShell
