import PuzzleShell.Proofs.Tree.Labels

/-!
# Look-ups after an edit

An edit at a path below the root is possible when everything above the path is a directory, and
fails for want of one otherwise. Afterwards the new entry, or nothing, is found at and below the
path; the directories above it differ in the one child that leads there; and from all other places
the edit is not seen. So of two edits at a path only the second counts.
-/

namespace PuzzleShell

open PuzzleShell.Path (Covers covers_parent not_covers_parent)

namespace Node

theorem graft_eq_error {new : Option Node} {d : Node} {name : String} {rest : List String}
    {e : EditError} (h : graft new d name rest = .error e) :
    ∃ left, left <:+ name :: rest ∧ e = .notFound ("/".intercalate left) := by
  induction rest generalizing d name with
  | nil =>
    rw [graft] at h
    split at h
    · cases h
    · cases h
      exact ⟨[name], List.suffix_refl _, congrArg EditError.notFound (by simp)⟩
  | cons next rest ih =>
    rw [graft] at h
    split at h
    · next m o cs hc =>
      cases hg : graft new (.dir m o cs) next rest with
      | ok c => rw [hg] at h; cases h
      | error e' =>
        rw [hg] at h
        cases h
        obtain ⟨left, hleft, he⟩ := ih hg
        exact ⟨left, hleft.trans (List.suffix_cons _ _), he⟩
    · cases h
      exact ⟨name :: next :: rest, List.suffix_refl _, rfl⟩

theorem get?_rename_cons (n : Node) (name child : String) (rest : List String) :
    (n.rename name).get? (child :: rest) = n.get? (child :: rest) := by
  rw [get?_cons, get?_cons]
  cases n <;> rfl

/-- Two directories that can only be told apart by the child of one name. -/
structure AgreeBut (name : String) (d d' : Node) : Prop where
  isDir : d.isDir = true ∧ d'.isDir = true
  name_eq : d'.name = d.name
  owner_eq : d'.owner = d.owner
  child?_eq : ∀ child, child ≠ name → d'.child? child = d.child? child

end Node

namespace FileTree

variable {t t' : FileTree} {path place : String}

/-- Something above the path is missing or is a file. -/
def Obstructed (t : FileTree) (path : String) : Prop :=
  ∃ above, Covers above path ∧ ¬ Covers path above ∧ t.hasDir above = false

theorem obstructed_iff (hs : Path.segments path ≠ []) :
    t.Obstructed path ↔ t.hasDir (Path.parent path) = false := by
  constructor
  · rintro ⟨above, hover, hproper, hfalse⟩
    cases hdir : t.hasDir (Path.parent path) with
    | false => rfl
    | true =>
      rw [hasDir_of_covers (covers_parent hover hproper) hdir] at hfalse
      cases hfalse
  · intro hfalse
    refine ⟨Path.parent path, ?_, not_covers_parent hs, hfalse⟩
    rw [Covers, Path.segments_parent]
    exact List.dropLast_prefix _

/-- `t'` is `t` with `new` in place of what is at the path, or with nothing there. -/
structure Replaces (t t' : FileTree) (path : String) (new : Option FileTree) : Prop where
  here : ∀ place, Path.segments place = Path.segments path →
    t'.lookup place = new.map fun n => n.root.rename (Path.name path)
  below : ∀ place rest, Path.segments rest ≠ [] →
    Path.segments place = Path.segments path ++ Path.segments rest →
    t'.lookup place = new.bind (·.lookup rest)
  above : ∀ place, Covers place path → ¬ Covers path place → ∃ d d' next,
    t.lookup place = some d ∧ t'.lookup place = some d' ∧ Node.AgreeBut next d d' ∧
    Path.segments place ++ [next] <+: Path.segments path
  apart : ∀ place, ¬ Covers place path → ¬ Covers path place →
    t'.lookup place = t.lookup place

section Graft

variable {new : Option FileTree} {name : String} {rest : List String}
  (hs : Path.segments path = name :: rest)
  (h : Node.graft (new.map root) t.root name rest = .ok t'.root)
include hs h

theorem lookup_graft {below : List String}
    (hplace : Path.segments place = Path.segments path ++ below) : t'.lookup place =
      (new.map fun n => n.root.rename (Path.name path)).bind (·.get? below) := by
  have hname : (name :: rest).getLast (List.cons_ne_nil _ _) = Path.name path := by
    rw [Path.name, hs, List.getLast?_eq_some_getLast (List.cons_ne_nil _ _), Option.getD_some]
  rw [lookup, hplace, hs, Node.get?_graft_append h, hname, Option.map_map]
  rfl

theorem agreeBut_graft (hover : Covers place path) (hproper : ¬ Covers path place) :
    ∃ d d' next, t.lookup place = some d ∧ t'.lookup place = some d' ∧ Node.AgreeBut next d d' ∧
      Path.segments place ++ [next] <+: Path.segments path := by
  have hparent := (exists_graft_iff hs).1 ⟨t', graft_eq_ok.2 h⟩
  obtain ⟨d, hd, hdir⟩ :=
    hasDir_eq_true_iff.1 (hasDir_of_covers (covers_parent hover hproper) hparent)
  have hlabel : (t'.lookup place).map Node.label = (t.lookup place).map Node.label := by
    rw [Covers, hs] at hproper
    exact Node.map_label_get?_graft h hproper
  rw [hd, Option.map_some] at hlabel
  obtain ⟨d', hd', hsame⟩ := Option.map_eq_some_iff.1 hlabel
  obtain ⟨left, hleft⟩ := hover
  cases left with
  | nil =>
    rw [List.append_nil] at hleft
    exact absurd (Path.covers_of_segments_eq hleft.symm) hproper
  | cons next left =>
    refine ⟨d, d', next, hd, hd', ?_, left, by rw [← hleft, List.append_assoc]; rfl⟩
    have hname : d'.name = d.name := by simpa using congrArg Node.name hsame
    have howner : d'.owner = d.owner := by simpa using congrArg Node.owner hsame
    have hdir' : d'.isDir = d.isDir := by simpa using congrArg Node.isDir hsame
    refine ⟨⟨hdir, hdir'.trans hdir⟩, hname, howner, fun child hchild => ?_⟩
    have hover : ¬ Path.segments place ++ [child] <+: name :: rest := by
      rw [← hs, ← hleft, List.prefix_append_right_inj, List.cons_prefix_cons]
      exact fun h => hchild h.1
    have hunder : ¬ name :: rest <+: Path.segments place ++ [child] := by
      rw [← hs, ← hleft, List.prefix_append_right_inj, List.cons_prefix_cons]
      exact fun h => hchild h.1.symm
    have hget := Node.get?_graft_of_apart h hover hunder
    rw [lookup] at hd hd'
    rwa [Node.get?_append, Node.get?_append, hd, hd', Option.bind_some, Option.bind_some,
      Node.get?_singleton, Node.get?_singleton] at hget

theorem replaces_of_graft : Replaces t t' path new where
  here place hplace := by
    rw [lookup_graft hs h (hplace.trans (List.append_nil _).symm)]
    cases new <;> rfl
  below place other hother hplace := by
    rw [lookup_graft hs h hplace]
    obtain ⟨child, left, hleft⟩ := List.exists_cons_of_ne_nil hother
    cases new with
    | none => rfl
    | some n =>
      rw [Option.map_some, Option.bind_some, Option.bind_some, lookup, hleft, Node.get?_rename_cons]
  above place hover hproper := agreeBut_graft hs h hover hproper
  apart place hover hunder := by
    rw [Covers, hs] at hover hunder
    exact Node.get?_graft_of_apart h hover hunder

end Graft

theorem graft_refused {name : String} {rest : List String} (hs : Path.segments path = name :: rest)
    (new : Option FileTree) :
    (∃ left, t.graft new name rest = .error (.notFound left)) ↔ t.Obstructed path := by
  have hne : Path.segments path ≠ [] := hs ▸ List.cons_ne_nil _ _
  rw [obstructed_iff hne]
  constructor
  · rintro ⟨left, herror⟩
    by_contra hdir
    obtain ⟨t', h⟩ := (exists_graft_iff hs).2 (Bool.of_not_eq_false hdir)
    rw [h] at herror
    cases herror
  · intro hdir
    cases hg : t.graft new name rest with
    | ok t' =>
      rw [(exists_graft_iff hs).1 ⟨t', hg⟩] at hdir
      cases hdir
    | error e =>
      obtain ⟨left, -, rfl⟩ := Node.graft_eq_error (graft_eq_error.1 hg)
      exact ⟨_, rfl⟩

section Twice

variable (hs : Path.segments path ≠ [])
include hs

theorem hasDir_parent_put {new : FileTree} (h : t.put path new = .ok t') :
    t'.hasDir (Path.parent path) = true := by
  rw [hasDir_eq_any_labelAt, labelAt_put h (not_covers_parent hs), ← hasDir_eq_any_labelAt]
  exact (exists_put_iff hs).1 ⟨t', h⟩

theorem put_put {m : FileTree} (h : t.put path m = .ok t') (n : FileTree) :
    t'.put path n = t.put path n := by
  have hparent : t.hasDir (Path.parent path) = true := (exists_put_iff hs).1 ⟨t', h⟩
  obtain ⟨t₁, h₁⟩ : ∃ t₁, t'.put path n = .ok t₁ := (exists_put_iff hs).2 (hasDir_parent_put hs h)
  obtain ⟨t₂, h₂⟩ : ∃ t₂, t.put path n = .ok t₂ := (exists_put_iff hs).2 hparent
  rw [h₁, h₂]
  refine congrArg Except.ok (eq_of_labelAt fun place => ?_)
  by_cases hunder : Path.segments path <+: place
  · obtain ⟨rest, rfl⟩ := hunder
    rw [labelAt_put_append hs h₁, labelAt_put_append hs h₂]
  · rw [labelAt_put_outside hs h₁ hunder, labelAt_put_outside hs h hunder,
      labelAt_put_outside hs h₂ hunder]

theorem remove_put (hnone : t.lookup path = none) {new : FileTree} (h : t.put path new = .ok t') :
    t'.remove path = .ok t := by
  obtain ⟨t₁, h₁⟩ := (exists_remove_iff hs).2 (hasDir_parent_put hs h)
  rw [h₁]
  refine congrArg Except.ok (eq_of_labelAt fun place => ?_)
  rw [labelAt_remove_eq h₁]
  split
  · next hunder =>
    obtain ⟨rest, rfl⟩ := hunder
    rw [lookup] at hnone
    rw [Node.labelAt_append, hnone, Option.bind_none]
  · next hunder => exact labelAt_put_outside hs h hunder

end Twice

structure EditLaws (t : FileTree) (path : String) : Prop where
  put_refused : ∀ new, (∃ left, t.put path new = .error (.notFound left)) ↔ t.Obstructed path
  remove_refused : (∃ left, t.remove path = .error (.notFound left)) ↔ t.Obstructed path
  put_replaces : ¬ t.Obstructed path → ∀ new, ∃ t', t.put path new = .ok t' ∧
    Replaces t t' path (some new)
  remove_replaces : ¬ t.Obstructed path → ∃ t', t.remove path = .ok t' ∧ Replaces t t' path none
  put_put : ∀ m n t', t.put path m = .ok t' → t'.put path n = t.put path n
  remove_put : t.lookup path = none → ∀ new t', t.put path new = .ok t' →
    t'.remove path = .ok t

/-- Below the root an edit fails exactly for want of a directory above its path, and what it does
otherwise is told by the look-ups. -/
theorem editLaws (t : FileTree) (hs : Path.segments path ≠ []) : t.EditLaws path := by
  obtain ⟨name, rest, hcons⟩ := List.exists_cons_of_ne_nil hs
  have hclear : ¬ t.Obstructed path → t.hasDir (Path.parent path) = true := by
    rw [obstructed_iff hs]
    exact Bool.of_not_eq_false
  constructor
  case put_refused =>
    intro new
    simp only [put, hcons]
    exact graft_refused hcons (some new)
  case remove_refused =>
    simp only [remove, hcons]
    exact graft_refused hcons none
  case put_replaces =>
    intro h new
    obtain ⟨t', hput⟩ : ∃ t', t.put path new = .ok t' := (exists_put_iff hs).2 (hclear h)
    exact ⟨t', hput, replaces_of_graft hcons (put_eq_graft hcons hput)⟩
  case remove_replaces =>
    intro h
    obtain ⟨t', hremove⟩ := (exists_remove_iff hs).2 (hclear h)
    refine ⟨t', hremove, replaces_of_graft hcons ?_⟩
    simp only [remove, hcons] at hremove
    exact graft_eq_ok.1 hremove
  case put_put => exact fun m n t' h => FileTree.put_put hs h n
  case remove_put => exact fun hnone new t' h => FileTree.remove_put hs hnone h

/-- A whole tree is put where nothing was, seen there under its new name, and removed again. -/
theorem editLaws_tmp : ∃ t, base.put "tmp//f" base = .ok t ∧
    (t.lookup "/tmp/f").map Node.label = some (.dir "f" defaultOwner []) ∧
    t.lookup "/tmp/f/home/user" = some (.dir "user" defaultOwner []) ∧
    t.remove "tmp//f" = .ok base := by
  have hs : Path.segments "tmp//f" ≠ [] := by decide +kernel
  have hclear : ¬ base.Obstructed "tmp//f" := by
    rw [obstructed_iff hs]
    decide +kernel
  have hnone : base.lookup "tmp//f" = none := by decide +kernel
  have hlaws := editLaws base hs
  obtain ⟨t, hput, hreplaces⟩ := hlaws.put_replaces hclear base
  have hhere := hreplaces.here "/tmp/f" (by decide +kernel)
  have hbelow := hreplaces.below "/tmp/f/home/user" "home/user" (by decide +kernel)
    (by decide +kernel)
  refine ⟨t, hput, ?_, ?_, hlaws.remove_put hnone base t hput⟩
  · rw [hhere]
    rfl
  · rw [hbelow]
    decide +kernel

end FileTree

end PuzzleShell
