import PuzzleShell.Proofs.Tree.Change

/-!
# When an edit succeeds

An entry can be put in place or taken away exactly when the place above it is a directory; a file
can be written when besides the place itself is no directory. The only things that a write reports
are these two. After it the file is found at its path, with the data of the file that was there.
-/

namespace PuzzleShell

theorem Path.segments_root : segments "/" = [] := by decide +kernel

theorem Path.Canonical.segments_eq_nil_iff {path : String} (h : Canonical path) :
    Path.segments path = [] ↔ path = "/" := by
  constructor
  · intro hs
    rw [← h.ofSegments_segments, hs]
    decide
  · rintro rfl
    exact segments_root

namespace Node

theorem any_isDir_get?_file (name : String) (data : FileData) (path : List String) :
    ((Node.file name data).get? path).any (·.isDir) = false := by
  cases path <;> rfl

theorem exists_graft_iff {new : Option Node} {d : Node} {name : String} {rest : List String} :
    (∃ d', graft new d name rest = .ok d') ↔
      (d.get? (name :: rest).dropLast).any (·.isDir) = true := by
  induction rest generalizing d name with
  | nil =>
    rw [graft, List.dropLast_singleton, get?, Option.any_some]
    split
    · next hd => simp [hd]
    · next hd => simp [hd]
  | cons next rest ih =>
    rw [graft, List.dropLast_cons_cons, get?_cons]
    cases d.child? name with
    | none => simp
    | some c =>
      cases c with
      | file m data => simp [any_isDir_get?_file]
      | dir m o cs =>
        rw [Option.bind_some, ← ih]
        dsimp only
        cases graft new (.dir m o cs) next rest with
        | error e => simp [bind, Except.bind]
        | ok c => simp [bind, Except.bind, pure, Except.pure]

end Node

namespace FileTree

variable {t t' : FileTree} {path : String}

theorem exists_graft_iff {new : Option FileTree} {name : String} {rest : List String}
    (hs : Path.segments path = name :: rest) :
    (∃ t', t.graft new name rest = .ok t') ↔ t.hasDir (Path.parent path) = true := by
  rw [hasDir, lookup, Path.segments_parent, hs, ← Node.exists_graft_iff]
  constructor
  · rintro ⟨t', h⟩
    exact ⟨t'.root, graft_eq_ok.1 h⟩
  · rintro ⟨d', h⟩
    cases hg : t.graft new name rest with
    | ok t' => exact ⟨t', rfl⟩
    | error e =>
      rw [graft_eq_error.1 hg] at h
      cases h

theorem exists_put_iff {new : FileTree} (hs : Path.segments path ≠ []) :
    (∃ t', t.put path new = .ok t') ↔ t.hasDir (Path.parent path) = true := by
  obtain ⟨name, rest, hcons⟩ := List.exists_cons_of_ne_nil hs
  simp only [put, hcons]
  exact exists_graft_iff hcons

theorem exists_remove_iff (hs : Path.segments path ≠ []) :
    (∃ t', t.remove path = .ok t') ↔ t.hasDir (Path.parent path) = true := by
  obtain ⟨name, rest, hcons⟩ := List.exists_cons_of_ne_nil hs
  simp only [remove, hcons]
  exact exists_graft_iff hcons

/-- Nothing is above the root, but the root is always there. -/
theorem segments_ne_nil_of_missing (h : ¬ (t.lookup path).isSome = true) :
    Path.segments path ≠ [] := by
  intro hs
  rw [lookup, hs] at h
  exact h rfl

theorem hasDir_parent (hs : Path.segments path ≠ []) (h : (t.lookup path).isSome = true) :
    t.hasDir (Path.parent path) = true := by
  obtain ⟨n, hn⟩ := Option.isSome_iff_exists.1 h
  rw [lookup_eq_child? hs] at hn
  obtain ⟨d, hd, hc⟩ := Option.bind_eq_some_iff.1 hn
  exact hasDir_eq_true_iff.2 ⟨d, hd, Node.isDir_of_child? hc⟩

theorem lookup_put {new : FileTree} (hs : Path.segments path ≠ []) (h : t.put path new = .ok t') :
    t'.lookup path = some (new.root.rename (Path.name path)) := by
  obtain ⟨name, rest, hcons⟩ := List.exists_cons_of_ne_nil hs
  have hname : (name :: rest).getLast (List.cons_ne_nil _ _) = Path.name path := by
    rw [Path.name, hcons, List.getLast?_eq_some_getLast (List.cons_ne_nil _ _), Option.getD_some]
  have hget := Node.get?_graft_append (put_eq_graft hcons h) []
  rw [List.append_nil, hname] at hget
  rw [lookup, hcons, hget]
  rfl

/-- A file can be written here: in a directory, and not in place of one. -/
structure Writable (t : FileTree) (path : String) : Prop where
  ne_root : path ≠ "/"
  parent : t.hasDir (Path.parent path) = true
  vacant : t.hasDir path = false

theorem Writable.of_vacant (hparent : t.hasDir (Path.parent path) = true)
    (hvacant : t.hasDir path = false) : t.Writable path := by
  refine ⟨?_, hparent, hvacant⟩
  -- The root is the directory above itself.
  rintro rfl
  have hsame : Path.parent "/" = "/" := by decide +kernel
  rw [hsame, hvacant] at hparent
  cases hparent

def fileAt (t : FileTree) (path : String) : FileData :=
  match t.lookup path with
  | some (.file _ data) => data
  | _ => {}

theorem segments_ne_nil_of_write {content : String} (h : t.write path content = .ok t') :
    Path.segments path ≠ [] := by
  intro hs
  rw [write, if_pos (Path.name_eq_empty_iff.2 hs)] at h
  cases h

theorem exists_write_iff {content : String} (hpath : Path.Canonical path) :
    (∃ t', t.write path content = .ok t') ↔ t.Writable path := by
  constructor
  · rintro ⟨t', h⟩
    have hs := segments_ne_nil_of_write h
    obtain ⟨name, data, -, hput⟩ := write_eq_ok h
    exact ⟨fun he => hs (hpath.segments_eq_nil_iff.2 he), (exists_put_iff hs).1 ⟨t', hput⟩,
      (Growth.write content h).vacant⟩
  · rintro ⟨hroot, hparent, hvacant⟩
    have hs : Path.segments path ≠ [] := fun hs => hroot (hpath.segments_eq_nil_iff.1 hs)
    obtain ⟨d, hd, hdir⟩ := hasDir_eq_true_iff.1 hparent
    have hlookup := lookup_eq_child? (t := t) hs
    rw [hd, Option.bind_some] at hlookup
    rw [hasDir, hlookup] at hvacant
    cases d with
    | file => cases hdir
    | dir m o cs =>
      rw [write, if_neg (mt Path.name_eq_empty_iff.1 hs), hd]
      dsimp only
      split
      · next hc =>
        rw [hc] at hvacant
        cases hvacant
      · exact (exists_put_iff hs).2 hparent
      · exact (exists_put_iff hs).2 hparent

theorem write_eq_error {content : String} {e : EditError} (h : t.write path content = .error e) :
    e = .isDirectory path ∨ e = .notFound path := by
  rw [write] at h
  split at h
  · cases h
    exact .inl rfl
  · next hname =>
    have hs : Path.segments path ≠ [] := fun hs => hname (Path.name_eq_empty_iff.2 hs)
    split at h
    · next m o cs hd =>
      have hput (new : FileTree) : ∃ t', t.put path new = .ok t' :=
        (exists_put_iff hs).2 (hasDir_eq_true_iff.2 ⟨_, hd, rfl⟩)
      split at h
      · cases h
        exact .inl rfl
      · obtain ⟨t', ht'⟩ := hput (.file _ _)
        rw [ht'] at h
        cases h
      · obtain ⟨t', ht'⟩ := hput (.file _ _)
        rw [ht'] at h
        cases h
    · cases h
      exact .inr rfl

theorem lookup_write {content : String} (h : t.write path content = .ok t') :
    t'.lookup path = some (.file (Path.name path) { t.fileAt path with content }) := by
  obtain ⟨name, data, hold, hput⟩ := write_eq_ok h
  have hdata : data = t.fileAt path := by
    unfold fileAt
    rcases hold with ⟨hnone, -, rfl⟩ | hfile
    · rw [hnone]
    · rw [hfile]
  rw [lookup_put (segments_ne_nil_of_write h) hput, hdata]
  rfl

theorem lookup_below_vacant {other : String} (hvacant : t.hasDir path = false)
    (hunder : Path.Covers path other) (hover : ¬ Path.Covers other path) :
    t.lookup other = none := by
  cases hn : t.lookup other with
  | none => rfl
  | some n =>
    obtain ⟨d, hd, heq | hdir⟩ := Node.get?_of_prefix hn hunder
    · have hback : Path.segments other <+: Path.segments path := heq ▸ List.prefix_refl _
      exact absurd hback hover
    · rw [hasDir_eq_true_iff.2 ⟨d, hd, hdir⟩] at hvacant
      cases hvacant

theorem lookup_put_of_apart {new : FileTree} {other : String} (h : t.put path new = .ok t')
    (hover : ¬ Path.Covers other path) (hunder : ¬ Path.Covers path other) :
    t'.lookup other = t.lookup other := by
  cases hs : Path.segments path with
  | nil =>
    refine absurd ?_ hunder
    rw [Path.Covers, hs]
    exact List.nil_prefix
  | cons name rest =>
    rw [Path.Covers, hs] at hover hunder
    exact Node.get?_graft_of_apart (put_eq_graft hs h) hover hunder

theorem lookup_write_of_apart {content other : String} (h : t.write path content = .ok t')
    (hover : ¬ Path.Covers other path) : t'.lookup other = t.lookup other := by
  by_cases hunder : Path.Covers path other
  · have hafter : t'.hasDir path = false := by
      rw [hasDir, lookup_write h]
      rfl
    rw [lookup_below_vacant hafter hunder hover,
      lookup_below_vacant (Growth.write content h).vacant hunder hover]
  · obtain ⟨name, data, -, hput⟩ := write_eq_ok h
    exact lookup_put_of_apart hput hover hunder

theorem put_self {new : FileTree} (hs : Path.segments path ≠ [])
    (h : t.lookup path = some new.root) : t.put path new = .ok t := by
  obtain ⟨name, rest, hcons⟩ := List.exists_cons_of_ne_nil hs
  rw [lookup, hcons] at h
  simp only [put, hcons]
  exact graft_eq_ok.2 (t.ordered.graft_self h)

theorem write_self {name : String} {data : FileData} (hs : Path.segments path ≠ [])
    (h : t.lookup path = some (.file name data)) : t.write path data.content = .ok t := by
  have hfile := h
  rw [lookup_eq_child? hs] at hfile
  obtain ⟨d, hd, hc⟩ := Option.bind_eq_some_iff.1 hfile
  cases d with
  | file => cases hc
  | dir m o cs =>
    rw [write, if_neg (mt Path.name_eq_empty_iff.1 hs), hd]
    dsimp only
    rw [hc]
    exact put_self hs h

end FileTree

end PuzzleShell
