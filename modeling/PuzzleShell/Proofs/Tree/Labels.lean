import PuzzleShell.Proofs.Tree.Success
import PuzzleShell.Proofs.Tree.WellFormed

/-!
# Trees known by their labels

Two ordered nodes are equal when along every list of names the same label is found in both. So an
edit is known by what it does to the labels: a graft brings the labels of its entry to its path, a
removal leaves none there, and a write changes a single one.
-/

namespace PuzzleShell

namespace Node

def labelAt (n : Node) (path : List String) : Option Node := (n.get? path).map label

theorem labelAt_append (n : Node) (path rest : List String) :
    n.labelAt (path ++ rest) = (n.get? path).bind (·.labelAt rest) := by
  rw [labelAt, get?_append]
  cases n.get? path <;> rfl

theorem labelAt_cons (n : Node) (name : String) (rest : List String) :
    n.labelAt (name :: rest) = (n.child? name).bind (·.labelAt rest) := by
  rw [← List.singleton_append, labelAt_append, get?_singleton]

theorem mem_iff_find? {siblings : List Node} {c : Node}
    (h : siblings.Pairwise (·.name < ·.name)) :
    c ∈ siblings ↔ siblings.find? (·.name == c.name) = some c :=
  ⟨find?_of_pairwise h, List.mem_of_find?_eq_some⟩

theorem nodup_of_sorted {siblings : List Node} (h : siblings.Pairwise (·.name < ·.name)) :
    siblings.Nodup := by
  refine h.imp fun {c d} hlt he => ?_
  rw [he] at hlt
  exact String.lt_irrefl _ hlt

theorem eq_of_find?_eq {cs ds : List Node} (hcs : cs.Pairwise (·.name < ·.name))
    (hds : ds.Pairwise (·.name < ·.name))
    (h : ∀ name, cs.find? (·.name == name) = ds.find? (·.name == name)) : cs = ds := by
  have hperm : cs.Perm ds := by
    refine (List.perm_ext_iff_of_nodup (nodup_of_sorted hcs) (nodup_of_sorted hds)).2 fun c => ?_
    rw [mem_iff_find? hcs, mem_iff_find? hds, h]
  exact hperm.eq_of_pairwise (fun c d _ _ hlt hgt => absurd hgt (String.lt_asymm hlt)) hcs hds

/-- An ordered node is determined by the labels of all that is found in it. -/
theorem Ordered.eq_of_labelAt {m n : Node} (hm : m.Ordered) (hn : n.Ordered)
    (h : ∀ path, m.labelAt path = n.labelAt path) : m = n := by
  induction hm generalizing n with
  | file name data =>
    have htop := h []
    cases n with
    | file => exact Option.some.inj htop
    | dir => cases htop
  | @dir name owner cs sorted below ih =>
    have htop := h []
    cases n with
    | file => cases htop
    | dir name' owner' ds =>
      cases htop
      have hsame : cs = ds := by
        refine eq_of_find?_eq sorted hn.children.1 fun child => ?_
        -- What is found below a child on the one side is found there on the other side.
        have hbelow := fun path => h (child :: path)
        simp only [labelAt_cons] at hbelow
        change (Node.dir name owner cs).child? child = (Node.dir name owner ds).child? child
        cases hc : (Node.dir name owner cs).child? child with
        | none =>
          cases hd : (Node.dir name owner ds).child? child with
          | none => rfl
          | some d =>
            rw [hc, hd] at hbelow
            cases hbelow []
        | some c =>
          cases hd : (Node.dir name owner ds).child? child with
          | none =>
            rw [hc, hd] at hbelow
            cases hbelow []
          | some d =>
            rw [hc, hd] at hbelow
            exact congrArg some (ih c (List.mem_of_find?_eq_some hc) (hn.child? hd) hbelow)
      rw [hsame]

end Node

namespace FileTree

variable {t t' : FileTree} {path : String} {place : List String}

theorem eq_of_labelAt {s t : FileTree} (h : ∀ place, s.root.labelAt place = t.root.labelAt place) :
    s = t :=
  FileTree.ext (s.ordered.eq_of_labelAt t.ordered h)

theorem labelAt_below_vacant (hvacant : t.hasDir path = false) {name : String}
    {rest : List String} : t.root.labelAt (Path.segments path ++ name :: rest) = none := by
  rw [hasDir, lookup] at hvacant
  rw [Node.labelAt_append]
  cases hn : t.root.get? (Path.segments path) with
  | none => rfl
  | some n =>
    cases n with
    | file => rfl
    | dir =>
      rw [hn] at hvacant
      cases hvacant

theorem labelAt_put_append {new : FileTree} (hs : Path.segments path ≠ [])
    (h : t.put path new = .ok t') (rest : List String) :
    t'.root.labelAt (Path.segments path ++ rest) =
      (new.root.rename (Path.name path)).labelAt rest := by
  have hfound := lookup_put hs h
  rw [lookup] at hfound
  rw [Node.labelAt_append, hfound, Option.bind_some]

theorem labelAt_put_outside {new : FileTree} (hs : Path.segments path ≠ [])
    (h : t.put path new = .ok t') (hplace : ¬ Path.segments path <+: place) :
    t'.root.labelAt place = t.root.labelAt place := by
  obtain ⟨name, rest, hcons⟩ := List.exists_cons_of_ne_nil hs
  rw [hcons] at hplace
  exact Node.map_label_get?_graft (put_eq_graft hcons h) hplace

theorem labelAt_remove_eq (h : t.remove path = .ok t') (place : List String) :
    t'.root.labelAt place =
      if Path.segments path <+: place then none else t.root.labelAt place := by
  split
  · next hplace =>
    obtain ⟨rest, rfl⟩ := hplace
    have hgone := lookup_remove_of_covers h (List.prefix_refl (Path.segments path))
    rw [lookup] at hgone
    rw [Node.labelAt_append, hgone, Option.bind_none]
  · next hplace =>
    obtain ⟨name, rest, hs, hg⟩ := remove_eq_graft h
    rw [hs] at hplace
    exact Node.map_label_get?_graft hg hplace

theorem labelAt_put_file {name : String} {data : FileData} (hs : Path.segments path ≠ [])
    (hvacant : t.hasDir path = false) (h : t.put path (.file name data) = .ok t')
    (hplace : place ≠ Path.segments path) : t'.root.labelAt place = t.root.labelAt place := by
  by_cases hunder : Path.segments path <+: place
  · obtain ⟨rest, rfl⟩ := hunder
    cases rest with
    | nil => exact absurd (List.append_nil _) hplace
    | cons child rest =>
      rw [labelAt_put_append hs h, labelAt_below_vacant hvacant]
      rfl
  · exact labelAt_put_outside hs h hunder

theorem labelAt_write {content : String} (h : t.write path content = .ok t')
    (place : List String) : t'.root.labelAt place =
      if place = Path.segments path then
        some (.file (Path.name path) { t.fileAt path with content })
      else t.root.labelAt place := by
  split
  · next hplace =>
    have hfile := lookup_write h
    rw [lookup, ← hplace] at hfile
    rw [Node.labelAt, hfile]
    rfl
  · next hplace =>
    obtain ⟨name, data, -, hput⟩ := write_eq_ok h
    exact labelAt_put_file (segments_ne_nil_of_write h) (Growth.write content h).vacant hput hplace

end FileTree

end PuzzleShell
