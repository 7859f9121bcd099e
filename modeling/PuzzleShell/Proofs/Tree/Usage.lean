import Mathlib.Algebra.GroupWithZero.Nat
import PuzzleShell.Proofs.Tree.Success
import PuzzleShell.Tree.Walk

/-!
# The space that a part takes

No node below another takes more space than that one. The space of a node is the sum of the sizes
of what a walk meets. An edit changes the space of a tree by what it puts in and what it takes out,
at whatever depth: the equations have what is lost on the left and what is gained on the right, so
that no space is subtracted.
-/

namespace PuzzleShell

namespace Node

theorem usage_le_usageAll {c : Node} {siblings : List Node} (h : c ∈ siblings) :
    c.usage ≤ usageAll siblings := by
  induction siblings with
  | nil => cases h
  | cons first rest ih =>
    rw [usageAll]
    rcases List.mem_cons.1 h with rfl | h
    · exact Nat.le_add_right _ _
    · exact Nat.le_trans (ih h) (Nat.le_add_left _ _)

theorem usage_le_of_mem_children {n c : Node} (h : c ∈ n.children) : c.usage ≤ n.usage := by
  cases n with
  | file => cases h
  | dir name owner cs =>
    rw [usage]
    exact Nat.le_trans (usage_le_usageAll h) (Nat.le_add_left _ _)

theorem usage_le_of_get? {n m : Node} {path : List String} (h : n.get? path = some m) :
    m.usage ≤ n.usage := by
  induction path generalizing n with
  | nil =>
    cases h
    exact Nat.le_refl _
  | cons name rest ih =>
    rw [get?_cons] at h
    obtain ⟨c, hc, hm⟩ := Option.bind_eq_some_iff.1 h
    exact Nat.le_trans (ih hm) (usage_le_of_mem_children (List.mem_of_find?_eq_some hc))

mutual
theorem sum_size_walk (path : String) : (n : Node) → ((n.walk path).map (·.2.size)).sum = n.usage
  | .file name data => by rw [walk, usage, List.map_singleton, List.sum_singleton]
  | .dir name owner cs => by
    rw [walk, usage, List.map_cons, List.sum_cons, sum_size_walkAll path cs]
    rfl

theorem sum_size_walkAll (base : String) : (cs : List Node) →
    ((walkAll base cs).map (·.2.size)).sum = usageAll cs
  | [] => rfl
  | c :: rest => by
    rw [walkAll, usageAll, List.map_append, List.sum_append, sum_size_walk _ c,
      sum_size_walkAll base rest]
end

theorem usage_dir (name owner : String) (cs : List Node) :
    (dir name owner cs).usage = dirSize + usageAll cs := by
  rw [usage]

theorem usage_file (name : String) (data : FileData) :
    (file name data).usage = data.content.length := by
  rw [usage, size]

theorem usageAll_eq_sum (cs : List Node) : usageAll cs = (cs.map usage).sum := by
  induction cs with
  | nil => rfl
  | cons c rest ih => rw [usageAll, ih, List.map_cons, List.sum_cons]

theorem usage_rename (n : Node) (name : String) : (n.rename name).usage = n.usage := by
  cases n with
  | file => rw [rename, usage_file, usage_file]
  | dir => rw [rename, usage_dir, usage_dir]

def usageOf (n : Option Node) : Nat := n.elim 0 usage

@[simp] theorem usageOf_none : usageOf none = 0 := rfl

@[simp] theorem usageOf_some (n : Node) : usageOf (some n) = n.usage := rfl

theorem find?_eq_none_of_lt {name : String} {siblings : List Node}
    (h : ∀ c ∈ siblings, name < c.name) : siblings.find? (·.name == name) = none := by
  refine List.find?_eq_none.2 fun c hc he => String.lt_irrefl name ?_
  rw [beq_iff_eq] at he
  simpa only [he] using h c hc

section Siblings

variable {siblings : List Node} (h : siblings.Pairwise (·.name < ·.name))
include h

theorem usageAll_place (n : Node) :
    usageAll (place n siblings) + usageOf (siblings.find? (·.name == n.name)) =
      usageAll siblings + n.usage := by
  induction siblings with
  | nil => simp [place, usageAll, usageOf]
  | cons c rest ih =>
    obtain ⟨hc, hrest⟩ := List.pairwise_cons.1 h
    unfold place
    split
    · next hlt =>
      have habsent : (c :: rest).find? (·.name == n.name) = none := by
        refine find?_eq_none_of_lt (List.forall_mem_cons.2 ⟨hlt, fun d hd => ?_⟩)
        exact String.lt_trans hlt (hc d hd)
      rw [habsent, usageAll, usageOf_none]
      omega
    · next hnlt =>
      split
      · next hlt =>
        have hne : c.name ≠ n.name := fun he => String.lt_irrefl n.name (by rwa [he] at hlt)
        have hplaced := ih hrest
        rw [List.find?_cons_of_neg (by simpa using hne), usageAll, usageAll]
        omega
      · next hngt =>
        have heq : n.name = c.name := String.le_antisymm hngt hnlt
        rw [List.find?_cons_of_pos (by simp [heq]), usageAll, usageAll, usageOf_some]
        omega

theorem usageAll_discard (name : String) :
    usageAll (discard name siblings) + usageOf (siblings.find? (·.name == name)) =
      usageAll siblings := by
  induction siblings with
  | nil => rfl
  | cons c rest ih =>
    obtain ⟨hc, hrest⟩ := List.pairwise_cons.1 h
    have hkept := ih hrest
    rw [discard] at hkept ⊢
    by_cases hname : c.name = name
    · subst hname
      rw [find?_eq_none_of_lt hc, usageOf_none] at hkept
      rw [List.filter_cons_of_neg (by simp), List.find?_cons_of_pos (by simp), usageAll,
        usageOf_some]
      omega
    · rw [List.filter_cons_of_pos (by simpa using hname),
        List.find?_cons_of_neg (by simpa using hname), usageAll, usageAll]
      omega

end Siblings

theorem Ordered.usage_withChild {d : Node} (h : d.Ordered) (hd : d.isDir = true) (name : String)
    (new : Option Node) :
    (d.withChild name new).usage + usageOf (d.child? name) = d.usage + usageOf new := by
  cases d with
  | file => cases hd
  | dir m o cs =>
    have hsorted : cs.Pairwise (·.name < ·.name) := h.children.1
    cases new with
    | none =>
      have hkept := usageAll_discard hsorted name
      change usageAll (discard name cs) + usageOf ((Node.dir m o cs).child? name) = _ at hkept
      rw [usageOf_none, Node.withChild, usage_dir, usage_dir]
      omega
    | some n =>
      have hplaced := usageAll_place hsorted (n.rename name)
      rw [name_rename, usage_rename] at hplaced
      change _ + usageOf ((Node.dir m o cs).child? name) = _ at hplaced
      rw [usageOf_some, Node.withChild, usage_dir, usage_dir]
      omega

/-- By induction on the path: every directory on the way changes by what its child changes by. -/
theorem Ordered.usage_graft {new : Option Node} {d d' : Node} {name : String} {rest : List String}
    (h : d.Ordered) (hg : Node.graft new d name rest = .ok d') :
    d'.usage + usageOf (d.get? (name :: rest)) = d.usage + usageOf new := by
  induction rest generalizing d name d' with
  | nil =>
    obtain ⟨hd, rfl⟩ := graft_nil_eq_ok hg
    rw [get?_singleton]
    exact h.usage_withChild hd name new
  | cons next rest ih =>
    obtain ⟨e, c, he, hc, rfl⟩ := graft_cons_eq_ok hg
    have hbelow := ih (h.child? he) hc
    have hchild := h.usage_withChild (isDir_of_child? he) name (some c)
    rw [he, usageOf_some, usageOf_some] at hchild
    rw [get?_cons, he, Option.bind_some]
    omega

end Node

namespace FileTree

open Node (usageOf usageOf_some)

variable {t t' : FileTree} {path : String}

theorem usage_put {new : FileTree} (hs : Path.segments path ≠ []) (h : t.put path new = .ok t') :
    t'.root.usage + usageOf (t.lookup path) = t.root.usage + new.root.usage := by
  obtain ⟨name, rest, hcons⟩ := List.exists_cons_of_ne_nil hs
  rw [lookup, hcons]
  exact t.ordered.usage_graft (put_eq_graft hcons h)

theorem usage_remove (h : t.remove path = .ok t') :
    t'.root.usage + usageOf (t.lookup path) = t.root.usage := by
  obtain ⟨name, rest, hs, hg⟩ := remove_eq_graft h
  rw [lookup, hs]
  exact t.ordered.usage_graft hg

theorem usage_write {content : String} (h : t.write path content = .ok t') :
    t'.root.usage + (t.fileAt path).content.length = t.root.usage + content.length := by
  obtain ⟨name, data, hold, hput⟩ := write_eq_ok h
  have hchange := usage_put (segments_ne_nil_of_write h) hput
  have hbefore : usageOf (t.lookup path) = (t.fileAt path).content.length := by
    rw [fileAt]
    rcases hold with ⟨hnone, -, -⟩ | hfile
    · rw [hnone]
      rfl
    · rw [hfile, usageOf_some, Node.usage_file]
  rwa [hbefore, file, Node.usage_file] at hchange

end FileTree

end PuzzleShell
