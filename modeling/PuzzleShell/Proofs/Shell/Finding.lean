import PuzzleShell.Proofs.Shell.Footprint
import PuzzleShell.Proofs.Tree.Traversal

/-!
# Searching by name

A search lists the paths of all nodes at and below its start whose names hold the pattern. It lists
no other path, each of these once, and in the order of their names: what is found in a directory
comes after the directory and before the entries that follow it.
-/

namespace PuzzleShell

open PuzzleShell.Path (Canonical Covers)

/-- The paths are those of the nodes at and below `start` that satisfy `P`, strictly increasing as
lists of names. -/
structure FileTree.Lists (t : FileTree) (start : String) (P : Node → Prop) (paths : List String) :
    Prop where
  mem_iff : ∀ path, path ∈ paths ↔
    Canonical path ∧ Covers start path ∧ ∃ n, t.lookup path = some n ∧ P n
  increasing : paths.Pairwise fun p q => Path.segments p < Path.segments q

namespace FileTree

variable {t : FileTree} {start : String} {n : Node}

theorem WellFormed.mem_walk_iff (h : t.WellFormed) (hstart : Canonical start)
    (hn : t.lookup start = some n) {path : String} {m : Node} :
    (path, m) ∈ n.walk start ↔
      Canonical path ∧ Covers start path ∧ t.lookup path = some m := by
  have hnamed : n.WellNamed := h.wellNamed.get? hn
  rw [hnamed.mem_walk_iff hstart]
  constructor
  · rintro ⟨rest, hm, rfl⟩
    have hnames := hnamed.names hm
    have hsegments := Node.segments_pathBelow hstart hnames
    refine ⟨⟨_, fun s hs => ?_, rfl⟩, ⟨rest, hsegments.symm⟩, ?_⟩
    · exact (List.mem_append.1 hs).elim (hstart.segments s) (hnames s)
    · rw [lookup] at hn ⊢
      rw [hsegments, Node.get?_append, hn, Option.bind_some, hm]
  · rintro ⟨hpath, ⟨rest, hrest⟩, hm⟩
    rw [lookup] at hn hm
    rw [← hrest, Node.get?_append, hn, Option.bind_some] at hm
    exact ⟨rest, hm, by rw [Node.pathBelow, hrest, hpath.ofSegments_segments]⟩

theorem WellFormed.lists_walk (h : t.WellFormed) (hstart : Canonical start)
    (hn : t.lookup start = some n) (p : Node → Bool) : t.Lists start (p · = true)
      (((n.walk start).filter fun entry => p entry.2).map (·.1)) where
  mem_iff path := by
    rw [List.mem_map]
    constructor
    · rintro ⟨⟨q, m⟩, hmem, rfl⟩
      obtain ⟨hwalk, hp⟩ := List.mem_filter.1 hmem
      obtain ⟨hq, hcovers, hm⟩ := (h.mem_walk_iff hstart hn).1 hwalk
      exact ⟨hq, hcovers, m, hm, hp⟩
    · rintro ⟨hpath, hcovers, m, hm, hp⟩
      exact ⟨(path, m), List.mem_filter.2 ⟨(h.mem_walk_iff hstart hn).2 ⟨hpath, hcovers, hm⟩, hp⟩,
        rfl⟩
  increasing :=
    List.pairwise_map.2 (((h.wellNamed.get? hn).pairwise_walk (t.ordered.get? hn) hstart).filter _)

end FileTree

theorem Shell.find_eq_print {r : Request} {start word : String} {n : Node}
    (hargs : r.args = [start, "-name", word]) (hstart : start ≠ "-name")
    (hn : r.lookup start = some n) : find r = .print
      (((n.walk (r.resolve start)).filter fun entry =>
        Text.contains (findPattern word) entry.2.name).map (·.1)) := by
  have hdrop : [start, "-name", word].dropWhile (· != "-name") = ["-name", word] := by
    rw [List.dropWhile_cons_of_pos (by simpa using hstart)]
    rfl
  have hhead : [start, "-name", word].head? ≠ some "-name" := fun h => hstart (Option.some.inj h)
  rw [find, hargs, hdrop]
  dsimp only
  rw [if_neg hhead, List.headD_cons, hn]

/-- A search prints the canonical paths, at and below its start, of the nodes whose names hold the
pattern without its outer quotes and its stars. -/
theorem execute_find (context : Context) {s : State} (hs : s.tree.WellFormed)
    {line start word : String} {n : Node} (hstart : start ≠ "-name")
    (hline : Text.words line = ["find", start, "-name", word])
    (hn : s.tree.lookup (Path.resolve start s.cwd) = some n) :
    ∃ paths, execute context s line = .print paths ∧
      s.tree.Lists (Path.resolve start s.cwd)
        (fun m => (Text.stripQuotes word).toList.filter (· != '*') <:+: m.name.toList) paths := by
  have hlists := hs.lists_walk (Path.canonical_resolve start s.cwd) hn
    fun m => Text.contains (Shell.findPattern word) m.name
  simp only [Text.contains_iff, Shell.findPattern, String.toList_ofList] at hlists
  have hfind := Shell.find_eq_print (r := ⟨"find", [start, "-name", word], s, context⟩) rfl hstart hn
  exact ⟨_, execute_of_run hline (Command.ofName?_name .find) (congrArg Except.ok hfind), hlists⟩

/-- The pattern is quoted and the start is spelled in a roundabout way: the directory itself is
not found, and nothing next to it. -/
theorem execute_find_user : ∃ paths,
    execute {} {} "find ~/.. -name '*us*e'" = .print paths ∧
      "/home/user" ∈ paths ∧ "/home" ∉ paths ∧ "/usr" ∉ paths := by
  have hline : Text.words "find ~/.. -name '*us*e'" = ["find", "~/..", "-name", "'*us*e'"] := by
    decide +kernel
  have hstart : FileTree.base.lookup "/home" =
      some (.dir "home" defaultOwner [.dir "user" defaultOwner []]) := by decide +kernel
  have huser : FileTree.base.lookup "/home/user" = some (.dir "user" defaultOwner []) := by
    decide +kernel
  have hplace : Path.resolve "~/.." Path.home = "/home" := by decide +kernel
  obtain ⟨paths, hprint, hlists⟩ := execute_find {} (s := {}) FileTree.base_wellFormed
    (by decide) hline (hplace ▸ hstart)
  refine ⟨paths, hprint, (hlists.mem_iff _).2 ?_, fun h => ?_, fun h => ?_⟩
  · exact ⟨by decide +kernel, by decide +kernel, _, huser, by decide +kernel⟩
  · obtain ⟨-, -, n, hn, hname⟩ := (hlists.mem_iff _).1 h
    cases hn.symm.trans hstart
    exact absurd hname (by decide +kernel)
  · obtain ⟨-, hcovers, -⟩ := (hlists.mem_iff _).1 h
    exact absurd hcovers (by decide +kernel)

end PuzzleShell
