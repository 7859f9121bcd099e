import PuzzleShell.Proofs.Shell.Edits
import PuzzleShell.Proofs.Tree.Survival

/-!
# The current directory

A state is anchored when its current directory has a canonical path and is a directory of its tree.
Only two commands move the current directory: `cd` goes to a directory, and `rm` climbs from a
place that it removed to the nearest one left, which is a directory because it lies above one.
-/

namespace PuzzleShell

namespace FileTree

variable {t : FileTree} {path : String}

theorem hasDir_surviving {t' : FileTree} {paths : List String}
    (h : Series Removal paths t t') (hdir : t.hasDir path = true) :
    t'.hasDir (t'.surviving path) = true := by
  obtain ⟨hcover, hsome⟩ := t'.surviving_covers path
  rw [hasDir_eq_any_labelAt, h.labelAt_of_isSome hsome, ← hasDir_eq_any_labelAt]
  exact hasDir_of_covers hcover hdir

end FileTree

structure State.Anchored (s : State) : Prop where
  canonical : Path.Canonical s.cwd
  isDir : s.tree.hasDir s.cwd = true

namespace Shell

variable {r : Request} {o : Outcome}

def cwdAfter (r : Request) (o : Outcome) : String := o.patch.cwd.getD r.cwd

theorem cwdAfter_of_notMem {c : Command} (h : run r c = .ok o) (hs : Slot.cwd ∉ c.slots) :
    cwdAfter r o = r.cwd :=
  (run_within r h).same_apply hs r.state

theorem cd_moves (r : Request) : cwdAfter r (cd r) = r.cwd ∨
    Path.Canonical (cwdAfter r (cd r)) ∧ r.tree.hasDir (cwdAfter r (cd r)) = true := by
  unfold cd
  dsimp only
  split
  · exact .inl rfl
  · exact .inl rfl
  · next hdir =>
    refine .inr ⟨Path.canonical_resolve _ _, ?_⟩
    exact FileTree.hasDir_eq_true_iff.2 ⟨_, hdir, rfl⟩

/-- Every command but `rm` stays or goes to a directory of the tree it finds. -/
theorem run_cwd {c : Command} (h : run r c = .ok o) (hc : c ≠ .rm) : cwdAfter r o = r.cwd ∨
    Path.Canonical (cwdAfter r o) ∧ r.tree.hasDir (cwdAfter r o) = true := by
  cases c with
  | rm => exact absurd rfl hc
  | cd => cases h; exact cd_moves r
  | _ => exact .inl (cwdAfter_of_notMem h (by decide))

theorem run_anchored {c : Command} (h : run r c = .ok o) (hr : r.state.Anchored) :
    Path.Canonical (cwdAfter r o) ∧ (treeAfter r o).hasDir (cwdAfter r o) = true := by
  have hpaths : ∀ target ∈ c.written r.args,
      r.resolve target ∈ (c.written r.args).map r.resolve := fun _ => List.mem_map_of_mem
  by_cases hc : c = .rm
  · subst hc
    rcases rm_eq_ok h hpaths with hempty | ⟨hseries, hcwd⟩
    · rw [cwdAfter, treeAfter, hempty]
      exact ⟨hr.canonical, hr.isDir⟩
    · rw [cwdAfter, hcwd]
      exact ⟨FileTree.canonical_surviving hr.canonical, FileTree.hasDir_surviving hseries hr.isDir⟩
  · have hgrowth := run_growth h hc hpaths
    rcases run_cwd h hc with hstay | ⟨hcanonical, hdir⟩
    · rw [hstay]
      exact ⟨hr.canonical, hgrowth.hasDir hr.isDir⟩
    · exact ⟨hcanonical, hgrowth.hasDir hdir⟩

end Shell

namespace State.Anchored

variable {s : State}

theorem execute (h : s.Anchored) (context : Context) (line : String) :
    ((PuzzleShell.execute context s line).patch.apply s).Anchored := by
  rcases execute_cases context s line with hempty | ⟨i, c, -, -, hrun⟩
  · rwa [hempty, Patch.apply_empty]
  · obtain ⟨hcanonical, hdir⟩ := Shell.run_anchored hrun h
    exact ⟨hcanonical, hdir⟩

theorem save (h : s.Anchored) (content : Option String) :
    ((Editor.save s content).patch.apply s).Anchored := by
  unfold Editor.save
  split
  · exact h
  · dsimp only
    split
    · next hwrite =>
      have hgrow := FileTree.Growth.write _ hwrite
      exact ⟨h.canonical, hgrow.hasDir h.isDir⟩
    · exact h

theorem close (h : s.Anchored) : (Editor.close.patch.apply s).Anchored := ⟨h.canonical, h.isDir⟩

end State.Anchored

end PuzzleShell
