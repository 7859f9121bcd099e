import PuzzleShell.Proofs.Shell.Loops
import PuzzleShell.Proofs.Text.Words
import PuzzleShell.Proofs.Tree.Labels

/-!
# The verdict on an operand of a removal

An operand of `rm` is accepted, ignored or refused. What is refused on account of its dots is
refused as it was typed, whether or not it is there; every other verdict is on the place that the
operand names, in the tree as the operands before have left it.
-/

namespace PuzzleShell

namespace Path

def lastComponent (expr : String) : String :=
  let typed := String.ofList (Text.dropEndWhile (· == '/') expr.toList)
  (Text.cuts '/' typed).getLast?.getD ""

theorem lastComponent_eq_name (expr : String) : lastComponent expr = name expr := by
  have hofList (pieces : List (List Char)) :
      (pieces.map String.ofList).getLast?.getD "" = String.ofList (pieces.getLast?.getD []) := by
    rw [List.getLast?_map]
    cases pieces.getLast? <;> rfl
  rw [name, segments, Text.pieces, hofList, Text.getLast?_filter_splitOnP, lastComponent,
    Text.cuts, hofList, String.toList_ofList]
  rfl

end Path

open PuzzleShell.Path (lastComponent lastComponent_eq_name)

def FileTree.Without (t : FileTree) (path : String) (t' : FileTree) : Prop :=
  ∀ place, t'.root.labelAt place =
    if Path.segments path <+: place then none else t.root.labelAt place

namespace Removing

def EndsInDots (w : String) : Prop := lastComponent w = "." ∨ lastComponent w = ".."

section

variable (flags : Flags) (cwd : String) (t : FileTree) (w : String)

/-- The operand can be removed: a file always, a directory only where it was asked for. -/
structure Accepts : Prop where
  typed : ¬ EndsInDots w
  below : Path.resolve w cwd ≠ "/"
  found : ∃ n, t.lookup (Path.resolve w cwd) = some n ∧
    (n.isDir = false ∨ flags.has "r" = true ∨ flags.has "R" = true)

structure Ignores : Prop where
  typed : ¬ EndsInDots w
  missing : t.lookup (Path.resolve w cwd) = none
  force : flags.has "f" = true

/-- The error that an operand gives, for the first reason that applies. -/
inductive Refuses : String → Prop where
  | dots (h : EndsInDots w) :
    Refuses s!"rm: refusing to remove '.' or '..' directory: skipping '{w}'"
  | missing (htyped : ¬ EndsInDots w) (h : t.lookup (Path.resolve w cwd) = none)
    (hforce : flags.has "f" = false) :
    Refuses s!"rm: cannot remove '{w}': No such file or directory"
  | top (htyped : ¬ EndsInDots w) (h : Path.resolve w cwd = "/") :
    Refuses s!"rm: cannot remove '{w}': Permission denied"
  | directory {n : Node} (htyped : ¬ EndsInDots w) (hbelow : Path.resolve w cwd ≠ "/")
    (h : t.lookup (Path.resolve w cwd) = some n) (hdir : n.isDir = true)
    (hflags : flags.has "r" = false ∧ flags.has "R" = false) :
    Refuses s!"rm: cannot remove '{w}': Is a directory"

/-- What becomes of the operand, and what that does to a draft. -/
inductive Verdict : Draft.Act → Prop where
  | accept {t' : FileTree} (h : Accepts flags cwd t w)
    (htree : t.Without (Path.resolve w cwd) t') : Verdict (.update t')
  | ignore (h : Ignores flags cwd t w) : Verdict .pass
  | refuse {text : String} (h : Refuses flags cwd t w text) : Verdict (.report (.error text))

end

variable {flags : Flags} {cwd : String} {t : FileTree} {w text : String}

theorem Ignores.not_accepts (h : Ignores flags cwd t w) : ¬ Accepts flags cwd t w := by
  rintro ⟨-, -, n, hfound, -⟩
  rw [h.missing] at hfound
  cases hfound

theorem Refuses.not_accepts (h : Refuses flags cwd t w text) : ¬ Accepts flags cwd t w := by
  rintro ⟨htyped, hbelow, n, hfound, hkind⟩
  cases h with
  | dots h => exact htyped h
  | missing _ h =>
    rw [h] at hfound
    cases hfound
  | top _ h => exact hbelow h
  | directory _ _ h hdir hflags =>
    cases h.symm.trans hfound
    rw [hdir, hflags.1, hflags.2] at hkind
    simp at hkind

end Removing

namespace Shell

open Removing

variable (r : Request) (flags : Flags)

theorem rm_acts {t : FileTree} (hroot : t.root.isDir = true) (w : String) :
    ∃ a, Draft.Acts (rmOne r flags) t w a ∧ Verdict flags r.cwd t w a := by
  unfold rmOne
  by_cases hdots : Path.name w = "." ∨ Path.name w = ".."
  · refine ⟨.report _, Draft.acts_report hroot (fun d _ => if_pos hdots)
      fun _ => by exact Line.foreseen_append rfl rfl, .refuse (.dots ?_)⟩
    rwa [EndsInDots, lastComponent_eq_name]
  · have htyped : ¬ EndsInDots w := by rwa [EndsInDots, lastComponent_eq_name]
    cases hfound : t.lookup (r.resolve w) with
    | none =>
      by_cases hforce : flags.has "f" = true
      · refine ⟨.pass, Draft.acts_pass hroot fun d hd => ?_, .ignore ⟨htyped, hfound, hforce⟩⟩
        dsimp only
        rw [if_neg hdots, hd, hfound]
        dsimp only
        rw [if_pos hforce]
      · exact ⟨.report _, Draft.acts_report hroot
          (fun d hd => by
            dsimp only
            rw [if_neg hdots, hd, hfound]
            dsimp only
            rw [if_neg hforce])
          fun _ => by exact Line.foreseen_append rfl rfl,
          .refuse (.missing htyped hfound (Bool.eq_false_iff.2 hforce))⟩
    | some n =>
      by_cases htop : r.resolve w = "/"
      · exact ⟨.report _, Draft.acts_report hroot
          (fun d hd => by
            dsimp only
            rw [if_neg hdots, hd, hfound]
            exact if_pos htop)
          fun _ => by exact Line.foreseen_append rfl rfl, .refuse (.top htyped htop)⟩
      · by_cases hkept : (n.isDir && !(flags.has "r" || flags.has "R")) = true
        · obtain ⟨hdir, hflags⟩ :
              n.isDir = true ∧ flags.has "r" = false ∧ flags.has "R" = false := by
            simpa using hkept
          exact ⟨.report _, Draft.acts_report hroot
            (fun d hd => by
              dsimp only
              rw [if_neg hdots, hd, hfound]
              exact (if_neg htop).trans (if_pos hkept))
            fun _ => by exact Line.foreseen_append rfl rfl,
            .refuse (.directory htyped htop hfound hdir hflags)⟩
        · have hs : Path.segments (r.resolve w) ≠ [] := fun hs =>
            htop ((Path.canonical_resolve w r.cwd).segments_eq_nil_iff.1 hs)
          have hdir := FileTree.hasDir_parent hs (Option.isSome_iff_exists.2 ⟨_, hfound⟩)
          obtain ⟨t', hremove⟩ := (FileTree.exists_remove_iff hs).2 hdir
          have hroot' := (FileTree.isDir_root_remove hremove).trans hroot
          have hkind : n.isDir = false ∨ flags.has "r" = true ∨ flags.has "R" = true := by
            cases hn : n.isDir with
            | false => exact .inl rfl
            | true => exact .inr (by simpa [hn, or_iff_not_imp_left] using hkept)
          refine ⟨.update t', Draft.acts_update hroot' fun d hd => ?_,
            .accept ⟨htyped, htop, n, hfound, hkind⟩ (FileTree.labelAt_remove_eq hremove)⟩
          dsimp only
          rw [if_neg hdots, hd, hfound]
          refine ((if_neg htop).trans (if_neg hkept)).trans ?_
          rw [hremove]
          rfl

theorem rm_loops : Draft.Loops (rmOne r flags) := by
  intro t w hroot
  obtain ⟨a, ha, -⟩ := rm_acts r flags hroot w
  exact ⟨a, ha⟩

end Shell

end PuzzleShell
