import Mathlib.Logic.Relation
import PuzzleShell.Proofs.Shell.Spelling

/-!
# Flags in any place

The commands that sort their arguments into flags and operands look at nothing else of them: which
flags are given, and what the operands are. So the words may be typed in any order that keeps the
operands in theirs, and a cluster of flags may be typed as separate flags or the other way round.
-/

namespace PuzzleShell

def Command.sorting : List Command := [.ls, .rm, .du, .free, .df, .ping]

namespace Flags

/-- One way to type the arguments for another. -/
inductive Rearranges : List String → List String → Prop
  | reorder {args args' : List String} (words : args.Perm args')
    (operands : (ofArgs args).operands = (ofArgs args').operands) : Rearranges args args'
  | spread (before after : List String) {cluster : String} {c : Char} {rest : List Char}
    (letters : cluster.toList = '-' :: c :: rest) (short : c ≠ '-') :
    Rearranges (before ++ cluster :: after) (before ++ (c :: rest).map ofLetter ++ after)

structure Alike (f g : Flags) : Prop where
  has : f.has = g.has
  operands : f.operands = g.operands

variable {args args' : List String}

theorem Rearranges.alike (h : Rearranges args args') : (ofArgs args).Alike (ofArgs args') := by
  cases h with
  | reorder words operands => exact ⟨has_congr fun _ => words.mem_iff, operands⟩
  | spread before after letters short =>
    rw [List.append_cons, ofArgs_append, ofArgs_append before, ofArgs_cluster letters short,
      ← ofArgs_append before, ← ofArgs_append]
    exact ⟨rfl, rfl⟩

theorem alike_of_rearranged (h : Relation.EqvGen Rearranges args args') :
    (ofArgs args).Alike (ofArgs args') := by
  induction h with
  | rel _ _ h => exact h.alike
  | refl _ => exact ⟨rfl, rfl⟩
  | symm _ _ _ ih => exact ⟨ih.has.symm, ih.operands.symm⟩
  | trans _ _ _ _ _ ih ih' => exact ⟨ih.has.trans ih'.has, ih.operands.trans ih'.operands⟩

end Flags

namespace Shell

variable {args args' : List String} (h : (Flags.ofArgs args).Alike (Flags.ofArgs args'))
  (r : Request)
include h

theorem ls_congr : ls (r.withArgs args) = ls (r.withArgs args') := by
  unfold ls
  dsimp only [Request.args_withArgs, Request.lookup_withArgs]
  rw [h.has, h.operands]
  rfl

theorem rm_congr : rm (r.withArgs args) = rm (r.withArgs args') := by
  have hone : rmOne (r.withArgs args) (Flags.ofArgs args) =
      rmOne (r.withArgs args') (Flags.ofArgs args') := by
    funext d w
    exact rmOne_congr h.has rfl d
  unfold rm
  dsimp only [Request.args_withArgs]
  rw [h.operands, hone]
  rfl

theorem du_congr : du (r.withArgs args) = du (r.withArgs args') := by
  have htarget : duTarget (r.withArgs args) (Flags.ofArgs args) =
      duTarget (r.withArgs args') (Flags.ofArgs args') := by
    funext target
    unfold duTarget
    rw [Request.lookup_withArgs, Request.lookup_withArgs, h.has]
  unfold du
  dsimp only [Request.args_withArgs]
  rw [h.operands, htarget]

theorem run_congr {c : Command} (hc : c ∈ Command.sorting) :
    run (r.withArgs args) c = run (r.withArgs args') c := by
  cases c with
  | ls => exact congrArg Except.ok (ls_congr h r)
  | rm => exact rm_congr h r
  | du => exact du_congr h r
  | free => rw [run, run, free, free, Request.args_withArgs, Request.args_withArgs, h.has]
  | df => rw [run, run, df, df, Request.args_withArgs, Request.args_withArgs, h.has]
  | ping => rw [run, run, ping, ping, Request.args_withArgs, Request.args_withArgs, h.operands]
  | _ => exact absurd hc (by decide)

end Shell

/-- Flags may stand anywhere, in clusters or one by one: a command that sorts its arguments shows
the same lines and makes the same changes, or fails alike, as long as the operands come in the same
order. -/
theorem run_rearranged {args args' : List String}
    (h : Relation.EqvGen Flags.Rearranges args args') {c : Command} (hc : c ∈ Command.sorting) :
    (∀ r : Request, Shell.run (r.withArgs args) c = Shell.run (r.withArgs args') c) ∧
    ∀ context s line line', Text.words line = c.name :: args → Text.words line' = c.name :: args' →
      execute context s line = execute context s line' := by
  have halike : (Flags.ofArgs args).Alike (Flags.ofArgs args') := Flags.alike_of_rearranged h
  have hrun (r : Request) : Shell.run (r.withArgs args) c = Shell.run (r.withArgs args') c :=
    Shell.run_congr halike r hc
  refine ⟨hrun, fun context s line line' hline hline' => ?_⟩
  have hsame := hrun { name := c.name, args, state := s, context }
  rw [execute_of_words hline, execute_of_words hline', Shell.answer, Shell.answer,
    Command.ofName?_name]
  dsimp only [Request.withArgs] at hsame ⊢
  rw [hsame]

/-- A cluster with a dash among its letters is taken apart, and its letters go to both sides of the
operands, where two of them make a cluster again. A long option is not taken for its letters. -/
theorem run_rearranged_dashes :
    execute {} {} "ls -l-a / --all -" = execute {} {} "ls -- --all / - -al" := by
  have hspread : Flags.Rearranges ["-l-a", "/", "--all", "-"]
      ["-l", "--", "-a", "/", "--all", "-"] :=
    .spread [] ["/", "--all", "-"] (by decide +kernel : "-l-a".toList = ['-', 'l', '-', 'a'])
      (by decide)
  have hreorder : Flags.Rearranges ["-l", "--", "-a", "/", "--all", "-"]
      ["--", "--all", "/", "-", "-a", "-l"] := .reorder (by decide +kernel) (by decide +kernel)
  have hback : Flags.Rearranges ["--", "--all", "/", "-", "-al"]
      ["--", "--all", "/", "-", "-a", "-l"] :=
    .spread ["--", "--all", "/", "-"] [] (by decide +kernel : "-al".toList = ['-', 'a', 'l'])
      (by decide)
  have hline : Text.words "ls -l-a / --all -" =
      Command.ls.name :: ["-l-a", "/", "--all", "-"] := by decide +kernel
  have hline' : Text.words "ls -- --all / - -al" =
      Command.ls.name :: ["--", "--all", "/", "-", "-al"] := by decide +kernel
  have h := (Relation.EqvGen.rel _ _ hspread).trans _ _ _
    ((Relation.EqvGen.rel _ _ hreorder).trans _ _ _ (.symm _ _ (.rel _ _ hback)))
  exact (run_rearranged h (c := .ls) (by decide)).2 {} {} _ _ hline hline'

end PuzzleShell
