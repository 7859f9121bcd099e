import PuzzleShell.Proofs.Shell.Foreseen
import PuzzleShell.Proofs.Shell.Packages

/-!
# Versions of packages

A line is first taken for a command, then for a script, and only then for a question to a package.
So an installed package says its version unless its name is that of a command or starts as a
script does. Of the packages offered by default one has such a name.
-/

namespace PuzzleShell

open Shell (packageVersions packageNames)

variable {context : Context} {s : State} {line name : String} {args words : List String}

theorem execute_of_unknown (hline : Text.words line = name :: args) (hcommand : name ∉ Command.names)
    (hscript : Text.startsWith "./" name = false) : execute context s line =
      if name ∈ s.installed ∧ ("-v" ∈ args ∨ "--version" ∈ args) then
        .print [(packageVersions.lookup name).getD (name ++ " version 1.0.0")]
      else .fail (name ++ ": command not found. Type 'help' for available commands.") := by
  rw [execute_of_words hline, Shell.answer]
  dsimp only
  rw [Command.ofName?_eq_none hcommand, Shell.runOther, hscript, if_neg Bool.false_ne_true, Shell.packageVersion?]
  dsimp only
  by_cases hasked : name ∈ s.installed ∧ ("-v" ∈ args ∨ "--version" ∈ args)
  · rw [if_pos hasked, if_pos hasked]
    rfl
  · rw [if_neg hasked, if_neg hasked]
    rfl

/-- An installed package says its version, in a line of its own and without any change. -/
theorem execute_version (context : Context) (hline : Text.words line = name :: args)
    (hinstalled : name ∈ s.installed) (hasked : "-v" ∈ args ∨ "--version" ∈ args)
    (hcommand : name ∉ Command.names) (hscript : Text.startsWith "./" name = false) :
    execute context s line =
      { lines := [.output ((packageVersions.lookup name).getD (name ++ " version 1.0.0"))]
        patch := {} } := by
  rw [execute_of_unknown hline hcommand hscript, if_pos ⟨hinstalled, hasked⟩]
  rfl

theorem execute_version_redis : execute {} { installed := ["git", "redis"] } "redis a --version b" =
    .print ["redis version 1.0.0"] := by
  have hline : Text.words "redis a --version b" = ["redis", "a", "--version", "b"] := by
    decide +kernel
  exact execute_version {} hline (by decide) (by decide) (by decide +kernel) (by decide)

/-- Packages that are called like a command or a script are not asked. -/
theorem execute_version_shadowed :
    let s : State := { installed := ["tar", "./app"] }
    Text.words "tar --version" = ["tar", "--version"] ∧ "tar" ∈ s.installed ∧
      execute {} s "tar --version" = .fail "tar: usage: tar -cf <archive> <source>" ∧
      Text.words "./app -v" = ["./app", "-v"] ∧ "./app" ∈ s.installed ∧
      execute {} s "./app -v" = .fail "./app: No such file or directory" := by
  decide +kernel

theorem execute_version_of_install {query : String} (hinstall : Installs line words)
    (hnamed : name ∈ packageNames words) (hoffered : name ∈ context.catalog)
    (hline : Text.words query = name :: args) (hasked : "-v" ∈ args ∨ "--version" ∈ args)
    (hcommand : name ∉ Command.names) (hscript : Text.startsWith "./" name = false) :
    execute context ((execute context s line).patch.apply s) query =
      .print [(packageVersions.lookup name).getD (name ++ " version 1.0.0")] := by
  have hinstalled : name ∈ ((execute context s line).patch.apply s).installed := by
    rw [patch_install context s hinstall, Patch.apply_relist]
    exact Shell.mem_withPackages.2 (.inr ⟨hnamed, hoffered⟩)
  rw [execute_of_unknown hline hcommand hscript, if_pos ⟨hinstalled, hasked⟩]

-- Of the packages offered by default, all but this one.
example : defaultCatalog.filter (· ∈ Command.names) = ["vim"] := by decide +kernel

end PuzzleShell
