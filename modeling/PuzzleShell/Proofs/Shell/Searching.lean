import PuzzleShell.Proofs.Shell.Footprint
import PuzzleShell.Proofs.Text.Lines
import PuzzleShell.Proofs.Text.Lowercase

/-!
# What a search shows

A search answers for its targets one after the other. For a file it shows, in their order, the
lines in which the pattern is found when both are in lower case. Among them are all in which the
pattern stands as it was typed, up to the final form of a capital sigma and to the line of a file
that holds a single line feed.
-/

namespace PuzzleShell

namespace Shell

variable {r : Request} {pattern content target word first : String} {others : List String}

theorem matchingLines_eq_filter (h : pattern ≠ "" ∨ content ≠ "\n") :
    matchingLines pattern content = (Text.feedLines content).filter fun l =>
      Text.contains (Text.lower pattern) (Text.lower l) := by
  by_cases hcontent : content = "\n"
  · -- The one line of this content is empty, and an empty line holds no pattern.
    subst hcontent
    have hpattern : pattern ≠ "" := h.resolve_right fun hne => hne rfl
    have hread : contentLines "\n" = [] := by decide
    have hfeed : Text.feedLines "\n" = [""] := by decide +kernel
    have hempty := Text.contains_lower_empty hpattern
    rw [matchingLines, hread, hfeed, List.filter_cons_of_neg (by rw [hempty]; decide)]
  · rw [matchingLines, contentLines_eq_feedLines hcontent]

def foundLines (r : Request) (pattern : String) (others : List String) (target : String) :
    List Line :=
  match r.read target with
  | .ok content => (matchingLines pattern content).map fun l =>
    .output (if others.isEmpty then l else s!"{target}:{l}")
  | .error e => [e.line "grep" target]

theorem grep_eq_lines (hargs : r.args = word :: first :: others) : grep r =
    { lines := (first :: others).flatMap (foundLines r (Text.stripQuotes word) others) } := by
  rw [grep, hargs]
  rfl

theorem foundLines_of_file {name : String} {data : FileData}
    (hfile : r.lookup target = some (.file name data)) (h : pattern ≠ "" ∨ data.content ≠ "\n") :
    foundLines r pattern others target = ((Text.feedLines data.content).filter fun l =>
      Text.contains (Text.lower pattern) (Text.lower l)).map fun l =>
        .output (if others = [] then l else target ++ ":" ++ l) := by
  have hread : r.read target = .ok data.content := by rw [Request.read, hfile]
  rw [foundLines, hread]
  simp only [matchingLines_eq_filter h, List.isEmpty_iff]
  rfl

theorem foundLines_of_no_file (h : ∀ name data, r.lookup target ≠ some (.file name data)) :
    ∃ e : ReadError, foundLines r pattern others target = [e.line "grep" target] := by
  unfold foundLines Request.read
  cases hn : r.lookup target with
  | none => exact ⟨.missing, rfl⟩
  | some n =>
    cases n with
    | file name data => exact absurd hn (h name data)
    | dir name owner children => exact ⟨.isDirectory, rfl⟩

end Shell

open Shell (foundLines)

variable {line word first : String} {others : List String}

/-- A search finds all that stands in a file as it was typed. -/
theorem execute_grep (context : Context) (s : State)
    (hline : Text.words line = "grep" :: word :: first :: others) :
    ∃ (block : String → List Line) (found : String → Bool),
      execute context s line = { lines := (first :: others).flatMap block } ∧
      (∀ l, Text.StandsIn (Text.stripQuotes word) l → found l = true) ∧
      (∀ l, found l = true ↔
        (Text.lower (Text.stripQuotes word)).toList <:+: (Text.lower l).toList) ∧
      (∀ target name data, s.tree.lookup (Path.resolve target s.cwd) = some (.file name data) →
        Text.stripQuotes word ≠ "" ∨ data.content ≠ "\n" →
        block target = ((Text.feedLines data.content).filter found).map fun l =>
          .output (if others = [] then l else target ++ ":" ++ l)) ∧
      ∀ target,
        (∀ name data, s.tree.lookup (Path.resolve target s.cwd) ≠ some (.file name data)) →
        ∃ e : ReadError, block target = [e.line "grep" target] := by
  let r : Request := ⟨"grep", word :: first :: others, s, context⟩
  have hrun : Shell.run r .grep = .ok
      { lines := (first :: others).flatMap (foundLines r (Text.stripQuotes word) others) } :=
    congrArg Except.ok (Shell.grep_eq_lines rfl)
  refine ⟨foundLines r (Text.stripQuotes word) others,
    fun l => Text.contains (Text.lower (Text.stripQuotes word)) (Text.lower l), ?_, ?_, ?_, ?_, ?_⟩
  · exact execute_of_run hline (Command.ofName?_name .grep) hrun
  · exact fun l => Text.contains_lower_of_standsIn
  · exact fun l => Text.contains_iff _ _
  · exact fun target name data => Shell.foundLines_of_file (r := r)
  · exact fun target => Shell.foundLines_of_no_file (r := r)

/-- The pattern is quoted, and of the two files one is missing. -/
theorem execute_grep_quoted :
    let tree := FileTree.base.write "/home/user/f" "Banana\nfig\nnap\n"
    let s : State := { tree := tree.toOption.getD .base }
    ∃ block, execute {} s "grep 'na' f g" = { lines := ["f", "g"].flatMap block } ∧
      block "f" = [.output "f:Banana", .output "f:nap"] ∧
      ∃ e : ReadError, block "g" = [e.line "grep" "g"] := by
  intro tree s
  have hline : Text.words "grep 'na' f g" = ["grep", "'na'", "f", "g"] := by decide +kernel
  have hfile : s.tree.lookup (Path.resolve "f" s.cwd) =
      some (.file "f" { content := "Banana\nfig\nnap\n" }) := by decide +kernel
  have hnone : s.tree.lookup (Path.resolve "g" s.cwd) = none := by decide +kernel
  obtain ⟨block, found, hexecute, -, hfound, hshown, herror⟩ := execute_grep {} s hline
  have hcontains : found = fun l => Text.contains (Text.lower (Text.stripQuotes "'na'"))
      (Text.lower l) :=
    funext fun l => Bool.eq_iff_iff.2 ((hfound l).trans (Text.contains_iff _ _).symm)
  refine ⟨block, hexecute, ?_, herror "g" fun name data => by rw [hnone]; nofun⟩
  rw [hshown "f" "f" _ hfile (.inr (by decide)), hcontains]
  decide +kernel

/-- A capital sigma at the end of a line takes its final form there, but not as a pattern of its
own. And the empty line of a file that holds no other is not among those searched. -/
theorem execute_grep_finalSigma :
    let holding (content : String) : State :=
      { tree := (FileTree.base.write "/home/user/f" content).toOption.getD .base }
    Text.feedLines "ΟΔΟΣ\nΣΑΜΟΣ\n" = ["ΟΔΟΣ", "ΣΑΜΟΣ"] ∧ Text.contains "Σ" "ΟΔΟΣ" = true ∧
      execute {} (holding "ΟΔΟΣ\nΣΑΜΟΣ\n") "grep Σ f" = .print ["ΣΑΜΟΣ"] ∧
      Text.feedLines "\n" = [""] ∧ Text.contains (Text.stripQuotes "''") "" = true ∧
      execute {} (holding "\n") "grep '' f" = .print [] := by
  decide +kernel

end PuzzleShell
