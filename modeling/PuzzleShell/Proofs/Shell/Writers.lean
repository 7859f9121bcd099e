import PuzzleShell.Proofs.Shell.Footprint
import PuzzleShell.Proofs.Tree.Success

/-!
# The writers of files

A redirection in either mode, `tar` and the editor each check on their own whether a file can be
written, and each has words of its own for a failure. They agree nevertheless: on the places where
they succeed, on what the file keeps of the one before, and on leaving everything as it was where
they fail.
-/

namespace PuzzleShell

open FileTree (Writable)

namespace Outcome

variable {o : Outcome} {t : FileTree} {path content : String}

structure Refuses (o : Outcome) : Prop where
  patch : o.patch = {}
  nonempty : o.lines ≠ []
  errors : ∀ l ∈ o.lines, l.kind = .error

/-- The outcome of writing a file: where one can be written it is found there afterwards, with this
content and the rest of its data as before. -/
structure Writes (o : Outcome) (t : FileTree) (path content : String) : Prop where
  accepts : t.Writable path → o.hasErrors = false ∧ ∃ t', o.patch.tree = some t' ∧
    t'.lookup path = some (.file (Path.name path) { t.fileAt path with content })
  refuses : ¬ t.Writable path → o.Refuses

theorem refuses_fail (text : String) : (fail text).Refuses where
  patch := rfl
  nonempty := List.cons_ne_nil _ _
  errors l hl := by rw [List.mem_singleton.1 hl]; rfl

theorem writes_of_write (hpath : Path.Canonical path)
    (hok : ∀ t', t.write path content = .ok t' → o.hasErrors = false ∧ o.patch.tree = some t')
    (herror : ∀ e, t.write path content = .error e → o.Refuses) : o.Writes t path content := by
  constructor
  · intro hw
    obtain ⟨t', ht'⟩ := (FileTree.exists_write_iff hpath).2 hw
    obtain ⟨hclean, htree⟩ := hok t' ht'
    exact ⟨hclean, t', htree, FileTree.lookup_write ht'⟩
  · intro hw
    cases h : t.write path content with
    | ok t' => exact absurd ((FileTree.exists_write_iff hpath).1 ⟨t', h⟩) hw
    | error e => exact herror e h

end Outcome

theorem Redirect.split_append {words : List String} (h : ∀ w ∈ words, w ≠ ">" ∧ w ≠ ">>")
    (rest : List String) : split (words ++ rest) = (words ++ (split rest).1, (split rest).2) := by
  induction words with
  | nil => rfl
  | cons w words ih =>
    obtain ⟨⟨hover, honto⟩, hwords⟩ := List.forall_mem_cons.1 h
    have hplain : RedirectMode.ofSymbol? w = none := by
      rw [RedirectMode.ofSymbol?, if_neg hover, if_neg honto]
    rw [List.cons_append, split, hplain, ih hwords]
    rfl

/-- Of a file that cannot be read, the content is that of a new one. -/
theorem Request.content_read (r : Request) (target : String) :
    (r.read target).toOption.getD "" = (r.tree.fileAt (r.resolve target)).content := by
  unfold read lookup FileTree.fileAt
  cases r.tree.lookup (r.resolve target) with
  | none => rfl
  | some n => cases n <;> rfl

namespace Shell

variable {r : Request}

theorem priorContent_append (target : String) :
    priorContent r .append target = (r.tree.fileAt (r.resolve target)).content :=
  r.content_read target

theorem writeLine_writes (mode : RedirectMode) (target text : String) :
    (writeLine r mode target text).Writes r.tree (r.resolve target)
      (priorContent r mode target ++ text ++ "\n") := by
  have hpath : Path.Canonical (r.resolve target) := Path.canonical_resolve target r.cwd
  unfold writeLine
  split
  · next hdir =>
    -- The check before the write refuses nothing that the write would not refuse itself.
    have hbusy : r.tree.hasDir (r.resolve target) = true :=
      FileTree.hasDir_eq_true_iff.2 ⟨_, hdir, rfl⟩
    refine ⟨fun hw => ?_, fun _ => Outcome.refuses_fail _⟩
    have hvacant := hw.vacant
    rw [hbusy] at hvacant
    cases hvacant
  · refine Outcome.writes_of_write hpath (fun t' ht' => ?_) fun e he => ?_
    · rw [ht']
      exact ⟨rfl, rfl⟩
    · rw [he]
      cases e <;> exact Outcome.refuses_fail _

theorem echo_writes {words : List String} (hwords : ∀ w ∈ words, w ≠ ">" ∧ w ≠ ">>")
    (mode : RedirectMode) {target : String} (hargs : r.args = words ++ [mode.symbol, target]) :
    (echo r).Writes r.tree (r.resolve target)
      (priorContent r mode target ++ echoText words ++ "\n") := by
  have hsplit : Redirect.split r.args = (words, some ⟨mode, some target⟩) := by
    rw [hargs, Redirect.split_append hwords]
    cases mode <;> simp [Redirect.split, RedirectMode.ofSymbol?, RedirectMode.symbol]
  unfold echo
  rw [hsplit]
  exact writeLine_writes mode target (echoText words)

section Archive

variable {target : String} {sources : List String}

theorem tar_eq_ite {options : String} (hargs : r.args = options :: target :: sources)
    (hsources : sources ≠ []) : tar r =
      if 'c' ∈ options.toList.dropWhile (· == '-') ∧ 'f' ∈ options.toList.dropWhile (· == '-') then
        archive r target sources
      else .fail "tar: usage: tar -cf <archive> <source>" := by
  obtain ⟨source, others, rfl⟩ := List.exists_cons_of_ne_nil hsources
  unfold tar
  rw [hargs]

theorem tar_eq_archive (hargs : r.args = "-cf" :: target :: sources) (hsources : sources ≠ []) :
    tar r = archive r target sources :=
  (tar_eq_ite hargs hsources).trans (if_pos (by decide))

theorem archive_writes (h : ∀ source ∈ sources, (r.lookup source).isSome = true) :
    (archive r target sources).Writes r.tree (r.resolve target)
      (archiveContent (sources.map r.resolve)) := by
  have hall : (sources.filter fun source => (r.lookup source).isNone) = [] := by
    refine List.filter_eq_nil_iff.2 fun source hs => ?_
    rw [Option.isNone_iff_eq_none, ← Option.not_isSome_iff_eq_none, not_not]
    exact h source hs
  unfold archive
  rw [hall]
  refine Outcome.writes_of_write (Path.canonical_resolve target r.cwd) (fun t' ht' => ?_)
    fun e he => ?_
  · dsimp only
    rw [ht']
    exact ⟨rfl, rfl⟩
  · dsimp only
    rw [he]
    exact Outcome.refuses_fail _

theorem archive_of_missing (h : ∃ source ∈ sources, r.lookup source = none) :
    archive r target sources = { lines := (sources.filter fun source =>
      (r.lookup source).isNone).map missingSource } := by
  unfold archive
  split
  · next hall =>
    obtain ⟨source, hs, hnone⟩ := h
    have hfound := List.filter_eq_nil_iff.1 hall source hs
    rw [hnone] at hfound
    exact absurd rfl hfound
  · rfl

end Archive

end Shell

theorem Editor.save_writes (s : State) {path : String} (hpath : Path.Canonical path)
    (content : Option String) :
    (save { s with editingFile := some path } content).Writes s.tree path
      (content.getD s.editingContent) := by
  unfold save
  refine Outcome.writes_of_write hpath (fun t' ht' => ?_) fun e he => ?_
  · dsimp only
    rw [ht']
    exact ⟨rfl, rfl⟩
  · dsimp only
    rw [he]
    exact Outcome.refuses_fail _

/-- A redirection, an archive of what exists and the editor write to the same places in the same
way, whatever the state; an archive of what is missing is refused. -/
theorem writers_agree (context : Context) (s : State) (target : String) {words : List String}
    (hwords : ∀ w ∈ words, w ≠ ">" ∧ w ≠ ">>") :
    let path := Path.resolve target s.cwd
    (∀ line, Text.words line = "echo" :: (words ++ [">", target]) →
      (execute context s line).Writes s.tree path (Shell.echoText words ++ "\n")) ∧
    (∀ line, Text.words line = "echo" :: (words ++ [">>", target]) →
      (execute context s line).Writes s.tree path
        ((s.tree.fileAt path).content ++ Shell.echoText words ++ "\n")) ∧
    (∀ line sources, sources ≠ [] → Text.words line = "tar" :: "-cf" :: target :: sources →
      ((∀ source ∈ sources, (s.tree.lookup (Path.resolve source s.cwd)).isSome = true) →
        (execute context s line).Writes s.tree path (String.join (sources.map fun source =>
          "tar archive of " ++ Path.resolve source s.cwd ++ "\n"))) ∧
      ((∃ source ∈ sources, s.tree.lookup (Path.resolve source s.cwd) = none) →
        let missing := sources.filter fun source =>
          (s.tree.lookup (Path.resolve source s.cwd)).isNone
        execute context s line = ⟨missing.map fun source =>
          .error ("tar: " ++ source ++ ": Cannot stat: No such file or directory"), {}⟩)) ∧
    ∀ content : Option String, (Editor.save { s with editingFile := some path } content).Writes
      s.tree path (content.getD s.editingContent) := by
  have hecho : Command.ofName? "echo" = some .echo := by decide +kernel
  have htar : Command.ofName? "tar" = some .tar := by decide +kernel
  refine ⟨fun line hline => ?_, fun line hline => ?_, fun line sources hne hline => ?_, ?_⟩
  · rw [execute_of_run hline hecho rfl]
    exact Shell.echo_writes hwords .overwrite rfl
  · let r : Request := ⟨"echo", words ++ [">>", target], s, context⟩
    have hwrites : (Shell.echo r).Writes r.tree (r.resolve target) _ :=
      Shell.echo_writes hwords .append rfl
    rw [Shell.priorContent_append] at hwrites
    rw [execute_of_run hline hecho rfl]
    exact hwrites
  · let r : Request := ⟨"tar", "-cf" :: target :: sources, s, context⟩
    have hanswer : execute context s line = Shell.archive r target sources :=
      (execute_of_run hline htar rfl).trans (Shell.tar_eq_archive rfl hne)
    rw [hanswer]
    refine ⟨fun h => ?_, fun h => Shell.archive_of_missing h⟩
    have hwrites : (Shell.archive r target sources).Writes r.tree (r.resolve target) _ :=
      Shell.archive_writes h
    rwa [Shell.archiveContent, List.map_map] at hwrites
  · exact Editor.save_writes s (Path.canonical_resolve target s.cwd)

theorem writers_agree_home :
    (execute {} {} "echo hi > ../user/a").Writes FileTree.base "/home/user/a" "hi\n" ∧
    (execute {} {} "echo hi >> ../user/a").Writes FileTree.base "/home/user/a" "hi\n" ∧
    (execute {} {} "tar -cf ../user/a / ~").Writes FileTree.base "/home/user/a"
      "tar archive of /\ntar archive of /home/user\n" ∧
    (execute {} {} "tar -cf ../user/a x").lines =
      [.error "tar: x: Cannot stat: No such file or directory"] := by
  have hwords : ∀ w ∈ ["hi"], w ≠ ">" ∧ w ≠ ">>" := by decide
  obtain ⟨hover, honto, htar, -⟩ := writers_agree {} {} "../user/a" hwords
  have hfound : ∀ source ∈ ["/", "~"],
      (FileTree.base.lookup (Path.resolve source "/home/user")).isSome = true := by decide +kernel
  have hmissing : ∃ source ∈ ["x"],
      FileTree.base.lookup (Path.resolve source "/home/user") = none := by decide +kernel
  refine ⟨?_, ?_, ?_, ?_⟩
  · exact hover "echo hi > ../user/a" (by decide +kernel)
  · exact honto "echo hi >> ../user/a" (by decide +kernel)
  · exact (htar "tar -cf ../user/a / ~" _ (by decide) (by decide +kernel)).1 hfound
  · rw [(htar "tar -cf ../user/a x" _ (by decide) (by decide +kernel)).2 hmissing]
    decide +kernel

end PuzzleShell
