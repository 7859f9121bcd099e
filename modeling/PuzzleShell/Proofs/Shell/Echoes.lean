import PuzzleShell.Proofs.Shell.Batch
import PuzzleShell.Proofs.Shell.Writers
import PuzzleShell.Proofs.Text.Lines

/-!
# Texts written by `echo` and shown by `cat`

Each redirection adds one line to the file, so after a series of them the file holds the texts
line by line, and `cat` shows what `echo` would have printed. One blank text alone is lost: the
file then holds a single line feed, which is read as no line.
-/

namespace PuzzleShell

/-- Someone who stands at `cwd` has a file with this content at the path. -/
structure State.Keeps (s : State) (cwd path content : String) : Prop where
  cwd_eq : s.cwd = cwd
  file : ∃ name data, s.tree.lookup path = some (.file name data) ∧ data.content = content

namespace State.Keeps

variable {s : State} {cwd path content : String} (h : s.Keeps cwd path content)
include h

theorem fileAt_content : (s.tree.fileAt path).content = content := by
  obtain ⟨name, data, hfile, rfl⟩ := h.file
  rw [FileTree.fileAt, hfile]

theorem writable (hpath : Path.Canonical path) (hroot : path ≠ "/") : s.tree.Writable path := by
  obtain ⟨name, data, hfile, -⟩ := h.file
  refine ⟨hroot, FileTree.hasDir_parent (mt hpath.segments_eq_nil_iff.1 hroot) ?_, ?_⟩
  · rw [hfile]
    rfl
  · rw [FileTree.hasDir, hfile]
    rfl

end State.Keeps

namespace Shell

def redirect (context : Context) (mode : RedirectMode) (target : String) (s : State)
    (words : List String) : Outcome :=
  echo ⟨"echo", words ++ [mode.symbol, target], s, context⟩

theorem execute_eq_redirect {context : Context} {s : State} {line target : String}
    {words : List String} (mode : RedirectMode)
    (hline : Text.words line = "echo" :: (words ++ [mode.symbol, target])) :
    execute context s line = redirect context mode target s words := by
  have hecho : Command.ofName? "echo" = some .echo := Command.ofName?_name .echo
  exact execute_of_run hline hecho rfl

end Shell

section Writing

variable (context : Context) {s : State} {target : String} {words : List String}
  (hwords : ∀ w ∈ words, w ≠ ">" ∧ w ≠ ">>")
include hwords

theorem keeps_redirect (mode : RedirectMode)
    (hwritable : s.tree.Writable (Path.resolve target s.cwd)) :
    ((Shell.redirect context mode target s words).patch.apply s).Keeps s.cwd
      (Path.resolve target s.cwd)
      (Shell.priorContent ⟨"echo", words ++ [mode.symbol, target], s, context⟩ mode target ++
        Shell.echoText words ++ "\n") := by
  let r : Request := ⟨"echo", words ++ [mode.symbol, target], s, context⟩
  have hwrites : (Shell.echo r).Writes r.tree (r.resolve target)
      (Shell.priorContent r mode target ++ Shell.echoText words ++ "\n") :=
    Shell.echo_writes hwords mode rfl
  obtain ⟨-, t', htree, hlookup⟩ := hwrites.accepts hwritable
  have hcwd : Slot.cwd.Same ((Shell.echo r).patch.apply s) s :=
    (Shell.within_echo r).same_apply (by decide) s
  have hafter : ((Shell.echo r).patch.apply s).tree = t' := by
    rw [Patch.apply, htree]
    rfl
  refine ⟨hcwd, ?_⟩
  rw [Shell.redirect, hafter]
  exact ⟨_, _, hlookup, rfl⟩

theorem keeps_overwrite (hwritable : s.tree.Writable (Path.resolve target s.cwd)) :
    ((Shell.redirect context .overwrite target s words).patch.apply s).Keeps s.cwd
      (Path.resolve target s.cwd) (Text.written [Shell.echoText words]) := by
  have hkeeps := keeps_redirect context hwords .overwrite hwritable
  rwa [Shell.priorContent, String.empty_append, ← Text.written_singleton] at hkeeps

theorem State.Keeps.append {cwd : String} {texts : List String}
    (h : s.Keeps cwd (Path.resolve target cwd) (Text.written texts))
    (hroot : Path.resolve target cwd ≠ "/") :
    ((Shell.redirect context .append target s words).patch.apply s).Keeps cwd
      (Path.resolve target cwd) (Text.written (texts ++ [Shell.echoText words])) := by
  obtain rfl := h.cwd_eq
  have hwritable := h.writable (Path.canonical_resolve target s.cwd) hroot
  have hkeeps := keeps_redirect context hwords .append hwritable
  rw [Shell.priorContent_append] at hkeeps
  change State.Keeps _ _ _ ((s.tree.fileAt (Path.resolve target s.cwd)).content ++ _ ++ _) at hkeeps
  rwa [h.fileAt_content, String.append_assoc, ← Text.written_singleton, ← Text.written_append]
    at hkeeps

end Writing

theorem State.Keeps.inTurn (context : Context) {s : State} {cwd target : String}
    {texts : List String} {others : List (List String)}
    (h : s.Keeps cwd (Path.resolve target cwd) (Text.written texts))
    (hroot : Path.resolve target cwd ≠ "/")
    (hothers : ∀ words ∈ others, ∀ w ∈ words, w ≠ ">" ∧ w ≠ ">>") :
    (inTurn (Shell.redirect context .append target) s others).2.Keeps cwd (Path.resolve target cwd)
      (Text.written (texts ++ others.map Shell.echoText)) := by
  -- The texts there at first are general: each pass adds its own to them.
  induction others generalizing s texts with
  | nil =>
    rw [List.map_nil, List.append_nil]
    exact h
  | cons words others ih =>
    obtain ⟨hwords, hothers⟩ := List.forall_mem_cons.1 hothers
    have hlater := ih (h.append context hwords hroot) hothers
    rwa [List.append_assoc, List.singleton_append] at hlater

theorem fitsLine_of_redirect {line operator target : String} {words : List String}
    (hline : Text.words line = "echo" :: (words ++ [operator, target])) :
    Text.FitsLine (Shell.echoText words) := by
  have hsub : words ⊆ Text.words line := by
    rw [hline]
    exact List.Subset.trans (List.subset_append_left words _) (List.subset_cons_self _ _)
  exact Shell.fitsLine_echoText hsub

section Series

variable (context : Context) {s : State} {target line : String} {lines : List String}
  {first : List String} {others : List (List String)}
  (hline : Text.words line = "echo" :: (first ++ [">", target]))
  (hlines : lines.map Text.words = others.map fun words => "echo" :: (words ++ [">>", target]))
include hline hlines

theorem keeps_inTurn (hwords : ∀ words ∈ first :: others, ∀ w ∈ words, w ≠ ">" ∧ w ≠ ">>")
    (hwritable : s.tree.Writable (Path.resolve target s.cwd)) :
    (inTurn (execute context) s (line :: lines)).2.Keeps s.cwd (Path.resolve target s.cwd)
      (Text.written ((first :: others).map Shell.echoText)) := by
  obtain ⟨hfirst, hothers⟩ := List.forall_mem_cons.1 hwords
  have hanswer : ∀ s line words, Text.words line = "echo" :: (words ++ [">>", target]) →
      execute context s line = Shell.redirect context .append target s words :=
    fun _ _ _ => Shell.execute_eq_redirect .append
  have hstart := keeps_overwrite context hfirst hwritable
  rw [inTurn, Shell.execute_eq_redirect .overwrite hline, inTurn_execute_of_words hanswer _ hlines]
  exact hstart.inTurn context hwritable.ne_root hothers

theorem fitsLine_of_series :
    ∀ text ∈ (first :: others).map Shell.echoText, Text.FitsLine text := by
  rw [List.forall_mem_map, List.forall_mem_cons]
  refine ⟨fitsLine_of_redirect hline, fun words hmem => ?_⟩
  have htyped := List.mem_map_of_mem (f := fun words => "echo" :: (words ++ [">>", target])) hmem
  rw [← hlines] at htyped
  obtain ⟨typed, -, htyped⟩ := List.mem_map.1 htyped
  exact fitsLine_of_redirect htyped

end Series

section Reading

variable {context : Context} {s : State} {line target : String} {words : List String}

theorem execute_echo (hwords : ∀ w ∈ words, w ≠ ">" ∧ w ≠ ">>")
    (hline : Text.words line = "echo" :: words) :
    execute context s line = .print [Shell.echoText words] := by
  let r : Request := ⟨"echo", words, s, context⟩
  have hecho : Command.ofName? "echo" = some .echo := Command.ofName?_name .echo
  have hsplit : Redirect.split r.args = (words, none) := by
    have hplain := Redirect.split_append hwords []
    rwa [List.append_nil, Redirect.split, List.append_nil] at hplain
  have hanswer : execute context s line = Shell.echo r := execute_of_run hline hecho rfl
  rw [hanswer, Shell.echo, hsplit]

theorem execute_cat {cwd content : String} (h : s.Keeps cwd (Path.resolve target cwd) content)
    (hline : Text.words line = ["cat", target]) :
    execute context s line = .print (Shell.contentLines content) := by
  let r : Request := ⟨"cat", [target], s, context⟩
  have hcat : Command.ofName? "cat" = some .cat := Command.ofName?_name .cat
  have hanswer : execute context s line = Shell.cat r := execute_of_run hline hcat rfl
  obtain rfl := h.cwd_eq
  obtain ⟨name, data, hfile, rfl⟩ := h.file
  have hread : r.read target = .ok data.content := by
    change r.lookup target = _ at hfile
    rw [Request.read, hfile]
  rw [hanswer, Shell.cat_eq_lines (List.cons_ne_nil _ _)]
  change ({ lines := [target].flatMap (Shell.shownLines r) } : Outcome) = _
  rw [List.flatMap_singleton, Shell.shownLines, hread]
  rfl

end Reading

/-- `cat` shows of the target what `echo` prints of the arguments, in their order. One blank text
on its own is not shown. -/
structure EchoesBack (context : Context) (s : State) (target : String)
    (arguments : List (List String)) : Prop where
  printed : ∀ state, ∀ words ∈ arguments, ∀ line, Text.words line = "echo" :: words →
    execute context state line = .print [Shell.echoText words]
  shown : ∀ line, Text.words line = ["cat", target] → execute context s line =
    .print (if arguments.map Shell.echoText = [""] then [] else arguments.map Shell.echoText)

/-- Wherever a file can be written, what `echo` writes there is what `cat` shows. -/
theorem echoesBack_inTurn (context : Context) {s : State} {target line : String}
    {lines : List String} {first : List String} {others : List (List String)}
    (hparent : s.tree.hasDir (Path.parent (Path.resolve target s.cwd)) = true)
    (hvacant : s.tree.hasDir (Path.resolve target s.cwd) = false)
    (hwords : ∀ words ∈ first :: others, ∀ w ∈ words, w ≠ ">" ∧ w ≠ ">>")
    (hline : Text.words line = "echo" :: (first ++ [">", target]))
    (hlines : lines.map Text.words = others.map fun words => "echo" :: (words ++ [">>", target])) :
    EchoesBack context (inTurn (execute context) s (line :: lines)).2 target (first :: others) where
  printed state words hmem plain hplain := execute_echo (hwords words hmem) hplain
  shown plain hplain := by
    have hkeeps := keeps_inTurn context hline hlines hwords (.of_vacant hparent hvacant)
    have hfits := fitsLine_of_series hline hlines
    rw [execute_cat hkeeps hplain, Shell.contentLines_written hfits]

/-- Blank texts at either end and in the middle; the quotes around the second text are dropped. -/
theorem echoesBack_inTurn_blanks :
    execute {} (inTurn (execute {}) {}
      ["echo > ./f", "echo 'a  b' >> ./f", "echo >> ./f", "echo \"\" >> ./f"]).2 "cat ./f" =
      .print ["", "a b", "", ""] := by
  have hparent : ({} : State).tree.hasDir (Path.parent (Path.resolve "./f" "/home/user")) = true := by
    decide +kernel
  have hvacant : ({} : State).tree.hasDir (Path.resolve "./f" "/home/user") = false := by
    decide +kernel
  have hwords : ∀ words ∈ [[], ["'a", "b'"], [], ["\"\""]], ∀ w ∈ words, w ≠ ">" ∧ w ≠ ">>" := by
    decide
  have hline : Text.words "echo > ./f" = "echo" :: ([] ++ [">", "./f"]) := by decide +kernel
  have hlines : ["echo 'a  b' >> ./f", "echo >> ./f", "echo \"\" >> ./f"].map Text.words =
      [["'a", "b'"], [], ["\"\""]].map fun words => "echo" :: (words ++ [">>", "./f"]) := by
    decide +kernel
  have hcat : Text.words "cat ./f" = ["cat", "./f"] := by decide +kernel
  have htexts : [[], ["'a", "b'"], [], ["\"\""]].map Shell.echoText = ["", "a b", "", ""] := by
    decide +kernel
  have hshown := (echoesBack_inTurn {} hparent hvacant hwords hline hlines).shown "cat ./f" hcat
  rwa [htexts, if_neg (by decide)] at hshown

/-- A blank text on its own is printed by `echo` but not shown by `cat`. -/
theorem echoesBack_inTurn_lost :
    (execute {} {} "echo").lines = [.output ""] ∧
    (execute {} (inTurn (execute {}) {} ["echo > f"]).2 "cat f").lines = [] := by
  decide +kernel

end PuzzleShell
