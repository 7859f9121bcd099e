import PuzzleShell.Proofs.Shell.Batch
import PuzzleShell.Proofs.Shell.Writers

/-!
# From opening a file to saving it

Opening a file fixes two things: the absolute path that its name stands for at that moment, and the
content that is found there. Lines that come after keep both until one of them opens the editor
again. What such lines make of the file meanwhile is only seen when it is saved: then its path and
what else is known of it are looked up in the tree as they have left it.
-/

namespace PuzzleShell

structure State.Editing (s : State) (path content : String) : Prop where
  file : s.editingFile = some path
  buffer : s.editingContent = content

/-- The line names the editor and reports no error. -/
def opensEditor (context : Context) (s : State) (line : String) : Bool :=
  commandOf? line == some .nano && !(execute context s line).hasErrors

/-- None of the lines opens the editor on the state that the lines before it leave. -/
def opensNone (context : Context) : State → List String → Bool
  | _, [] => true
  | s, line :: lines => !opensEditor context s line &&
      opensNone context ((execute context s line).patch.apply s) lines

/-- The outcome of a save: a write, after which the buffer holds what was written and the tree is
the same as before but for the file and what is above it. -/
structure Outcome.Saves (o : Outcome) (t : FileTree) (path content : String) : Prop where
  writes : o.Writes t path content
  patch : ∀ t', o.patch.tree = some t' →
    o.patch = { tree := some t', editingContent := some content }
  apart : ∀ t', o.patch.tree = some t' →
    ∀ other, ¬ Path.Covers other path → t'.lookup other = t.lookup other

namespace Editor

theorem start_cases (r : Request) : (start r).hasErrors = true ∧ (start r).patch = {} ∨
    (start r).hasErrors = false ∧ ∃ target others, r.args = target :: others ∧
      r.tree.hasDir (r.resolve target) = false ∧ (start r).patch = {
        editingFile := some (some (r.resolve target))
        editingContent := some (r.tree.fileAt (r.resolve target)).content } := by
  unfold start
  dsimp only
  split
  · exact .inl ⟨rfl, rfl⟩
  · next target others hargs =>
    split
    · exact .inl ⟨rfl, rfl⟩
    · next hread =>
      refine .inr ⟨rfl, target, others, hargs, ?_, ?_⟩
      · rw [FileTree.hasDir]
        rw [Request.read, Request.lookup] at hread
        cases hn : r.tree.lookup (r.resolve target) with
        | none => rfl
        | some n =>
          cases n with
          | file => rfl
          | dir =>
            rw [hn] at hread
            exact absurd rfl hread
      · rw [r.content_read]

variable {s : State} {path content : String}

theorem patch_save (h : s.Editing path content) (text : Option String) : (save s text).patch =
    match s.tree.write path (text.getD content) with
    | .ok t' => { tree := some t', editingContent := some (text.getD content) }
    | .error _ => {} := by
  unfold save
  rw [h.file, h.buffer]
  dsimp only
  cases s.tree.write path (text.getD content) <;> rfl

theorem save_saves (h : s.Editing path content) (hpath : Path.Canonical path)
    (text : Option String) : (save s text).Saves s.tree path (text.getD content) := by
  have hwritten : ∀ t', (save s text).patch.tree = some t' →
      s.tree.write path (text.getD content) = .ok t' := by
    intro t' ht'
    rw [patch_save h] at ht'
    split at ht'
    · next hwrite => rwa [← Option.some.inj ht']
    · cases ht'
  refine ⟨?_, fun t' ht' => ?_, fun t' ht' other hover => ?_⟩
  · have hsame : { s with editingFile := some path } = s := by rw [← h.file]
    have hwrites := save_writes s hpath text
    rwa [hsame, h.buffer] at hwrites
  · rw [patch_save h, hwritten t' ht']
  · exact FileTree.lookup_write_of_apart (hwritten t' ht') hover

theorem save_unchanged (hroot : s.tree.root.isDir = true)
    (h : s.Editing path (s.tree.fileAt path).content) (hvacant : s.tree.hasDir path = false)
    (hfound : (s.tree.lookup path).isSome = true) : (save s none).patch.tree = some s.tree := by
  obtain ⟨n, hn⟩ := Option.isSome_iff_exists.1 hfound
  cases n with
  | dir =>
    rw [FileTree.hasDir_eq_true_iff.2 ⟨_, hn, rfl⟩] at hvacant
    cases hvacant
  | file name data =>
    have hs := FileTree.segments_ne_nil_of_lookup_file hroot hn
    have hdata : s.tree.fileAt path = data := by rw [FileTree.fileAt, hn]
    rw [patch_save h, hdata, Option.getD_none, FileTree.write_self hs hn]

end Editor

section Lines

variable {context : Context} {s : State} {path content line : String}

theorem State.Editing.execute (h : s.Editing path content)
    (hline : opensEditor context s line = false) :
    ((execute context s line).patch.apply s).Editing path content := by
  rcases execute_cases context s line with hempty | ⟨i, c, hi, hc, hrun⟩
  · rwa [hempty, Patch.apply_empty]
  · by_cases hnano : c = .nano
    · subst hnano
      -- The editor was asked for, so it must have reported an error.
      have hcommand : commandOf? line = some .nano := (commandOf?_of_input hi).trans hc
      have hstart : PuzzleShell.execute context s line = Editor.start (i.request s context) :=
        (Except.ok.inj hrun).symm
      rw [opensEditor, hcommand, hstart] at hline
      rw [hstart]
      rcases Editor.start_cases (i.request s context) with ⟨-, hpatch⟩ | ⟨hclean, -⟩
      · rwa [hpatch, Patch.apply_empty]
      · rw [hclean] at hline
        cases hline
    · have hwithin := Shell.run_within _ hrun
      have hfile : Slot.editingFile ∉ c.slots := by revert hnano; cases c <;> decide
      have hbuffer : Slot.editingContent ∉ c.slots := by revert hnano; cases c <;> decide
      exact ⟨(hwithin.same_apply hfile s).trans h.file,
        (hwithin.same_apply hbuffer s).trans h.buffer⟩

theorem State.Editing.inTurn (h : s.Editing path content) {lines : List String}
    (hlines : opensNone context s lines = true) :
    (inTurn (PuzzleShell.execute context) s lines).2.Editing path content := by
  induction lines generalizing s with
  | nil => exact h
  | cons line lines ih =>
    rw [opensNone, Bool.and_eq_true, Bool.not_eq_true'] at hlines
    obtain ⟨hline, hlines⟩ := hlines
    exact ih (h.execute hline) hlines

end Lines

/-- A file is saved to the place for which it was opened, with the text given at the end or else
with the content found at the beginning, and the tree on which this is done is the one that the
lines in between have left. -/
theorem editing_kept (context : Context) {s : State} (hroot : s.tree.root.isDir = true)
    {name target line : String} {others : List String} (hname : name ∈ ["nano", "vim", "vi"])
    (hline : Text.words line = name :: target :: others)
    (hclean : (execute context s line).hasErrors = false) :
    let path := Path.resolve target s.cwd
    let content := (s.tree.fileAt path).content
    let opened := (execute context s line).patch.apply s
    (∀ lines, opensNone context opened lines = true →
      let later := (inTurn (execute context) opened lines).2
      later.Editing path content ∧ ∀ text : Option String,
        (Editor.save later text).Saves later.tree path (text.getD content)) ∧
    ((s.tree.lookup path).isSome = true →
      (Editor.save opened none).patch.tree = some s.tree) := by
  intro path content opened
  have hc : Command.ofName? name = some .nano := by
    simp only [List.mem_cons, List.not_mem_nil, or_false] at hname
    rcases hname with rfl | rfl | rfl <;> decide +kernel
  let r : Request := { name, args := target :: others, state := s, context }
  have hstart : execute context s line = Editor.start r := execute_of_run hline hc rfl
  rw [hstart] at hclean
  rcases Editor.start_cases r with ⟨herror, -⟩ | ⟨-, target, others, hargs, hvacant, hpatch⟩
  · rw [hclean] at herror
    cases herror
  · cases hargs
    have hopened : opened = { s with editingFile := some path, editingContent := content } := by
      change (execute context s line).patch.apply s = _
      rw [hstart, hpatch]
      rfl
    have hediting : opened.Editing path content := by
      rw [hopened]
      exact ⟨rfl, rfl⟩
    have htree : opened.tree = s.tree := by rw [hopened]
    refine ⟨fun lines hlines => ?_, fun hfound => ?_⟩
    · have hlater := hediting.inTurn hlines
      exact ⟨hlater, Editor.save_saves hlater (Path.canonical_resolve target s.cwd)⟩
    · rw [← htree] at hroot hfound ⊢
      refine Editor.save_unchanged hroot ?_ ?_ hfound
      · rw [htree]
        exact hediting
      · rw [htree]
        exact hvacant

/-- The directory of the file is removed and made again, and a file that is to be opened in between
cannot be. -/
theorem editing_kept_home :
    let s := (inTurn (execute {}) {} ["mkdir w", "cd w", "echo hi > a"]).2
    let opened := (execute {} s "vim ./a").patch.apply s
    let later := (inTurn (execute {}) opened ["cd", "rm -r w", "nano /etc", "mkdir w"]).2
    later.Editing "/home/user/w/a" "hi\n" ∧
    (Editor.save later none).Saves later.tree "/home/user/w/a" "hi\n" ∧
    (Editor.save later (some "")).Saves later.tree "/home/user/w/a" "" ∧
    (Editor.save opened none).patch.tree = some s.tree := by
  intro s opened later
  have hroot : s.tree.root.isDir = true := by decide +kernel
  have hname : "vim" ∈ ["nano", "vim", "vi"] := by decide
  have hline : Text.words "vim ./a" = ["vim", "./a"] := by decide +kernel
  have hclean : (execute {} s "vim ./a").hasErrors = false := by decide +kernel
  have hlines : opensNone {} opened ["cd", "rm -r w", "nano /etc", "mkdir w"] = true := by
    decide +kernel
  have hpath : Path.resolve "./a" s.cwd = "/home/user/w/a" := by decide +kernel
  have hcontent : (s.tree.fileAt "/home/user/w/a").content = "hi\n" := by decide +kernel
  have hfound : (s.tree.lookup "/home/user/w/a").isSome = true := by decide +kernel
  have hopened : (execute {} s "vim ./a").patch.apply s = opened := rfl
  obtain ⟨hkept, hunchanged⟩ := editing_kept {} hroot hname hline hclean
  rw [hpath, hcontent, hopened] at hkept
  rw [hpath, hopened] at hunchanged
  obtain ⟨hediting, hsaves⟩ := hkept _ hlines
  exact ⟨hediting, hsaves none, hsaves (some ""), hunchanged hfound⟩

end PuzzleShell
