import PuzzleShell.Proofs.Session.Steps
import PuzzleShell.Proofs.Shell.Place
import PuzzleShell.Proofs.Tree.ReadBack
import PuzzleShell.Proofs.Tree.WellFormed

/-!
# What every session keeps

The current directory of a session stays a directory of its tree, and the tree stays well formed,
whatever lines are run and whatever the editor saves. For the tree the path of the open file has
to be carried along: a save is an edit at that path, however long ago the file was opened. A tree
that was read from a template is still read back as it is after any edits.
-/

namespace PuzzleShell

/-- A well-formed tree, and no file open but one with a canonical path. -/
structure State.Sound (s : State) : Prop where
  tree : s.tree.WellFormed
  editing : ∀ path ∈ s.editingFile, Path.Canonical path

namespace Shell

theorem canonical_editingFile {r : Request} {c : Command} {o : Outcome} (h : run r c = .ok o)
    {file : Option String} (hfile : o.patch.editingFile = some file) :
    ∀ path ∈ file, Path.Canonical path := by
  have hmem : Slot.editingFile ∈ c.slots :=
    run_within r h .editingFile (by rw [Patch.sets, hfile]; rfl)
  cases c with
  | nano =>
    cases h
    unfold Editor.start at hfile
    dsimp only at hfile
    split at hfile
    · cases hfile
    · split at hfile
      · cases hfile
      · cases hfile
        rintro path ⟨⟩
        exact Path.canonical_resolve _ _
  | _ => exact absurd hmem (by decide)

end Shell

namespace State.Sound

variable {s : State}

theorem execute (h : s.Sound) (context : Context) (line : String) :
    ((execute context s line).patch.apply s).Sound := by
  rcases execute_cases context s line with hempty | ⟨i, c, -, -, hrun⟩
  · rwa [hempty, Patch.apply_empty]
  · refine ⟨?_, ?_⟩
    · have hedits := Shell.run_edits hrun fun target => List.mem_map_of_mem
      refine h.tree.series (fun path hpath => ?_) hedits
      obtain ⟨target, -, rfl⟩ := List.mem_map.1 hpath
      exact Path.canonical_resolve _ _
    · cases hfile : (PuzzleShell.execute context s line).patch.editingFile with
      | none =>
        rw [Patch.apply, hfile]
        exact h.editing
      | some file =>
        rw [Patch.apply, hfile]
        exact Shell.canonical_editingFile hrun hfile

theorem save (h : s.Sound) (content : Option String) :
    ((Editor.save s content).patch.apply s).Sound := by
  unfold Editor.save
  split
  · exact h
  · next path hpath =>
    have hcanonical : Path.Canonical path := h.editing path hpath
    dsimp only
    split
    · next hwrite =>
      have hgrow := FileTree.Growth.write _ hwrite
      exact ⟨h.tree.edit hcanonical (.inl hgrow), h.editing⟩
    · exact h

theorem close (h : s.Sound) : (Editor.close.patch.apply s).Sound :=
  ⟨h.tree, by simp [Patch.apply, Editor.close]⟩

end State.Sound

namespace State

variable {s : State}

theorem complete_execute (h : s.tree.Complete) (context : Context) (line : String) :
    ((execute context s line).patch.apply s).tree.Complete := by
  rcases execute_cases context s line with hempty | ⟨i, c, -, -, hrun⟩
  · rwa [hempty, Patch.apply_empty]
  · exact h.series (Shell.run_edits hrun fun target => List.mem_map_of_mem)

theorem complete_save (h : s.tree.Complete) (content : Option String) :
    ((Editor.save s content).patch.apply s).tree.Complete := by
  unfold Editor.save
  split
  · exact h
  · dsimp only
    split
    · next hwrite => exact h.growth (.write _ hwrite)
    · exact h

end State

namespace Session

theorem anchored_world {s : State} : s.world.Anchored ↔ s.Anchored :=
  ⟨fun h => ⟨h.canonical, h.isDir⟩, fun h => ⟨h.canonical, h.isDir⟩⟩

theorem sound_world {s : State} : s.world.Sound ↔ s.Sound :=
  ⟨fun h => ⟨h.tree, h.editing⟩, fun h => ⟨h.tree, h.editing⟩⟩

/-- Wherever a session has been taken, its current directory has a canonical path and is a
directory of its tree, if that is so of the mission it plays. -/
theorem anchored_steps (mission : Option Mission) (config : Config) (objects : Prompt.Objects)
    (h : ∀ m ∈ mission, Path.Canonical m.cwd ∧ m.tree.hasDir m.cwd = true) (xs : List Step) :
    ((start mission config objects).steps xs).2.state.Anchored := by
  have hinitial : (initialState mission).Anchored := by
    cases mission with
    | none => exact ⟨Path.canonical_home, by decide⟩
    | some m => exact ⟨(h m rfl).1, (h m rfl).2⟩
  exact steps_invariant (fun _ => anchored_world) (fun context _ line h => h.execute context line)
    (fun _ content h => h.save content) (fun _ h => h.close) hinitial hinitial xs

/-- Removing the starting directory with all that is in it takes the player to the root. -/
theorem anchored_after_removing_home :
    let s := start (some { cwd := "/home" }) {} .small
    let t := (s.steps [.run "mkdir w", .run "cd w", .run "rm -r /home w"]).2
    t.state.cwd = "/" ∧ t.state.Anchored := by
  refine ⟨by decide +kernel, anchored_steps _ _ _ ?_ _⟩
  rintro m ⟨⟩
  exact ⟨by decide +kernel, by decide +kernel⟩

/-- The tree of a session stays well formed if that of its mission is. -/
theorem wellFormed_steps (mission : Option Mission) (config : Config) (objects : Prompt.Objects)
    (h : ∀ m ∈ mission, m.tree.WellFormed) (xs : List Step) :
    ((start mission config objects).steps xs).2.state.tree.WellFormed := by
  have hinitial : (initialState mission).Sound := by
    cases mission with
    | none => exact ⟨FileTree.base_wellFormed, by simp [initialState]⟩
    | some m => exact ⟨h m rfl, by simp [initialState, Mission.start]⟩
  have hsound : ((start mission config objects).steps xs).2.state.Sound :=
    steps_invariant (fun _ => sound_world) (fun context _ line h => h.execute context line)
      (fun _ content h => h.save content) (fun _ h => h.close) hinitial hinitial xs
  exact hsound.tree

/-- The directory of the open file is removed before the text is saved. -/
theorem wellFormed_after_late_save :
    let s := start (some { cwd := "/home" }) {} .small
    let t := (s.steps [.run "mkdir w", .run "nano ./w/../w//n", .run "rm -r w",
      .save (some "text")]).2
    t.state.editingFile = some "/home/w/n" ∧ t.state.tree.WellFormed := by
  refine ⟨by decide +kernel, wellFormed_steps _ _ _ ?_ _⟩
  rintro m ⟨⟩
  exact FileTree.base_wellFormed

/-- However a session goes on whose tree was read from a template, its tree is what is read from
the template that it is written to. -/
theorem readBack_steps {d : Template} {t : FileTree} (hread : FileTree.ofTemplate d = .ok t)
    {s : Session} (hstate : s.state.tree = t) (hmission : ∀ m ∈ s.mission, m.tree = t)
    (xs : List Step) :
    let t' := (s.steps xs).2.state.tree
    FileTree.ofTemplate t'.root.toTemplate = .ok t' := by
  have hcomplete : t.Complete := FileTree.complete_ofTemplate hread
  have hinitial : (initialState s.mission).tree.Complete := by
    cases hm : s.mission with
    | none => exact FileTree.base_complete
    | some m =>
      have htree : m.tree = t := hmission m hm
      rw [← htree] at hcomplete
      exact hcomplete
  have hend : (s.steps xs).2.state.tree.Complete :=
    steps_invariant (P := fun state => state.tree.Complete) (fun _ => Iff.rfl)
      (fun context _ line h => State.complete_execute h context line)
      (fun _ content h => State.complete_save h content) (fun _ h => h) hinitial
      (hstate ▸ hcomplete) xs
  exact hend.ofTemplate_toTemplate

/-- A template that leaves out most of what can be left out; the file in it loses its flag, and a
file that was opened first of all is saved last. -/
theorem readBack_after_late_save :
    let d : Template := { kind := .text "directory", name := some "/", children := [
      ("run", { kind := .text "file", content := some "echo hi", executable := .int 1 }),
      ("w", { kind := .text "directory", owner := some "root" })] }
    let t := (FileTree.ofTemplate d).toOption.getD .base
    let s := start (some { tree := t, cwd := "/w" }) {} .small
    let t' := (s.steps [.run "nano n", .run "chmod -x ../run", .run "mkdir a",
      .save (some "text")]).2.state.tree
    t'.lookup "/w/n" = some (.file "n" { content := "text" }) ∧
      FileTree.ofTemplate t'.root.toTemplate = .ok t' := by
  intro d t s
  have hsome : (FileTree.ofTemplate d).toOption = some t := by decide +kernel
  have hread : FileTree.ofTemplate d = .ok t := by
    cases h : FileTree.ofTemplate d with
    | error e => rw [h] at hsome; cases hsome
    | ok u => rw [h] at hsome; exact congrArg _ (Option.some.inj hsome)
  refine ⟨by decide +kernel, readBack_steps hread (s := s) rfl ?_ _⟩
  rintro m ⟨⟩
  rfl

end Session

end PuzzleShell
