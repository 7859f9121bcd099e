import PuzzleShell.Proofs.Shell.Batch
import PuzzleShell.Proofs.Tree.Labels

/-!
# The mode of a file

To change the mode of a file is to put it back with other rights. It keeps its name, its content and
its owner, and nothing else in the tree is different. Only a file in place of the root cannot be put
back, and then an error is reported.
-/

namespace PuzzleShell

def FileData.mark (data : FileData) (executable : Bool) : FileData :=
  { data with executable, permissions := Shell.modePermissions executable }

namespace FileTree

/-- The second tree is the first one, but for the rights of the file at the path. -/
structure Marks (t t' : FileTree) (path : String) (executable : Bool) : Prop where
  file : ∀ {name : String} {data : FileData}, t.lookup path = some (.file name data) →
    t'.lookup path = some (.file name (data.mark executable))
  others : ∀ place ≠ Path.segments path, t'.root.labelAt place = t.root.labelAt place

section Put

variable {t t' : FileTree} {path name : String} {data : FileData} (hs : Path.segments path ≠ [])
  (hfile : t.lookup path = some (.file name data))
include hs hfile

theorem name_of_lookup_file : name = Path.name path := by
  rw [lookup_eq_child? hs] at hfile
  obtain ⟨d, -, hchild⟩ := Option.bind_eq_some_iff.1 hfile
  exact Node.name_of_child? hchild

theorem lookup_put_file {new : FileData} (hput : t.put path (.file name new) = .ok t') :
    t'.lookup path = some (.file name new) := by
  rw [lookup_put hs hput, name_of_lookup_file hs hfile]
  rfl

theorem marks_put {executable : Bool}
    (hput : t.put path (.file name (data.mark executable)) = .ok t') :
    t.Marks t' path executable where
  file hsame := by
    cases hfile.symm.trans hsame
    exact lookup_put_file hs hfile hput
  others _ hplace := by
    have hvacant : t.hasDir path = false := by
      rw [hasDir, hfile]
      rfl
    exact labelAt_put_file hs hvacant hput hplace

end Put

end FileTree

namespace Shell

variable {r : Request} {mode w name : String} {executable : Bool} {data : FileData}

theorem chmod_file (hargs : r.args = [mode, w]) (hmode : executableMode? mode = some executable)
    (hfile : r.lookup w = some (.file name data)) :
    chmod r = ((r.tree.put (r.resolve w) (.file name (data.mark executable))).mapError
      Fault.edit).map fun t' => { patch := { tree := some t' } } := by
  have hone : chmodOne r executable { tree := r.tree } w =
      ((r.tree.put (r.resolve w) (.file name (data.mark executable))).mapError Fault.edit).map
        { tree := r.tree : Draft }.update := by
    unfold chmodOne
    change r.tree.lookup (r.resolve w) = _ at hfile
    dsimp only
    rw [hfile]
    rfl
  rw [chmod_eq_map (List.cons_ne_nil _ _) hargs, hmode]
  dsimp only
  rw [List.foldlM_cons, hone]
  cases r.tree.put (r.resolve w) (.file name (data.mark executable)) <;> rfl

end Shell

def Outcome.Marks (o : Outcome) (s : State) (path : String) (executable : Bool) : Prop :=
  ∃ t', s.tree.Marks t' path executable ∧ o = { patch := { tree := some t' } }

section Line

variable {context : Context} {s : State} {line mode w name : String} {executable : Bool}
  {data : FileData}

theorem Outcome.Marks.lookup {o : Outcome} {path : String} (h : o.Marks s path executable)
    (hfile : s.tree.lookup path = some (.file name data)) :
    (o.patch.apply s).cwd = s.cwd ∧ (o.patch.apply s).tree.lookup path =
      some (.file name (data.mark executable)) := by
  obtain ⟨t', hmarks, rfl⟩ := h
  exact ⟨rfl, hmarks.file hfile⟩

variable (hline : Text.words line = ["chmod", mode, w])
  (hmode : Shell.executableMode? mode = some executable)
  (hfile : s.tree.lookup (Path.resolve w s.cwd) = some (.file name data))
include hline hmode hfile

/-- A file has its mode changed, unless it stands in place of the root. -/
theorem execute_chmod :
    (execute context s line).Marks s (Path.resolve w s.cwd) executable ∨
    (Path.segments (Path.resolve w s.cwd) = [] ∧ (execute context s line).hasErrors = true) := by
  let r : Request := ⟨"chmod", [mode, w], s, context⟩
  let marked : FileTree := .file name (data.mark executable)
  have hchmod : Command.ofName? "chmod" = some .chmod := Command.ofName?_name .chmod
  have hrun : Shell.run r .chmod = ((s.tree.put (Path.resolve w s.cwd) marked).mapError
      Fault.edit).map fun t' => { patch := { tree := some t' } } :=
    Shell.chmod_file (r := r) rfl hmode hfile
  by_cases hs : Path.segments (Path.resolve w s.cwd) = []
  · right
    have hput : s.tree.put (Path.resolve w s.cwd) marked = .error (.isDirectory "/") := by
      rw [FileTree.put, hs]
      rfl
    refine ⟨hs, ?_⟩
    rw [hput] at hrun
    rw [execute_of_words hline, Shell.answer, hchmod]
    dsimp only
    rw [hrun]
    rfl
  · left
    have hisSome : (s.tree.lookup (Path.resolve w s.cwd)).isSome = true := by rw [hfile]; rfl
    obtain ⟨t', hput⟩ := (FileTree.exists_put_iff  hs).2
      (FileTree.hasDir_parent hs hisSome)
    rw [hput] at hrun
    exact ⟨t', FileTree.marks_put hs hfile hput, execute_of_run hline hchmod hrun⟩

theorem execute_chmod_of_root (hroot : s.tree.root.isDir = true) :
    (execute context s line).Marks s (Path.resolve w s.cwd) executable := by
  rcases execute_chmod hline hmode hfile with hmarked | ⟨hs, -⟩
  · exact hmarked
  · exact absurd hs (FileTree.segments_ne_nil_of_lookup_file hroot hfile)

theorem execute_chmod_of_clean (hclean : (execute context s line).hasErrors = false) :
    (execute context s line).Marks s (Path.resolve w s.cwd) executable := by
  rcases execute_chmod hline hmode hfile with hmarked | ⟨-, herror⟩
  · exact hmarked
  · rw [herror] at hclean
    cases hclean

end Line

end PuzzleShell
