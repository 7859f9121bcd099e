import PuzzleShell.Proofs.Shell.Edits
import PuzzleShell.Proofs.Shell.Foreseen
import PuzzleShell.Proofs.Tree.Success

/-!
# Loops over operands

A command with many operands loops over them and keeps a draft of what it changes. What an operand
does depends on the tree, or on the list of packages, and on nothing else in the draft. The commands
check first what could go wrong, on the tree as the operands before have left it, so an operand
always goes through: it is passed over, it is reported, or the tree is updated.
-/

namespace PuzzleShell

namespace FileTree

variable {t t' : FileTree} {path : String}

theorem isDir_root_put {new : FileTree} (hs : Path.segments path ≠ [])
    (h : t.put path new = .ok t') : t'.root.isDir = t.root.isDir := by
  obtain ⟨name, rest, hcons⟩ := List.exists_cons_of_ne_nil hs
  rw [← Node.isDir_label, Node.label_graft (put_eq_graft hcons h), Node.isDir_label]

theorem isDir_root_remove (h : t.remove path = .ok t') : t'.root.isDir = t.root.isDir := by
  obtain ⟨name, rest, -, hgraft⟩ := remove_eq_graft h
  rw [← Node.isDir_label, Node.label_graft hgraft, Node.isDir_label]

theorem segments_ne_nil_of_lookup_file {name : String} {data : FileData}
    (hroot : t.root.isDir = true) (h : t.lookup path = some (.file name data)) :
    Path.segments path ≠ [] := by
  intro hs
  rw [lookup, hs] at h
  rw [Option.some.inj h] at hroot
  cases hroot

theorem isDir_root_write {content : String} (h : t.write path content = .ok t') :
    t'.root.isDir = t.root.isDir := by
  obtain ⟨name, data, -, hput⟩ := write_eq_ok h
  exact isDir_root_put (segments_ne_nil_of_write h) hput

end FileTree

namespace Draft

/-- What one operand does to a draft. -/
inductive Act where
  | pass
  | report (line : Line)
  | update (tree : FileTree)

def perform (d : Draft) : Act → Draft
  | .pass => d
  | .report line => d.report line
  | .update tree => d.update tree

/-- What an act amounts to when it is all that a line does. -/
def Act.outcome : Act → Outcome
  | .pass => {}
  | .report line => { lines := [line] }
  | .update tree => { patch := { tree := some tree } }

def Act.treeAfter (t : FileTree) : Act → FileTree
  | .update tree => tree
  | _ => t

theorem outcome_perform (t : FileTree) (a : Act) :
    (({ tree := t } : Draft).perform a).outcome = a.outcome := by
  cases a <;> rfl

theorem tree_perform (d : Draft) (a : Act) : (d.perform a).tree = a.treeAfter d.tree := by
  cases a <;> rfl

theorem lines_perform (d : Draft) (a : Act) :
    (d.perform a).lines = d.lines ++ a.outcome.lines := by
  cases a with
  | report line => rfl
  | pass | update => exact (List.append_nil _).symm

theorem Act.patch_of_hasErrors {a : Act} (h : a.outcome.hasErrors = true) :
    a.outcome.patch = {} := by
  cases a with
  | update => cases h
  | pass | report => rfl

def on (s : State) (d : Draft) : State := { s with tree := d.tree }

theorem on_perform (s : State) (d : Draft) (a : Act) :
    (d.perform a).on s = a.outcome.patch.apply (d.on s) := by
  cases a <;> rfl

/-- A draft that can be edited further, and that tells when it was edited. -/
structure Fits (s : State) (d : Draft) : Prop where
  root : d.tree.root.isDir = true
  same : d.edited = false → d.tree = s.tree

theorem Fits.apply_outcome {s : State} {d : Draft} (h : d.Fits s) :
    d.outcome.patch.apply s = d.on s := by
  rw [on, ← getD_tree_of_same h.same]
  rfl

theorem Fits.perform {s : State} {d : Draft} {a : Act} (h : d.Fits s)
    (hroot : (a.treeAfter d.tree).root.isDir = true) : (d.perform a).Fits s := by
  refine ⟨?_, ?_⟩
  · rwa [tree_perform]
  · cases a with
    | pass | report => exact h.same
    | update => exact fun he => by cases he

/-- The act `a` is what the operand `w` does to every draft of the tree `t`. -/
structure Acts (f : Draft → String → Except Fault Draft) (t : FileTree) (w : String) (a : Act) :
    Prop where
  perform : ∀ d : Draft, d.tree = t → f d w = .ok (d.perform a)
  root : (a.treeAfter t).root.isDir = true
  foreseen : ∀ name, Line.AllForeseen name a.outcome.lines

def Loops (f : Draft → String → Except Fault Draft) : Prop :=
  ∀ (t : FileTree) (w : String), t.root.isDir = true → ∃ a, Acts f t w a

section Acts

variable {f : Draft → String → Except Fault Draft} {t t' : FileTree} {w : String}

theorem acts_pass (hroot : t.root.isDir = true) (h : ∀ d : Draft, d.tree = t → f d w = .ok d) :
    Acts f t w .pass :=
  ⟨h, hroot, fun _ _ hl => by cases hl⟩

theorem acts_report {line : Line} (hroot : t.root.isDir = true)
    (h : ∀ d : Draft, d.tree = t → f d w = .ok (d.report line))
    (hline : ∀ name, line.Foreseen name) : Acts f t w (.report line) :=
  ⟨h, hroot, fun name => Outcome.foreseen_singleton (hline name)⟩

theorem acts_update (hroot : t'.root.isDir = true)
    (h : ∀ d : Draft, d.tree = t → f d w = .ok (d.update t')) : Acts f t w (.update t') :=
  ⟨h, hroot, fun _ _ hl => by cases hl⟩

/-- A whole loop goes through, and says nothing but what its operands say. -/
theorem Loops.exists_foldlM (hf : Loops f) {s : State} (ws : List String) {d : Draft}
    (hd : d.Fits s) (hlines : ∀ name, Line.AllForeseen name d.lines) :
    ∃ d', ws.foldlM f d = .ok d' ∧ d'.Fits s ∧ ∀ name, Line.AllForeseen name d'.lines := by
  induction ws generalizing d with
  | nil => exact ⟨d, rfl, hd, hlines⟩
  | cons w ws ih =>
    obtain ⟨a, ha⟩ := hf d.tree w hd.root
    have hlines' : ∀ name, Line.AllForeseen name (d.perform a).lines := by
      intro name
      rw [lines_perform]
      exact (hlines name).append (ha.foreseen name)
    rw [List.foldlM_cons, ha.perform d rfl]
    exact ih (hd.perform ha.root) hlines'

end Acts

end Draft

namespace Patch

/-- The patch by which one list of packages becomes another; there is none if they are the same. -/
def relist (before after : List String) : Patch :=
  if after = before then {} else { installed := some after }

@[simp] theorem relist_self (installed : List String) : relist installed installed = {} := if_pos rfl

theorem apply_relist (s : State) (after : List String) :
    (relist s.installed after).apply s = { s with installed := after } := by
  unfold relist
  split
  · next hsame => rw [hsame, apply_empty]
  · rfl

end Patch

namespace Shell

variable (r : Request)

theorem mkdir_loops : Draft.Loops (mkdirOne r) := by
  intro t w hroot
  unfold mkdirOne
  cases hparent : t.lookup (Path.parent (r.resolve w)) with
  | none =>
    exact ⟨.report _, Draft.acts_report hroot
      (fun d hd => by
        dsimp only
        rw [hd, hparent])
      fun _ => by exact Line.foreseen_append rfl rfl⟩
  | some n =>
    cases n with
    | file =>
      exact ⟨.report _, Draft.acts_report hroot
        (fun d hd => by
          dsimp only
          rw [hd, hparent])
        fun _ => by exact Line.foreseen_append rfl rfl⟩
    | dir m o cs =>
      by_cases hbusy : Path.name (r.resolve w) = "" ∨
          ((Node.dir m o cs).child? (Path.name (r.resolve w))).isSome = true
      · exact ⟨.report _, Draft.acts_report hroot
          (fun d hd => by
            dsimp only
            rw [hd, hparent]
            exact if_pos hbusy)
          fun _ => by exact Line.foreseen_append rfl rfl⟩
      · have hs : Path.segments (r.resolve w) ≠ [] := fun hs =>
          hbusy (.inl (Path.name_eq_empty_iff.2 hs))
        have hdir := FileTree.hasDir_eq_true_iff.2 ⟨_, hparent, rfl⟩
        obtain ⟨t', hput⟩ := (FileTree.exists_put_iff hs).2 hdir
        have hroot' := (FileTree.isDir_root_put hs hput).trans hroot
        refine ⟨.update t', Draft.acts_update hroot' fun d hd => ?_⟩
        dsimp only
        rw [hd, hparent]
        refine (if_neg hbusy).trans ?_
        rw [hput]
        rfl

theorem touch_loops : Draft.Loops fun d w => .ok (touchOne r d w) := by
  intro t w hroot
  unfold touchOne
  by_cases hfound : (t.lookup (r.resolve w)).isSome = true
  · refine ⟨.pass, Draft.acts_pass hroot fun d hd => ?_⟩
    dsimp only
    rw [hd, if_pos hfound]
  · cases hwrite : t.write (r.resolve w) "" with
    | error e =>
      exact ⟨.report _, Draft.acts_report hroot
        (fun d hd => by
          dsimp only
          rw [hd, if_neg hfound, hwrite])
        fun _ => by exact Line.foreseen_append rfl rfl⟩
    | ok t' =>
      have hroot' := (FileTree.isDir_root_write hwrite).trans hroot
      refine ⟨.update t', Draft.acts_update hroot' fun d hd => ?_⟩
      dsimp only
      rw [hd, if_neg hfound, hwrite]

theorem chmod_loops (executable : Bool) : Draft.Loops (chmodOne r executable) := by
  intro t w hroot
  unfold chmodOne
  cases hfound : t.lookup (r.resolve w) with
  | none =>
    exact ⟨.report _, Draft.acts_report hroot
      (fun d hd => by
        dsimp only
        rw [hd, hfound])
      fun _ => by exact Line.foreseen_append rfl rfl⟩
  | some n =>
    cases n with
    | dir =>
      refine ⟨.pass, Draft.acts_pass hroot fun d hd => ?_⟩
      dsimp only
      rw [hd, hfound]
    | file name data =>
      have hs := FileTree.segments_ne_nil_of_lookup_file hroot hfound
      have hdir := FileTree.hasDir_parent hs (Option.isSome_iff_exists.2 ⟨_, hfound⟩)
      obtain ⟨t', hput⟩ := (FileTree.exists_put_iff hs).2 hdir
      have hroot' := (FileTree.isDir_root_put hs hput).trans hroot
      refine ⟨.update t', Draft.acts_update hroot' fun d hd => ?_⟩
      dsimp only
      rw [hd, hfound]
      dsimp only
      rw [hput]
      rfl

variable (catalog : List String)

/-- What an operand does is decided by the list alone, an error leaves the list as it is, and a
list that has become neither longer nor shorter is the same list. -/
structure PackageDraft.Loops (f : PackageDraft → String → PackageDraft) : Prop where
  act : ∀ (installed : List String) (w : String), ∃ (after : List String) (ls : List Line),
    (ls.any (·.kind == .error) = true → after = installed) ∧
      ∀ d : PackageDraft, d.installed = installed → f d w = ⟨after, d.lines ++ ls⟩
  length : ∀ (ws : List String) (installed : List String),
    (ws.foldl f ⟨installed, []⟩).installed.length = installed.length →
      (ws.foldl f ⟨installed, []⟩).installed = installed

theorem PackageDraft.patch_outcome {d : PackageDraft} {before : List String}
    (h : d.installed.length = before.length → d.installed = before) :
    (d.outcome before).patch = .relist before d.installed := by
  unfold outcome Patch.relist
  by_cases hsame : d.installed = before
  · rw [if_pos hsame, if_pos (congrArg List.length hsame)]
  · rw [if_neg hsame, if_neg (mt h hsame)]

def PackageDraft.on (s : State) (d : PackageDraft) : State := { s with installed := d.installed }

theorem PackageDraft.apply_outcome {s : State} {d : PackageDraft}
    (h : d.installed.length = s.installed.length → d.installed = s.installed) :
    (d.outcome s.installed).patch.apply s = d.on s := by
  rw [patch_outcome h, Patch.apply_relist, on]

theorem installed_grows (d : PackageDraft) (w : String) :
    d.installed <+: (installOne catalog d w).installed := by
  unfold installOne
  split
  · exact List.prefix_refl _
  · split
    · exact List.prefix_refl _
    · exact List.prefix_append _ _

theorem uninstalled_sublist (d : PackageDraft) (w : String) :
    (uninstallOne d w).installed.Sublist d.installed := by
  unfold uninstallOne
  split
  · exact List.Sublist.refl _
  · exact List.erase_sublist

theorem installOne_loops : PackageDraft.Loops (installOne catalog) where
  act installed w := by
    unfold installOne
    by_cases hunknown : w ∉ catalog
    · exact ⟨installed, [_], fun _ => rfl, fun d hd => by
        rw [if_pos hunknown, ← hd]⟩
    · by_cases hthere : w ∈ installed
      · exact ⟨installed, [_], fun _ => rfl, fun d hd => by
          rw [if_neg hunknown, hd, if_pos hthere]⟩
      · refine ⟨installed ++ [w], _, fun he => ?_, fun d hd => by
          rw [if_neg hunknown, hd, if_neg hthere]⟩
        cases he
  length ws installed h := by
    have hgrows : installed <+: (ws.foldl (installOne catalog) ⟨installed, []⟩).installed :=
      List.foldlRecOn (motive := fun d => installed <+: d.installed) ws _ (List.prefix_refl _)
        fun d hd w _ => hd.trans (installed_grows catalog d w)
    exact (hgrows.eq_of_length h.symm).symm

theorem uninstallOne_loops : PackageDraft.Loops uninstallOne where
  act installed w := by
    unfold uninstallOne
    by_cases hmissing : w ∉ installed
    · exact ⟨installed, [_], fun _ => rfl, fun d hd => by
        rw [hd, if_pos hmissing]⟩
    · refine ⟨installed.erase w, _, fun he => ?_, fun d hd => by
        rw [hd, if_neg hmissing]⟩
      cases he
  length ws installed h := by
    have hsublist : (ws.foldl uninstallOne ⟨installed, []⟩).installed.Sublist installed :=
      List.foldlRecOn (motive := fun d => d.installed.Sublist installed) ws _
        (List.Sublist.refl _) fun d hd w _ => (uninstalled_sublist d w).trans hd
    exact hsublist.eq_of_length h

end Shell

end PuzzleShell
