import PuzzleShell.Proofs.Shell.Batch
import PuzzleShell.Proofs.Tree.Usage

/-!
# The space that a line takes

A line that makes directories takes the space of one directory for each operand that it does not
report. A line that makes empty files or sets modes takes no space. With what the edits of a tree do
to its space, and with the space as the sum over a walk, this keeps account of all that a tree
holds.
-/

namespace PuzzleShell

def Outcome.errors (o : Outcome) : Nat := o.lines.countP (·.kind == .error)

namespace Draft

/-- From `d` to `d'` the tree takes the space `each` for each of `n` operands, except for those that
are reported. -/
def Spends (each n : Nat) (d d' : Draft) : Prop :=
  d'.tree.root.usage + each * d'.outcome.errors =
    d.tree.root.usage + each * (d.outcome.errors + n)

variable {each m n : Nat} {d d' d'' : Draft} {f : Draft → String → Except Fault Draft}

theorem Spends.trans (h : d.Spends each m d') (h' : d'.Spends each n d'') :
    d.Spends each (m + n) d'' := by
  simp only [Spends, Nat.mul_add] at *
  omega

theorem spends_report (each : Nat) (d : Draft) (text : String) :
    d.Spends each 1 (d.report (.error text)) := by
  have herrors : (d.report (.error text)).outcome.errors = d.outcome.errors + 1 := by
    simp [Outcome.errors, outcome, report, Line.error]
  rw [Spends, herrors]
  rfl

theorem spends_update {t : FileTree} (h : t.root.usage = d.tree.root.usage + each) :
    d.Spends each 1 (d.update t) := by
  change t.root.usage + each * d.outcome.errors = _
  rw [h, Nat.mul_add]
  omega

theorem Spends.foldlM (hf : ∀ d w d', f d w = .ok d' → d.Spends each 1 d') {ws : List String}
    (h : ws.foldlM f d = .ok d') : d.Spends each ws.length d' := by
  induction ws generalizing d with
  | nil =>
    cases h
    rfl
  | cons w ws ih =>
    rw [List.foldlM_cons] at h
    cases hd : f d w with
    | error e => rw [hd] at h; cases h
    | ok d₁ =>
      rw [hd] at h
      rw [List.length_cons, Nat.add_comm]
      exact (hf d w d₁ hd).trans (ih h)

theorem Loops.exists_spends (hloops : Loops f)
    (hf : ∀ d w d', f d w = .ok d' → d.Spends each 1 d') {s : State}
    (hroot : s.tree.root.isDir = true) (ws : List String) :
    ∃ d : Draft, ws.foldlM f { tree := s.tree } = .ok d ∧
      (d.outcome.patch.apply s).tree.root.usage + each * d.outcome.errors =
        s.tree.root.usage + each * ws.length := by
  have hfirst : ({ tree := s.tree } : Draft).Fits s := ⟨hroot, fun _ => rfl⟩
  obtain ⟨d, hd, hfits, -⟩ := hloops.exists_foldlM ws hfirst fun _ _ hl => by cases hl
  refine ⟨d, hd, ?_⟩
  have hspends := Spends.foldlM hf hd
  have hstart : ({ tree := s.tree } : Draft).outcome.errors = 0 := rfl
  rw [Spends, hstart, Nat.zero_add] at hspends
  rw [hfits.apply_outcome]
  exact hspends

end Draft

namespace Shell

variable {r : Request} {d d' : Draft} {target : String}

theorem mkdirOne_spends (h : mkdirOne r d target = .ok d') : d.Spends Node.dirSize 1 d' := by
  rcases mkdirOne_cases h with ⟨text, rfl⟩ | ⟨t, hnew, hput, rfl⟩
  · exact Draft.spends_report _ d text
  · have hs := FileTree.segments_ne_nil_of_missing (Option.not_isSome_iff_eq_none.2 hnew)
    have hchange := FileTree.usage_put hs hput
    rw [hnew, FileTree.emptyDir, Node.usage_dir] at hchange
    exact Draft.spends_update hchange

theorem touchOne_spends : d.Spends 0 1 (touchOne r d target) := by
  rcases touchOne_cases with hsame | ⟨text, hreport⟩ | ⟨t, hnew, hwrite, hupdate⟩
  · rw [hsame]
    rfl
  · rw [hreport]
    exact Draft.spends_report 0 d text
  · have hchange := FileTree.usage_write hwrite
    rw [FileTree.fileAt, hnew] at hchange
    rw [hupdate]
    exact Draft.spends_update hchange

theorem chmodOne_spends {executable : Bool} (h : chmodOne r executable d target = .ok d') :
    d.Spends 0 1 d' := by
  rcases chmodOne_cases h with rfl | ⟨text, rfl⟩ | ⟨name, data, t, hfile, hput, rfl⟩
  · rfl
  · exact Draft.spends_report 0 d text
  · have hs : Path.segments (r.resolve target) ≠ [] := by
      intro hs
      rw [FileTree.put, hs] at hput
      cases hput
    have hchange := FileTree.usage_put hs hput
    rw [hfile, Node.usageOf_some, FileTree.file, Node.usage_file, Node.usage_file] at hchange
    exact Draft.spends_update (Nat.add_right_cancel hchange)

end Shell

section Lines

variable (context : Context) {s : State} (hroot : s.tree.root.isDir = true)
include hroot

theorem usage_mkdir {line : String} {args : List String}
    (hline : Text.words line = "mkdir" :: args) (hne : Command.mkdir.written args ≠ []) :
    ((execute context s line).patch.apply s).tree.root.usage +
        Node.dirSize * (execute context s line).errors =
      s.tree.root.usage + Node.dirSize * (Command.mkdir.written args).length := by
  obtain ⟨d, hd, hlaw⟩ := (Shell.mkdir_loops ⟨"mkdir", args, s, context⟩).exists_spends
    (fun _ _ _ => Shell.mkdirOne_spends) hroot (Command.mkdir.written args)
  have hrun := execute_of_run hline (Command.ofName?_name .mkdir) (Shell.mkdir_eq_ok hne rfl hd)
  rwa [hrun]

theorem usage_touch {line : String} {args : List String}
    (hline : Text.words line = "touch" :: args) :
    ((execute context s line).patch.apply s).tree.root.usage = s.tree.root.usage := by
  rw [execute_of_run hline (Command.ofName?_name .touch) rfl]
  by_cases hne : args = []
  · subst hne
    rfl
  · obtain ⟨d, hd, hlaw⟩ := (Shell.touch_loops ⟨"touch", args, s, context⟩).exists_spends
      (fun _ _ _ h => Except.ok.inj h ▸ Shell.touchOne_spends) hroot args
    rw [Shell.foldlM_ok] at hd
    obtain rfl := Except.ok.inj hd
    rw [Shell.touch_eq_outcome hne rfl]
    rwa [Nat.zero_mul, Nat.zero_mul] at hlaw

theorem usage_chmod {line : String} {args : List String}
    (hline : Text.words line = "chmod" :: args) :
    ((execute context s line).patch.apply s).tree.root.usage = s.tree.root.usage := by
  have hfail {text : String} (h : Shell.chmod ⟨"chmod", args, s, context⟩ = .ok (.fail text)) :
      ((execute context s line).patch.apply s).tree.root.usage = s.tree.root.usage := by
    rw [execute_of_run hline (Command.ofName?_name .chmod) h]
    rfl
  match args with
  | [] => exact hfail rfl
  | [mode] => exact hfail rfl
  | mode :: target :: others =>
    have hmap := Shell.chmod_eq_map (r := ⟨"chmod", mode :: target :: others, s, context⟩)
      (List.cons_ne_nil target others) rfl
    cases hmode : Shell.executableMode? mode with
    | none =>
      rw [hmode] at hmap
      exact hfail hmap
    | some executable =>
      obtain ⟨d, hd, hlaw⟩ := (Shell.chmod_loops ⟨"chmod", mode :: target :: others, s, context⟩
        executable).exists_spends (fun _ _ _ => Shell.chmodOne_spends) hroot (target :: others)
      have hrun := execute_of_run hline (Command.ofName?_name .chmod)
        (Shell.chmod_eq_ok (List.cons_ne_nil target others) rfl hmode hd)
      rw [hrun]
      rwa [Nat.zero_mul, Nat.zero_mul] at hlaw

end Lines

/-- The space of all nodes, and what each kind of edit does to that of the whole tree. -/
structure State.Accounts (context : Context) (s : State) : Prop where
  walk : ∀ (n : Node) (path : String), n.usage = ((n.walk path).map (·.2.size)).sum
  write : ∀ {path content : String} {t : FileTree}, s.tree.write path content = .ok t →
    t.root.usage + (s.tree.fileAt path).content.length = s.tree.root.usage + content.length
  remove : ∀ {path : String} {n : Node}, s.tree.lookup path = some n → Path.segments path ≠ [] →
    ∃ t, s.tree.remove path = .ok t ∧ t.root.usage + n.usage = s.tree.root.usage
  mkdir : ∀ {line : String} {args : List String}, Text.words line = "mkdir" :: args →
    Command.mkdir.written args ≠ [] →
    ((execute context s line).patch.apply s).tree.root.usage +
        Node.dirSize * (execute context s line).errors =
      s.tree.root.usage + Node.dirSize * (Command.mkdir.written args).length
  touch : ∀ {line : String} {args : List String}, Text.words line = "touch" :: args →
    ((execute context s line).patch.apply s).tree.root.usage = s.tree.root.usage
  chmod : ∀ {line : String} {args : List String}, Text.words line = "chmod" :: args →
    ((execute context s line).patch.apply s).tree.root.usage = s.tree.root.usage

theorem accounts (context : Context) {s : State} (hroot : s.tree.root.isDir = true) :
    s.Accounts context where
  walk n path := (n.sum_size_walk path).symm
  write h := FileTree.usage_write h
  remove {path n} hn hs := by
    have hparent := FileTree.hasDir_parent hs (Option.isSome_iff_exists.2 ⟨n, hn⟩)
    obtain ⟨t, ht⟩ := (FileTree.exists_remove_iff hs).2 hparent
    refine ⟨t, ht, ?_⟩
    have hchange := FileTree.usage_remove ht
    rwa [hn, Node.usageOf_some] at hchange
  mkdir hline hne := usage_mkdir context hroot hline hne
  touch hline := usage_touch context hroot hline
  chmod hline := usage_chmod context hroot hline

/-- Of three operands the second is reported, for the first has made it. -/
theorem accounts_mkdir :
    ((execute {} {} "mkdir a ./a /tmp/b").patch.apply {}).tree.root.usage =
      FileTree.base.root.usage + 2 * Node.dirSize := by
  have hline : Text.words "mkdir a ./a /tmp/b" = ["mkdir", "a", "./a", "/tmp/b"] := by
    decide +kernel
  have herrors : (execute {} {} "mkdir a ./a /tmp/b").errors = 1 := by decide +kernel
  have hlaw := (accounts {} (s := {}) rfl).mkdir hline (by decide +kernel)
  rw [herrors] at hlaw
  change _ = FileTree.base.root.usage + Node.dirSize * 3 at hlaw
  omega

end PuzzleShell
