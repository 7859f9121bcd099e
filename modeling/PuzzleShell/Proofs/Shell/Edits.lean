import PuzzleShell.Proofs.Shell.Footprint
import PuzzleShell.Proofs.Tree.Change

/-!
# The edits of a command

`Command.written` lists the operands that a command writes to. Whatever a line does to the tree is
a series of edits at the places which these operands name: removals for `rm`, growths for every
other command. Nothing else in the tree changes, so two places that no operand covers can be told
apart neither by what they hold nor by whether they exist.
-/

namespace PuzzleShell

open FileTree (Growth Removal Edit Series)

/-- Whether a command can replace the tree; `echo` does so only with a redirection. -/
def Command.editsTree (args : List String) : Command → Bool
  | .echo => (Redirect.split args).2.isSome
  | .mkdir | .touch | .rm | .chmod | .tar => true
  | _ => false

/-- The operands that are written to: the target of a redirection, an archive, and the operands of
the commands that make, change or remove entries. -/
def Command.written (args : List String) : Command → List String
  | .echo => ((Redirect.split args).2.bind (·.target)).toList
  | .tar => (args.drop 1).take 1
  | .mkdir => args.filter (!Text.startsWith "-" ·)
  | .touch => args
  | .rm => (Flags.ofArgs args).operands
  | .chmod => args.drop 1
  | _ => []

namespace Draft

variable {E : String → FileTree → FileTree → Prop} {d d' : Draft}

/-- What one operand does to a draft: it leaves the tree alone, or it makes one edit. -/
inductive Step (E : FileTree → FileTree → Prop) (d d' : Draft) : Prop
  | pass (htree : d'.tree = d.tree) (hedited : d'.edited = d.edited)
  | edit (hedit : E d.tree d'.tree) (hedited : d'.edited = true)

/-- An edited draft has gone through a series of edits, any other still has its first tree. -/
structure Reached (E : String → FileTree → FileTree → Prop) (paths : List String)
    (t : FileTree) (d : Draft) : Prop where
  series : Series E paths t d.tree
  same : d.edited = false → d.tree = t

theorem Reached.step {paths : List String} {path : String} {t : FileTree}
    (h : d.Reached E paths t) (hpath : path ∈ paths) (hstep : d.Step (E path) d') :
    d'.Reached E paths t := by
  cases hstep with
  | pass htree hedited =>
    refine ⟨?_, fun he => ?_⟩
    · rw [htree]
      exact h.series
    · rw [htree]
      exact h.same (hedited.symm.trans he)
  | edit hedit hedited =>
    refine ⟨h.series.tail ⟨path, hpath, hedit⟩, fun he => ?_⟩
    rw [hedited] at he
    cases he

theorem Reached.foldlM {f : Draft → String → Except Fault Draft} {resolve : String → String}
    {paths targets : List String} {t : FileTree}
    (h : d.Reached E paths t) (hfold : targets.foldlM f d = .ok d')
    (hf : ∀ d target d', f d target = .ok d' → d.Step (E (resolve target)) d')
    (htargets : ∀ target ∈ targets, resolve target ∈ paths) : d'.Reached E paths t := by
  induction targets generalizing d with
  | nil =>
    cases hfold
    exact h
  | cons target targets ih =>
    rw [List.foldlM_cons] at hfold
    cases hd : f d target with
    | error e => rw [hd] at hfold; cases hfold
    | ok d₁ =>
      rw [hd] at hfold
      have h₁ := h.step (htargets target List.mem_cons_self) (hf d target d₁ hd)
      exact ih h₁ hfold fun target ht => htargets target (List.mem_cons_of_mem _ ht)

theorem Reached.start (paths : List String) (t : FileTree) :
    ({ tree := t } : Draft).Reached E paths t :=
  ⟨.refl, fun _ => rfl⟩

theorem getD_tree_of_same {t : FileTree} (h : d.edited = false → d.tree = t) :
    d.outcome.patch.tree.getD t = d.tree := by
  cases he : d.edited with
  | false => simp [outcome, he, h he]
  | true => simp [outcome, he]

theorem Reached.getD_tree {paths : List String} {t : FileTree} (h : d.Reached E paths t) :
    d.outcome.patch.tree.getD t = d.tree :=
  getD_tree_of_same h.same

theorem map_update_eq_ok {x : Except EditError FileTree}
    (h : (x.mapError Fault.edit).map d.update = .ok d') : ∃ t, x = .ok t ∧ d' = d.update t := by
  cases x with
  | error e => cases h
  | ok t => cases h; exact ⟨t, rfl, rfl⟩

end Draft

namespace Shell

variable {r : Request} {d d' : Draft} {target : String} {o : Outcome}

theorem mkdirOne_cases (h : mkdirOne r d target = .ok d') :
    (∃ text, d' = d.report (.error text)) ∨ ∃ t, d.tree.lookup (r.resolve target) = none ∧
      d.tree.put (r.resolve target) (.emptyDir (Path.name (r.resolve target))) = .ok t ∧
      d' = d.update t := by
  unfold mkdirOne at h
  dsimp only at h
  split at h
  · next m o cs hparent =>
    split at h
    · cases h
      exact .inl ⟨_, rfl⟩
    · next hfree =>
      obtain ⟨t, hput, rfl⟩ := Draft.map_update_eq_ok h
      obtain ⟨hname, hchild⟩ := not_or.1 hfree
      refine .inr ⟨t, ?_, hput, rfl⟩
      rw [FileTree.lookup_eq_child? fun hs => hname (Path.name_eq_empty_iff.2 hs), hparent]
      simpa using hchild
  · cases h
    exact .inl ⟨_, rfl⟩

theorem mkdirOne_step (h : mkdirOne r d target = .ok d') :
    d.Step (Growth (r.resolve target)) d' := by
  rcases mkdirOne_cases h with ⟨text, rfl⟩ | ⟨t, hnew, hput, rfl⟩
  · exact .pass rfl rfl
  · exact .edit (.makeDir hnew hput) rfl

theorem touchOne_cases : touchOne r d target = d ∨
    (∃ text, touchOne r d target = d.report (.error text)) ∨
    ∃ t, d.tree.lookup (r.resolve target) = none ∧ d.tree.write (r.resolve target) "" = .ok t ∧
      touchOne r d target = d.update t := by
  unfold touchOne
  dsimp only
  split
  · exact .inl rfl
  · next hmissing =>
    rw [Option.not_isSome_iff_eq_none] at hmissing
    split
    · next t hwrite => exact .inr (.inr ⟨t, hmissing, hwrite, rfl⟩)
    · exact .inr (.inl ⟨_, rfl⟩)

theorem touchOne_step : d.Step (Growth (r.resolve target)) (touchOne r d target) := by
  rcases touchOne_cases with hsame | ⟨text, hreport⟩ | ⟨t, -, hwrite, hupdate⟩
  · rw [hsame]
    exact .pass rfl rfl
  · rw [hreport]
    exact .pass rfl rfl
  · rw [hupdate]
    exact .edit (.write "" hwrite) rfl

theorem chmodOne_cases {executable : Bool} (h : chmodOne r executable d target = .ok d') :
    d' = d ∨ (∃ text, d' = d.report (.error text)) ∨
    ∃ name data t, d.tree.lookup (r.resolve target) = some (.file name data) ∧
      d.tree.put (r.resolve target) (.file name
        { data with executable, permissions := modePermissions executable }) = .ok t ∧
      d' = d.update t := by
  unfold chmodOne at h
  dsimp only at h
  split at h
  · cases h
    exact .inr (.inl ⟨_, rfl⟩)
  · cases h
    exact .inl rfl
  · next name data hfile =>
    obtain ⟨t, hput, rfl⟩ := Draft.map_update_eq_ok h
    exact .inr (.inr ⟨name, data, t, hfile, hput, rfl⟩)

theorem chmodOne_step {executable : Bool} (h : chmodOne r executable d target = .ok d') :
    d.Step (Growth (r.resolve target)) d' := by
  rcases chmodOne_cases h with rfl | ⟨text, rfl⟩ | ⟨name, data, t, hfile, hput, rfl⟩
  · exact .pass rfl rfl
  · exact .pass rfl rfl
  · exact .edit (.setMode name data executable hfile hput) rfl

theorem rmOne_step {flags : Flags} (h : rmOne r flags d target = .ok d') :
    d.Step (Removal (r.resolve target)) d' := by
  unfold rmOne at h
  dsimp only at h
  split at h
  · cases h
    exact .pass rfl rfl
  · split at h
    · cases h
      split <;> exact .pass rfl rfl
    · split at h
      · cases h
        exact .pass rfl rfl
      · split at h
        · cases h
          exact .pass rfl rfl
        · obtain ⟨t, hremove, rfl⟩ := Draft.map_update_eq_ok h
          exact .edit hremove rfl

theorem foldlM_ok {α D : Type} (f : D → α → D) (xs : List α) (d : D) :
    xs.foldlM (fun d x => (.ok (f d x) : Except Fault D)) d = .ok (xs.foldl f d) :=
  List.foldlM_pure

def treeAfter (r : Request) (o : Outcome) : FileTree := o.patch.tree.getD r.tree

theorem treeAfter_of_patch_tree {t : FileTree} (h : o.patch.tree = some t) :
    treeAfter r o = t := by
  rw [treeAfter, h]
  rfl

theorem treeAfter_of_notMem {c : Command} (h : run r c = .ok o) (hs : Slot.tree ∉ c.slots) :
    treeAfter r o = r.tree :=
  (run_within r h).same_apply hs r.state

variable {paths : List String}

theorem forOperands_series {E : String → FileTree → FileTree → Prop} {targets : List String}
    {f : Draft → String → Except Fault Draft}
    (h : (forOperands r targets f).map Draft.outcome = .ok o)
    (hf : ∀ d target d', f d target = .ok d' → d.Step (E (r.resolve target)) d')
    (hpaths : ∀ target ∈ targets, r.resolve target ∈ paths) :
    Series E paths r.tree (treeAfter r o) := by
  cases hd : forOperands r targets f with
  | error e => rw [hd] at h; cases h
  | ok d =>
    rw [hd] at h
    cases h
    have hreached := (Draft.Reached.start paths r.tree).foldlM hd hf hpaths
    rw [treeAfter, hreached.getD_tree]
    exact hreached.series

theorem mkdir_series (h : mkdir r = .ok o)
    (hpaths : ∀ target ∈ Command.mkdir.written r.args, r.resolve target ∈ paths) :
    Series Growth paths r.tree (treeAfter r o) := by
  unfold mkdir at h
  split at h
  · cases h
    exact .refl
  · exact forOperands_series h (fun _ _ _ => mkdirOne_step) hpaths

theorem touch_series (hpaths : ∀ target ∈ Command.touch.written r.args, r.resolve target ∈ paths) :
    Series Growth paths r.tree (treeAfter r (touch r)) := by
  unfold touch
  split
  · exact .refl
  · refine forOperands_series (congrArg (Except.map Draft.outcome) (foldlM_ok _ _ _)) ?_ hpaths
    intro d target d' hd
    cases hd
    exact touchOne_step

theorem chmod_series (h : chmod r = .ok o)
    (hpaths : ∀ target ∈ Command.chmod.written r.args, r.resolve target ∈ paths) :
    Series Growth paths r.tree (treeAfter r o) := by
  unfold chmod at h
  split at h
  · next mode target others hargs =>
    split at h
    · cases h
      exact .refl
    · refine forOperands_series h (fun _ _ _ => chmodOne_step) fun target ht => hpaths target ?_
      rw [Command.written, hargs]
      exact ht
  · cases h
    exact .refl

theorem echo_series (hpaths : ∀ target ∈ Command.echo.written r.args, r.resolve target ∈ paths) :
    Series Growth paths r.tree (treeAfter r (echo r)) := by
  unfold echo
  split
  · exact .refl
  · exact .refl
  · next words mode target hsplit =>
    have hmem : r.resolve target ∈ paths := by
      refine hpaths target ?_
      rw [Command.written, hsplit]
      exact List.mem_singleton_self target
    unfold writeLine
    split
    · exact .refl
    · split
      · next t hwrite => exact .single ⟨_, hmem, .write _ hwrite⟩
      · exact .refl
      · exact .refl

theorem tar_series (hpaths : ∀ target ∈ Command.tar.written r.args, r.resolve target ∈ paths) :
    Series Growth paths r.tree (treeAfter r (tar r)) := by
  unfold tar
  split
  · next options target source sources hargs =>
    have hmem : r.resolve target ∈ paths := by
      refine hpaths target ?_
      rw [Command.written, hargs]
      exact List.mem_singleton_self target
    dsimp only
    split
    · unfold archive
      split
      · split
        · next t hwrite => exact .single ⟨_, hmem, .write _ hwrite⟩
        · exact .refl
      · exact .refl
    · exact .refl
  · exact .refl

theorem rm_eq_ok (h : rm r = .ok o)
    (hpaths : ∀ target ∈ Command.rm.written r.args, r.resolve target ∈ paths) :
    o.patch = {} ∨ Series Removal paths r.tree (treeAfter r o) ∧
      o.patch.cwd.getD r.cwd = (treeAfter r o).surviving r.cwd := by
  unfold rm at h
  dsimp only at h
  split at h
  · cases h
    exact .inl rfl
  · cases hd : (Flags.ofArgs r.args).operands.foldlM (rmOne r (Flags.ofArgs r.args))
        { tree := r.tree } with
    | error e => rw [hd] at h; cases h
    | ok d =>
      rw [hd] at h
      have hreached := (Draft.Reached.start paths r.tree).foldlM hd
        (fun _ _ _ => rmOne_step) hpaths
      have htree := hreached.getD_tree
      cases h
      refine .inr ?_
      split
      · next hcwd =>
        rw [treeAfter, htree, hcwd]
        exact ⟨hreached.series, rfl⟩
      · rw [treeAfter, htree]
        exact ⟨hreached.series, rfl⟩

theorem rm_series (h : rm r = .ok o)
    (hpaths : ∀ target ∈ Command.rm.written r.args, r.resolve target ∈ paths) :
    Series Removal paths r.tree (treeAfter r o) := by
  rcases rm_eq_ok h hpaths with hempty | ⟨hseries, -⟩
  · rw [treeAfter, hempty]
    exact .refl
  · exact hseries

/-- Every command but `rm` only lets the tree grow. -/
theorem run_growth {c : Command} (h : run r c = .ok o) (hc : c ≠ .rm)
    (hpaths : ∀ target ∈ c.written r.args, r.resolve target ∈ paths) :
    Series Growth paths r.tree (treeAfter r o) := by
  cases c with
  | rm => exact absurd rfl hc
  | mkdir => exact mkdir_series h hpaths
  | chmod => exact chmod_series h hpaths
  | touch => cases h; exact touch_series hpaths
  | echo => cases h; exact echo_series hpaths
  | tar => cases h; exact tar_series hpaths
  | _ =>
    rw [treeAfter_of_notMem h (by decide)]
    exact .refl

theorem run_edits {c : Command} (h : run r c = .ok o)
    (hpaths : ∀ target ∈ c.written r.args, r.resolve target ∈ paths) :
    Series Edit paths r.tree (treeAfter r o) := by
  by_cases hc : c = .rm
  · subst hc
    exact (rm_series h hpaths).mono .inr
  · exact (run_growth h hc hpaths).mono .inl

theorem editsTree_of_patch_tree {c : Command} {t : FileTree} (h : run r c = .ok o)
    (ht : o.patch.tree = some t) : c.editsTree r.args = true := by
  have hmem : Slot.tree ∈ c.slots := run_within r h .tree (by rw [Patch.sets, ht]; rfl)
  cases c with
  | echo =>
    cases h
    rw [Command.editsTree]
    unfold echo at ht
    split at ht
    · cases ht
    · cases ht
    · next hsplit => rw [hsplit]; rfl
  | mkdir | touch | rm | chmod | tar => rfl
  | _ => exact absurd hmem (by decide)

end Shell

/-- A line replaces the tree only through one of the editing commands, and then the label of every
place stays as it was that no operand written to covers. -/
theorem execute_local {context : Context} {state : State} {line : String} {t : FileTree}
    (h : (execute context state line).patch.tree = some t) :
    ∃ i c, Input.ofLine? line = some i ∧ i.command? = some c ∧ c.editsTree i.args = true ∧
      ∀ place, (∀ target ∈ c.written i.args,
          ¬ Path.Covers (Path.resolve target state.cwd) place) →
        (t.lookup place).map Node.label = (state.tree.lookup place).map Node.label := by
  rcases execute_cases context state line with hempty | ⟨i, c, hi, hc, hrun⟩
  · rw [hempty] at h
    cases h
  · refine ⟨i, c, hi, hc, Shell.editsTree_of_patch_tree hrun h, fun place hcover => ?_⟩
    have hedits := Shell.run_edits hrun fun target => List.mem_map_of_mem
    rw [Shell.treeAfter_of_patch_tree h] at hedits
    refine hedits.labelAt fun path hpath => ?_
    obtain ⟨target, htarget, rfl⟩ := List.mem_map.1 hpath
    exact hcover target htarget

/-- Two new directories, and the old one above them is what it was. -/
theorem execute_local_mkdir : ∃ t, (execute {} {} "mkdir a ../b").patch.tree = some t ∧
    (t.lookup "/home/user").map Node.label =
      (FileTree.base.lookup "/home/user").map Node.label := by
  have hset : (execute {} {} "mkdir a ../b").patch.tree.isSome = true := by decide +kernel
  have hinput : Input.ofLine? "mkdir a ../b" =
      some ⟨"mkdir", ["a", "../b"], "mkdir a ../b"⟩ := by decide +kernel
  have hname : Command.ofName? "mkdir" = some .mkdir := by decide +kernel
  obtain ⟨t, ht⟩ := Option.isSome_iff_exists.1 hset
  obtain ⟨i, c, hi, hc, -, hlocal⟩ := execute_local ht
  obtain rfl := Option.some.inj (hi.symm.trans hinput)
  obtain rfl := Option.some.inj (hc.symm.trans hname)
  exact ⟨t, ht, hlocal "/home/user" (by decide +kernel)⟩

end PuzzleShell
