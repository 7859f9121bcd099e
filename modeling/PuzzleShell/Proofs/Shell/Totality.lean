import PuzzleShell.Proofs.Shell.Verdicts
import PuzzleShell.Proofs.Size.Range
import PuzzleShell.Proofs.Tree.Usage

/-!
# No command goes wrong unforeseen

Of the commands that edit, every operand goes through as long as the root is a directory, and a
loop over operands says nothing but what they say. Sizes can be shown while the whole tree is within
the range of doubles.
-/

namespace PuzzleShell

theorem exists_mapM {α β : Type} {f : α → Except Fault β} {P : β → Prop} {as : List α}
    (hf : ∀ a ∈ as, ∃ b, f a = .ok b ∧ P b) : ∃ bs, as.mapM f = .ok bs ∧ ∀ b ∈ bs, P b := by
  induction as with
  | nil => exact ⟨[], rfl, fun _ hb => by cases hb⟩
  | cons a as ih =>
    obtain ⟨b, hb, hPb⟩ := hf a List.mem_cons_self
    obtain ⟨bs, hbs, hPbs⟩ := ih fun a ha => hf a (List.mem_cons_of_mem _ ha)
    refine ⟨b :: bs, ?_, List.forall_mem_cons.2 ⟨hPb, hPbs⟩⟩
    rw [List.mapM_cons, hb, hbs]
    rfl

namespace Shell

variable {r : Request} (name : String)

section Edits

variable (hroot : r.tree.root.isDir = true)
include hroot

theorem exists_forOperands {f : Draft → String → Except Fault Draft} (hf : Draft.Loops f)
    (targets : List String) : ∃ d', targets.foldlM f { tree := r.tree } = .ok d' ∧
      d'.outcome.Foreseen name := by
  have hstart : ({ tree := r.tree } : Draft).Fits r.state := ⟨hroot, fun _ => rfl⟩
  obtain ⟨d, hd, -, hforeseen⟩ := hf.exists_foldlM targets hstart fun _ _ hl => by cases hl
  exact ⟨d, hd, hforeseen name⟩

theorem exists_mkdir : ∃ o, mkdir r = .ok o ∧ o.Foreseen name := by
  unfold mkdir
  split
  · exact ⟨_, rfl, Outcome.foreseen_fail rfl rfl⟩
  · obtain ⟨d, hd, hforeseen⟩ := exists_forOperands name hroot (mkdir_loops r)
      (r.args.filter (!Text.startsWith "-" ·))
    rw [forOperands, hd]
    exact ⟨_, rfl, hforeseen⟩

theorem exists_chmod : ∃ o, chmod r = .ok o ∧ o.Foreseen name := by
  unfold chmod
  split
  · next target others _ =>
    split
    · exact ⟨_, rfl, Outcome.foreseen_fail_append rfl rfl⟩
    · next executable _ =>
      obtain ⟨d, hd, hforeseen⟩ :=
        exists_forOperands name hroot (chmod_loops r executable) (target :: others)
      rw [forOperands, hd]
      exact ⟨_, rfl, hforeseen⟩
  · exact ⟨_, rfl, Outcome.foreseen_fail rfl rfl⟩

theorem exists_rm : ∃ o, rm r = .ok o ∧ o.Foreseen name := by
  unfold rm
  dsimp only
  split
  · exact ⟨_, rfl, Outcome.foreseen_fail rfl rfl⟩
  · obtain ⟨d, hd, hforeseen⟩ := exists_forOperands name hroot
      (rm_loops r (Flags.ofArgs r.args)) (Flags.ofArgs r.args).operands
    rw [hd]
    refine ⟨_, rfl, ?_⟩
    split <;> exact hforeseen

theorem foreseen_touch : (touch r).Foreseen name := by
  unfold touch
  split
  · exact Outcome.foreseen_fail rfl rfl
  · obtain ⟨d, hd, hforeseen⟩ := exists_forOperands name hroot (touch_loops r) r.args
    rw [foldlM_ok] at hd
    rwa [Except.ok.inj hd]

end Edits

theorem exists_usageLine (human : Bool) (path : String) {n : Node}
    (h : n.usage < Size.rangeBound) :
    ∃ l, usageLine human path n = .ok l ∧ l.Foreseen name := by
  obtain ⟨text, htext⟩ := exists_usageText human h
  rw [usageLine, htext]
  exact ⟨_, rfl, Line.foreseen_of_kind LineKind.noConfusion⟩

theorem exists_duTarget (flags : Flags) (target : String)
    (h : r.tree.root.usage < Size.rangeBound) :
    ∃ ls, duTarget r flags target = .ok ls ∧ Line.AllForeseen name ls := by
  unfold duTarget
  split
  · refine ⟨_, rfl, fun l hl => ?_⟩
    rw [List.mem_singleton.1 hl]
    exact Line.foreseen_append rfl rfl
  · next n hn =>
    have husage : n.usage < Size.rangeBound :=
      Nat.lt_of_le_of_lt (Node.usage_le_of_get? hn) h
    have hparts : ∀ c ∈ (if flags.has "s" then [] else n.children), ∃ l,
        usageLine (flags.has "h") (Path.join target c.name) c = .ok l ∧ l.Foreseen name := by
      intro c hc
      split at hc
      · cases hc
      · have hpart := Nat.lt_of_le_of_lt (Node.usage_le_of_mem_children hc) husage
        exact exists_usageLine name _ _ hpart
    obtain ⟨below, hbelow, hforeseen⟩ := exists_mapM hparts
    obtain ⟨total, htotal, hlast⟩ := exists_usageLine name (flags.has "h") target husage
    dsimp only
    rw [hbelow, htotal]
    exact ⟨_, rfl, Line.AllForeseen.snoc hforeseen hlast⟩

theorem exists_du (h : r.tree.root.usage < Size.rangeBound) :
    ∃ o, du r = .ok o ∧ o.Foreseen name := by
  obtain ⟨lines, hlines, hforeseen⟩ := exists_mapM (P := Line.AllForeseen name)
    fun target _ => exists_duTarget name (Flags.ofArgs r.args) target h
  unfold du
  dsimp only
  rw [hlines]
  refine ⟨_, rfl, fun l hl => ?_⟩
  obtain ⟨ls, hls, hl⟩ := List.mem_flatten.1 hl
  exact hforeseen ls hls l hl

variable {name}

theorem exists_run {c : Command} (hname : Command.ofName? name = some c)
    (hroot : r.tree.root.isDir = true) (husage : r.tree.root.usage < Size.rangeBound) :
    ∃ o, run r c = .ok o ∧ o.Foreseen name := by
  cases c with
  | mkdir => exact exists_mkdir name hroot
  | chmod => exact exists_chmod name hroot
  | rm => exact exists_rm name hroot
  | du => exact exists_du name husage
  | ls => exact ⟨_, rfl, foreseen_ls r name⟩
  | cd => exact ⟨_, rfl, foreseen_cd r name⟩
  | cat => exact ⟨_, rfl, foreseen_cat r name⟩
  | echo => exact ⟨_, rfl, foreseen_echo r name⟩
  | touch => exact ⟨_, rfl, foreseen_touch name hroot⟩
  | grep => exact ⟨_, rfl, foreseen_grep r name⟩
  | find => exact ⟨_, rfl, foreseen_find r name⟩
  | tar => exact ⟨_, rfl, foreseen_tar r name⟩
  | nano => exact ⟨_, rfl, foreseen_start r name⟩
  | help => exact ⟨_, rfl, foreseen_help r name⟩
  | ping => exact ⟨_, rfl, foreseen_ping r name⟩
  | man => exact ⟨_, rfl, foreseen_man r hname⟩
  | apt => exact ⟨_, rfl, foreseen_apt r hname⟩
  | clear => exact ⟨_, rfl, Outcome.foreseen_patch _⟩
  | pwd | whoami | date | uname | history | ps | free | df | top | ifconfig =>
    exact ⟨_, rfl, Outcome.foreseen_print _⟩

end Shell

/-- Whatever line is typed, the command that it names succeeds in answering, no line reports an
unforeseen error, and what a write reports is always one of the two errors its callers expect. -/
theorem execute_foreseen (context : Context) {state : State} (line : String)
    (hroot : state.tree.root.isDir = true)
    (husage : state.tree.root.usage < Size.rangeBound) :
    (∀ i c, Input.ofLine? line = some i → i.command? = some c →
      Shell.run (i.request state context) c = .ok (execute context state line)) ∧
    (∀ i, Input.ofLine? line = some i → (execute context state line).Foreseen i.name) ∧
    ∀ (t : FileTree) path content e, t.write path content = .error e →
      e = .isDirectory path ∨ e = .notFound path := by
  have hrun : ∀ i c, Input.ofLine? line = some i → i.command? = some c →
      Shell.run (i.request state context) c = .ok (execute context state line) ∧
        (execute context state line).Foreseen i.name := by
    intro i c hi hc
    obtain ⟨o, ho, hforeseen⟩ :=
      Shell.exists_run (r := i.request state context) hc hroot husage
    rw [execute_of_command hi hc ho]
    exact ⟨ho, hforeseen⟩
  refine ⟨fun i c hi hc => (hrun i c hi hc).1, fun i hi => ?_,
    fun _ _ _ _ => FileTree.write_eq_error⟩
  cases hc : i.command? with
  | some c => exact (hrun i c hi hc).2
  | none =>
    rw [execute_of_other hi hc]
    exact Shell.foreseen_runOther _ _

theorem execute_foreseen_chmod :
    Shell.run { name := "chmod", args := ["+x", "/", "b"], state := {}, context := {} } .chmod =
      .ok (execute {} {} "chmod +x / b") ∧ (execute {} {} "chmod +x / b").Foreseen "chmod" := by
  have hinput : Input.ofLine? "chmod +x / b" =
      some ⟨"chmod", ["+x", "/", "b"], "chmod +x / b"⟩ := by decide +kernel
  have hname : Command.ofName? "chmod" = some .chmod := by decide +kernel
  have hroot : ({} : State).tree.root.isDir = true := rfl
  have husage : ({} : State).tree.root.usage < Size.rangeBound := by decide +kernel
  obtain ⟨hrun, hforeseen, -⟩ := execute_foreseen {} "chmod +x / b" hroot husage
  exact ⟨hrun _ _ hinput hname, hforeseen _ hinput⟩

end PuzzleShell
