import PuzzleShell.Shell.Execute

/-!
# The footprint of a command

`Command.slots` lists the slots of the state that a command may set; most commands only print and
set none. A line whose name is no command sets none either, whether it runs a script, asks for a
version or is not understood.
-/

namespace PuzzleShell

def Command.slots : Command → List Slot
  | .cd => [.cwd]
  | .echo | .mkdir | .touch | .chmod | .tar => [.tree]
  | .rm => [.tree, .cwd]
  | .apt => [.installed]
  | .nano => [.editingFile, .editingContent]
  | .clear => [.outputHistory]
  | _ => []

def Slot.Same (s t : State) : Slot → Prop
  | .cwd => s.cwd = t.cwd
  | .tree => s.tree = t.tree
  | .commandHistory => s.commandHistory = t.commandHistory
  | .outputHistory => s.outputHistory = t.outputHistory
  | .installed => s.installed = t.installed
  | .environment => s.environment = t.environment
  | .editingFile => s.editingFile = t.editingFile
  | .editingContent => s.editingContent = t.editingContent

/-- The patch sets no slot besides these. -/
def Patch.Within (p : Patch) (slots : List Slot) : Prop :=
  ∀ slot, p.sets slot = true → slot ∈ slots

namespace Patch

theorem within_empty (slots : List Slot) : ({} : Patch).Within slots := by
  intro slot h
  cases slot <;> cases h

theorem apply_empty (s : State) : ({} : Patch).apply s = s := rfl

theorem within_tree (tree : Option FileTree) : ({ tree } : Patch).Within [.tree] := by
  intro slot h
  cases slot with
  | tree => exact List.mem_singleton_self _
  | _ => cases h

theorem within_installed (installed : Option (List String)) :
    ({ installed } : Patch).Within [.installed] := by
  intro slot h
  cases slot with
  | installed => exact List.mem_singleton_self _
  | _ => cases h

theorem Within.sets_eq_false {p : Patch} {slots : List Slot} (h : p.Within slots)
    {slot : Slot} (hs : slot ∉ slots) : p.sets slot = false := by
  cases hp : p.sets slot with
  | false => rfl
  | true => exact absurd (h slot hp) hs

theorem Within.same_apply {p : Patch} {slots : List Slot} (h : p.Within slots) {slot : Slot}
    (hs : slot ∉ slots) (s : State) : slot.Same (p.apply s) s := by
  have hsets := h.sets_eq_false hs
  cases slot <;>
    simp only [sets, Option.isSome_eq_false_iff, Option.isNone_iff_eq_none] at hsets <;>
    simp only [Slot.Same, apply, hsets, Option.getD_none]

end Patch

namespace Shell

variable (r : Request)

theorem patch_ls : (ls r).patch = {} := by
  unfold ls
  dsimp only
  split
  · rfl
  · rfl
  · split
    · rfl
    · split <;> rfl

theorem patch_cat : (cat r).patch = {} := by
  unfold cat
  split <;> rfl

theorem patch_grep : (grep r).patch = {} := by
  unfold grep
  split <;> rfl

theorem patch_find : (find r).patch = {} := by
  unfold find
  split
  · dsimp only
    split <;> rfl
  · rfl

theorem patch_du {o : Outcome} (h : du r = .ok o) : o.patch = {} := by
  unfold du at h
  dsimp only at h
  cases hlines : (if (Flags.ofArgs r.args).operands.isEmpty then ["."]
      else (Flags.ofArgs r.args).operands).mapM (duTarget r (Flags.ofArgs r.args)) with
  | error e => rw [hlines] at h; cases h
  | ok lines => rw [hlines] at h; cases h; rfl

theorem patch_man : (man r).patch = {} := by
  unfold man
  split
  · rfl
  · split <;> rfl

theorem patch_help : (help r).patch = {} := by
  unfold help
  split
  · rfl
  · dsimp only
    split <;> rfl

theorem patch_ping : (ping r).patch = {} := by
  unfold ping
  split <;> rfl

theorem patch_runScript : (runScript r).patch = {} := by
  unfold runScript
  dsimp only
  split
  · rfl
  · rfl
  · split <;> rfl

theorem patch_runOther : (runOther r).patch = {} := by
  unfold runOther
  split
  · exact patch_runScript r
  · split
    · next o ho =>
      unfold packageVersion? at ho
      split at ho
      · cases ho; rfl
      · cases ho
    · rfl

theorem within_cd : (cd r).patch.Within [.cwd] := by
  unfold cd
  dsimp only
  split
  · exact Patch.within_empty _
  · exact Patch.within_empty _
  · intro slot h
    cases slot with
    | cwd => exact List.mem_singleton_self _
    | _ => cases h

theorem within_echo : (echo r).patch.Within [.tree] := by
  unfold echo
  split
  · exact Patch.within_empty _
  · exact Patch.within_empty _
  · unfold writeLine
    split
    · exact Patch.within_empty _
    · split
      · exact Patch.within_tree _
      · exact Patch.within_empty _
      · exact Patch.within_empty _

theorem within_tar : (tar r).patch.Within [.tree] := by
  unfold tar
  split
  · dsimp only
    split
    · unfold archive
      split
      · split
        · exact Patch.within_tree _
        · exact Patch.within_empty _
      · exact Patch.within_empty _
    · exact Patch.within_empty _
  · exact Patch.within_empty _

theorem within_touch : (touch r).patch.Within [.tree] := by
  unfold touch
  split
  · exact Patch.within_empty _
  · exact Patch.within_tree _

theorem within_of_map_outcome {x : Except Fault Draft} {o : Outcome}
    (h : x.map Draft.outcome = .ok o) : o.patch.Within [.tree] := by
  cases x with
  | error e => cases h
  | ok d => cases h; exact Patch.within_tree _

theorem within_mkdir {o : Outcome} (h : mkdir r = .ok o) : o.patch.Within [.tree] := by
  unfold mkdir at h
  split at h
  · cases h; exact Patch.within_empty _
  · exact within_of_map_outcome h

theorem within_chmod {o : Outcome} (h : chmod r = .ok o) : o.patch.Within [.tree] := by
  unfold chmod at h
  split at h
  · split at h
    · cases h; exact Patch.within_empty _
    · exact within_of_map_outcome h
  · cases h; exact Patch.within_empty _

theorem within_rm {o : Outcome} (h : rm r = .ok o) : o.patch.Within [.tree, .cwd] := by
  unfold rm at h
  dsimp only at h
  split at h
  · cases h; exact Patch.within_empty _
  · cases hd : (Flags.ofArgs r.args).operands.foldlM (rmOne r (Flags.ofArgs r.args))
        { tree := r.tree } with
    | error e => rw [hd] at h; cases h
    | ok d =>
      rw [hd] at h
      cases h
      intro slot hs
      cases slot with
      | tree => simp
      | cwd => simp
      | _ => split at hs <;> cases hs

/-- What `apt` does not answer by itself it passes on to one of two loops over packages. -/
theorem apt_cases : (apt r).patch = {} ∨ ∃ args,
    apt r = forPackages r args (installOne r.context.catalog) ∨
      apt r = forPackages r args uninstallOne := by
  unfold apt
  split
  · exact .inl rfl
  · next subcommand args _ =>
    split
    · exact .inr ⟨args, .inl rfl⟩
    · split
      · exact .inr ⟨args, .inr rfl⟩
      · left
        split
        · unfold listPackages
          split
          · split <;> rfl
          · rfl
        · split
          · unfold searchPackages
            dsimp only
            split <;> rfl
          · split <;> rfl

theorem within_apt : (apt r).patch.Within [.installed] := by
  have hall (args : List String) (change : PackageDraft → String → PackageDraft) :
      (forPackages r args change).patch.Within [.installed] := by
    unfold forPackages
    split
    · exact Patch.within_empty _
    · exact Patch.within_installed _
  rcases apt_cases r with hempty | ⟨args, hinstall | hremove⟩
  · rw [hempty]
    exact Patch.within_empty _
  · rw [hinstall]
    exact hall _ _
  · rw [hremove]
    exact hall _ _

theorem within_start : (Editor.start r).patch.Within [.editingFile, .editingContent] := by
  unfold Editor.start
  dsimp only
  split
  · exact Patch.within_empty _
  · split
    · exact Patch.within_empty _
    · intro slot h
      cases slot with
      | editingFile => simp
      | editingContent => simp
      | _ => cases h

theorem within_clear : clear.patch.Within [.outputHistory] := by
  intro slot h
  cases slot with
  | outputHistory => exact List.mem_singleton_self _
  | _ => cases h

/-- A command sets no slot outside its footprint. -/
theorem run_within {c : Command} {o : Outcome} (h : run r c = .ok o) : o.patch.Within c.slots := by
  have quiet {p : Outcome} (hp : p.patch = {}) (ho : Except.ok (ε := Fault) p = .ok o) :
      o.patch.Within [] := by
    cases ho
    rw [hp]
    exact Patch.within_empty _
  cases c with
  | ls => exact quiet (patch_ls r) h
  | cat => exact quiet (patch_cat r) h
  | grep => exact quiet (patch_grep r) h
  | find => exact quiet (patch_find r) h
  | man => exact quiet (patch_man r) h
  | help => exact quiet (patch_help r) h
  | ping => exact quiet (patch_ping r) h
  | du => exact quiet (patch_du r h) rfl
  | cd => cases h; exact within_cd r
  | echo => cases h; exact within_echo r
  | touch => cases h; exact within_touch r
  | tar => cases h; exact within_tar r
  | apt => cases h; exact within_apt r
  | nano => cases h; exact within_start r
  | clear => cases h; exact within_clear
  | mkdir => exact within_mkdir r h
  | chmod => exact within_chmod r h
  | rm => exact within_rm r h
  | pwd | whoami | date | uname | history | ps | free | df | top | ifconfig =>
    exact quiet rfl h

end Shell

def Input.request (i : Input) (state : State) (context : Context) : Request :=
  { name := i.name, args := i.args, state, context }

theorem Input.ofLine?_eq_some {line : String} {i : Input} (h : ofLine? line = some i) :
    Text.words line = i.name :: i.args ∧ i.raw = Text.strip line := by
  unfold ofLine? at h
  split at h
  · cases h
  · next name args hwords =>
    cases h
    exact ⟨hwords, rfl⟩

/-- A line does nothing to the state unless it names a command that succeeds in answering. -/
theorem execute_cases (context : Context) (state : State) (line : String) :
    (execute context state line).patch = {} ∨ ∃ i c, Input.ofLine? line = some i ∧
      i.command? = some c ∧ Shell.run (i.request state context) c =
        .ok (execute context state line) := by
  unfold execute
  cases hi : Input.ofLine? line with
  | none => exact .inl rfl
  | some i =>
    dsimp only
    unfold Shell.answer
    dsimp only
    cases hc : Command.ofName? i.name with
    | none => exact .inl (Shell.patch_runOther _)
    | some c =>
      dsimp only
      cases ho : Shell.run (i.request state context) c with
      | error e =>
        refine .inl ?_
        change Shell.run { name := i.name, args := i.args, state, context } c = _ at ho
        rw [ho]
        rfl
      | ok o =>
        refine .inr ⟨i, c, rfl, hc, ?_⟩
        change Shell.run { name := i.name, args := i.args, state, context } c = _ at ho
        rw [ho]
        exact ho

def commandOf? (line : String) : Option Command := (Text.words line).head?.bind Command.ofName?

section Answer

variable {context : Context} {state : State} {line : String} {i : Input}

theorem Shell.answer_of_run {r : Request} {c : Command} {o : Outcome}
    (hc : Command.ofName? r.name = some c) (ho : Shell.run r c = .ok o) : Shell.answer r = o := by
  unfold Shell.answer
  rw [hc]
  dsimp only
  rw [ho]

theorem execute_of_input (hi : Input.ofLine? line = some i) :
    execute context state line = Shell.answer (i.request state context) := by
  unfold execute
  rw [hi]
  rfl

theorem execute_of_command {c : Command} {o : Outcome} (hi : Input.ofLine? line = some i)
    (hc : i.command? = some c) (ho : Shell.run (i.request state context) c = .ok o) :
    execute context state line = o :=
  (execute_of_input hi).trans (Shell.answer_of_run hc ho)

theorem execute_of_other (hi : Input.ofLine? line = some i) (hc : i.command? = none) :
    execute context state line = Shell.runOther (i.request state context) := by
  change Command.ofName? (i.request state context).name = none at hc
  rw [execute_of_input hi, Shell.answer, hc]

theorem commandOf?_of_input (h : Input.ofLine? line = some i) : commandOf? line = i.command? := by
  rw [commandOf?, (Input.ofLine?_eq_some h).1]
  rfl

section Words

variable {name : String} {args : List String}

theorem execute_of_words (h : Text.words line = name :: args) :
    execute context state line = Shell.answer { name, args, state, context } := by
  have hi : Input.ofLine? line = some ⟨name, args, Text.strip line⟩ := by rw [Input.ofLine?, h]
  exact execute_of_input hi

theorem execute_of_run {c : Command} {o : Outcome} (hline : Text.words line = name :: args)
    (hc : Command.ofName? name = some c) (ho : Shell.run { name, args, state, context } c = .ok o) :
    execute context state line = o :=
  (execute_of_words hline).trans (Shell.answer_of_run hc ho)

end Words

end Answer

end PuzzleShell
