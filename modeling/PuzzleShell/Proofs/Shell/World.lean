import PuzzleShell.Proofs.Shell.Footprint

/-!
# Commands and the world

The world of a state is all of it but the two histories. The commands in `Command.readOnly` leave it
as it is: they print, and `clear` empties the output history. All the others answer from the world
alone, so what has been typed and shown before makes no difference to them, nor does the clock.
-/

namespace PuzzleShell

/-- The state with both histories left out. -/
def State.world (s : State) : State := { s with commandHistory := [], outputHistory := [] }

theorem world_apply (p : Patch) (s : State) : (p.apply s.world).world = (p.apply s).world := rfl

theorem save_world (s : State) (content : Option String) :
    Editor.save s.world content = Editor.save s content := rfl

def Command.readOnly : List Command :=
  [.ls, .cat, .grep, .find, .du, .pwd, .whoami, .date, .uname, .man, .history, .help, .clear, .ps,
    .free, .df, .top, .ifconfig, .ping]

theorem Patch.Within.world_apply {p : Patch} (h : p.Within [.outputHistory]) (s : State) :
    (p.apply s).world = s.world := by
  have hcwd : Slot.cwd.Same (p.apply s) s := h.same_apply (by decide) s
  have htree : Slot.tree.Same (p.apply s) s := h.same_apply (by decide) s
  have hinstalled : Slot.installed.Same (p.apply s) s := h.same_apply (by decide) s
  have henvironment : Slot.environment.Same (p.apply s) s := h.same_apply (by decide) s
  have hfile : Slot.editingFile.Same (p.apply s) s := h.same_apply (by decide) s
  have hcontent : Slot.editingContent.Same (p.apply s) s := h.same_apply (by decide) s
  simp only [Slot.Same] at hcwd htree hinstalled henvironment hfile hcontent
  simp only [State.world, hcwd, htree, hinstalled, henvironment, hfile, hcontent]

theorem Command.slots_of_mem_readOnly {c : Command} (h : c ∈ readOnly) :
    c.slots ⊆ [.outputHistory] := by
  revert h
  cases c <;> decide

def Context.timeless (c : Context) : Context := { c with now := default }

/-- The request with neither histories nor a clock. -/
def Request.atWorld (r : Request) : Request :=
  { r with state := r.state.world, context := r.context.timeless }

namespace Request

variable (r : Request)

theorem name_atWorld : r.atWorld.name = r.name := rfl

theorem args_atWorld : r.atWorld.args = r.args := rfl

theorem catalog_atWorld : r.atWorld.context.catalog = r.context.catalog := rfl

theorem installed_atWorld : r.atWorld.state.installed = r.state.installed := rfl

theorem cwd_atWorld : r.atWorld.cwd = r.cwd := rfl

theorem tree_atWorld : r.atWorld.tree = r.tree := rfl

theorem resolve_atWorld : r.atWorld.resolve = r.resolve := rfl

theorem lookup_atWorld : r.atWorld.lookup = r.lookup := rfl

theorem read_atWorld : r.atWorld.read = r.read := rfl

end Request

namespace Shell

open Request

variable (r : Request)

theorem cd_atWorld : cd r.atWorld = cd r := by
  unfold cd
  rw [args_atWorld, resolve_atWorld, lookup_atWorld]

theorem echo_atWorld : echo r.atWorld = echo r := by
  unfold echo writeLine priorContent
  rw [args_atWorld, lookup_atWorld, tree_atWorld, resolve_atWorld, read_atWorld]

theorem forOperands_atWorld : forOperands r.atWorld = forOperands r := by
  unfold forOperands
  rw [tree_atWorld]

theorem mkdir_atWorld : mkdir r.atWorld = mkdir r := by
  unfold mkdir mkdirOne
  rw [args_atWorld, forOperands_atWorld, resolve_atWorld]

theorem touch_atWorld : touch r.atWorld = touch r := by
  unfold touch touchOne
  rw [args_atWorld, tree_atWorld, resolve_atWorld]

theorem rm_atWorld : rm r.atWorld = rm r := by
  unfold rm rmOne
  rw [args_atWorld, tree_atWorld, cwd_atWorld, resolve_atWorld]

theorem chmod_atWorld : chmod r.atWorld = chmod r := by
  unfold chmod chmodOne
  rw [args_atWorld, forOperands_atWorld, resolve_atWorld]

theorem tar_atWorld : tar r.atWorld = tar r := by
  unfold tar archive
  rw [args_atWorld, lookup_atWorld, tree_atWorld, resolve_atWorld]

theorem apt_atWorld : apt r.atWorld = apt r := by
  unfold apt forPackages listPackages searchPackages
  rw [args_atWorld, catalog_atWorld, installed_atWorld]

theorem start_atWorld : Editor.start r.atWorld = Editor.start r := by
  unfold Editor.start
  rw [args_atWorld, name_atWorld, read_atWorld, resolve_atWorld]

theorem run_atWorld {c : Command} (h : c ∉ Command.readOnly) : run r.atWorld c = run r c := by
  cases c with
  | cd => rw [run, run, cd_atWorld]
  | echo => rw [run, run, echo_atWorld]
  | mkdir => exact mkdir_atWorld r
  | touch => rw [run, run, touch_atWorld]
  | rm => exact rm_atWorld r
  | chmod => exact chmod_atWorld r
  | tar => rw [run, run, tar_atWorld]
  | apt => rw [run, run, apt_atWorld]
  | nano => rw [run, run, start_atWorld]
  | _ => exact absurd (by decide) h

theorem answer_atWorld {c : Command} (hc : Command.ofName? r.name = some c)
    (h : c ∉ Command.readOnly) : answer r.atWorld = answer r := by
  unfold answer
  rw [name_atWorld, hc]
  dsimp only
  rw [run_atWorld r h]

end Shell

/-- A line whose command is not read-only is answered from the world, at any time. -/
theorem execute_world {line : String} {i : Input} {c : Command} (hi : Input.ofLine? line = some i)
    (hc : i.command? = some c) (hreads : c ∉ Command.readOnly) (context : Context) (s : State) :
    execute context.timeless s.world line = execute context s line := by
  unfold execute
  rw [hi]
  exact Shell.answer_atWorld { name := i.name, args := i.args, state := s, context } hc hreads

theorem world_execute {line : String} (context : Context) (s : State)
    (h : ∀ i c, Input.ofLine? line = some i → i.command? = some c → c ∈ Command.readOnly) :
    ((execute context s line).patch.apply s).world = s.world := by
  rcases execute_cases context s line with hempty | ⟨i, c, hi, hc, hrun⟩
  · rw [hempty, Patch.apply_empty]
  · have hwithin := Shell.run_within _ hrun
    have hslots := Command.slots_of_mem_readOnly (h i c hi hc)
    exact Patch.Within.world_apply (fun slot hs => hslots (hwithin slot hs)) s

end PuzzleShell
