import PuzzleShell.Proofs.Path.Composition
import PuzzleShell.Proofs.Shell.Batch
import PuzzleShell.Proofs.Shell.Flags
import PuzzleShell.Proofs.Shell.Place
import PuzzleShell.Proofs.Shell.Verdicts

/-!
# Removing in one line or in several

A line with many operands climbs from the current directory once, on the tree that is left at the
end. The lines with one operand each climb again and again, on trees that only lose entries. The
nearest place that survives of a surviving place is the nearest one that survives of the first, so
both end in the same directory; and the same is removed as long as no operand is read from where
the player stands.
-/

namespace PuzzleShell

namespace Path

variable {expr : String}

theorem IsFixed.head_eq (h : IsFixed expr) :
    expr.toList.head? = some '/' ∨ expr.toList.head? = some '~' := by
  have hhead {c : Char} {cs : List Char} (hp : (c :: cs).isPrefixOf expr.toList = true) :
      expr.toList.head? = some c := by
    obtain ⟨rest, hrest⟩ := List.isPrefixOf_iff_prefix.1 hp
    rw [← hrest]
    rfl
  rcases h with hslash | rfl | hbelow
  · exact .inl (hhead hslash)
  · exact .inr (by decide)
  · exact .inr (hhead hbelow)

end Path

namespace Flags

theorem ofArg?_of_isFixed {w : String} (h : Path.IsFixed w) : ofArg? w = none := by
  refine ofArg?_of_startsWith ?_
  have hhead := h.head_eq
  rw [Text.startsWith]
  cases hw : w.toList with
  | nil => rfl
  | cons c cs =>
    rw [hw] at hhead
    rcases hhead with hc | hc <;> cases hc <;> rfl

theorem ofArgs_append_of_isFixed {flags ws : List String}
    (hflags : ∀ f ∈ flags, (ofArg? f).isSome = true) (hws : ∀ w ∈ ws, Path.IsFixed w) :
    ofArgs (flags ++ ws) = ⟨(flags.filterMap ofArg?).flatten, ws⟩ := by
  rw [ofArgs_append, ofArgs_of_flags hflags,
    ofArgs_of_operands fun w hw => ofArg?_of_isFixed (hws w hw), List.append_nil]
  rfl

end Flags

namespace FileTree

variable {t t' : FileTree} {path : String}

theorem Removal.isSome_lookup (h : Removal path t t') {place : String}
    (hplace : (t'.lookup place).isSome = true) : (t.lookup place).isSome = true := by
  rw [← isSome_labelAt, ← labelAt_remove_of_isSome h hplace, isSome_labelAt]
  exact hplace

end FileTree

namespace Draft

/-- The state that the draft stands for when the player has climbed to what survives. -/
def settle (s : State) (d : Draft) : State :=
  { s with tree := d.tree, cwd := d.tree.surviving s.cwd }

def climbed (cwd : String) (d : Draft) : Outcome where
  lines := d.lines
  patch := { d.outcome.patch with
    cwd := if d.tree.surviving cwd = cwd then none else some (d.tree.surviving cwd) }

theorem Fits.apply_climbed {s : State} {d : Draft} (h : d.Fits s) :
    (d.climbed s.cwd).patch.apply s = d.settle s := by
  have hcwd : (d.climbed s.cwd).patch.cwd.getD s.cwd = d.tree.surviving s.cwd := by
    unfold climbed
    dsimp only
    split
    · next hsame => exact hsame.symm
    · rfl
  rw [settle, ← hcwd, ← getD_tree_of_same h.same]
  rfl

theorem Step.isSome_lookup {d d' : Draft} {path place : String}
    (h : d.Step (FileTree.Removal path) d') (hplace : (d'.tree.lookup place).isSome = true) :
    (d.tree.lookup place).isSome = true := by
  cases h with
  | pass htree => rwa [htree] at hplace
  | edit hremove => exact hremove.isSome_lookup hplace

end Draft

namespace Shell

theorem foldlM_congr {α D : Type} {f g : D → α → Except Fault D} {xs : List α}
    (h : ∀ x ∈ xs, ∀ d, f d x = g d x) (d : D) : xs.foldlM f d = xs.foldlM g d := by
  induction xs generalizing d with
  | nil => rfl
  | cons x xs ih =>
    obtain ⟨hx, hxs⟩ := List.forall_mem_cons.1 h
    simp only [List.foldlM_cons, hx d, ih hxs]

theorem rmOne_congr {r r' : Request} {flags flags' : Flags} {w : String}
    (hflags : flags.has = flags'.has) (hw : r.resolve w = r'.resolve w) (d : Draft) :
    rmOne r flags d w = rmOne r' flags' d w := by
  unfold rmOne
  rw [hflags, hw]

theorem rm_eq_map {r : Request} {ws : List String} (hne : ws ≠ [])
    (hargs : (Flags.ofArgs r.args).operands = ws) : rm r =
      (ws.foldlM (rmOne r (Flags.ofArgs r.args)) { tree := r.tree }).map (Draft.climbed r.cwd) := by
  subst hargs
  unfold rm Draft.climbed
  dsimp only
  rw [if_neg (by simpa using hne)]
  cases (Flags.ofArgs r.args).operands.foldlM (rmOne r (Flags.ofArgs r.args))
      { tree := r.tree } with
  | error e => rfl
  | ok d =>
    refine congrArg Except.ok ?_
    dsimp only
    split <;> rfl

theorem rm_of_foldlM {r : Request} {d : Draft} (hne : (Flags.ofArgs r.args).operands ≠ [])
    (hd : (Flags.ofArgs r.args).operands.foldlM (rmOne r (Flags.ofArgs r.args))
      { tree := r.tree } = .ok d) : rm r = .ok (d.climbed r.cwd) := by
  rw [rm_eq_map hne rfl, hd]
  rfl

section Answers

variable (context : Context) (flags : List String)

def removalRequest (s : State) (ws : List String) : Request :=
  { name := "rm", args := flags ++ ws, state := s, context }

def removalAnswer (s : State) (ws : List String) : Outcome :=
  answer (removalRequest context flags s ws)

/-- What an operand does that names the same place from everywhere. -/
def removeOne : Draft → String → Except Fault Draft :=
  rmOne (removalRequest context flags {} []) (Flags.ofArgs flags)

variable {context flags}

theorem execute_eq_removalAnswer {s : State} {ws : List String} {line : String}
    (h : Text.words line = "rm" :: (flags ++ ws)) :
    execute context s line = removalAnswer context flags s ws :=
  execute_of_words h

theorem removalAnswer_of_run {s : State} {ws : List String} {o : Outcome}
    (h : rm (removalRequest context flags s ws) = .ok o) :
    removalAnswer context flags s ws = o :=
  answer_of_run (Command.ofName?_name .rm) h

variable (hflags : ∀ f ∈ flags, (Flags.ofArg? f).isSome = true)
include hflags

theorem removeOne_eq_rmOne {ws : List String} (hws : ∀ w ∈ ws, Path.IsFixed w) (s : State)
    {w : String} (hw : w ∈ ws) (d : Draft) : removeOne context flags d w =
      rmOne (removalRequest context flags s ws) (Flags.ofArgs (flags ++ ws)) d w := by
  have hnone : Flags.ofArgs (flags ++ []) = ⟨(flags.filterMap Flags.ofArg?).flatten, []⟩ :=
    Flags.ofArgs_append_of_isFixed hflags (by simp)
  rw [List.append_nil] at hnone
  refine rmOne_congr ?_ ((hws w hw).resolve_eq _ _) d
  rw [hnone, Flags.ofArgs_append_of_isFixed hflags hws]
  rfl

theorem removalAnswer_of_foldlM {s : State} {ws : List String} {d : Draft} (hne : ws ≠ [])
    (hws : ∀ w ∈ ws, Path.IsFixed w) (hfits : d.Fits s)
    (hd : ws.foldlM (removeOne context flags) { tree := s.tree } = .ok d) :
    (removalAnswer context flags s ws).lines = d.lines ∧
      (removalAnswer context flags s ws).patch.apply s = d.settle s := by
  let r := removalRequest context flags s ws
  have hoperands : (Flags.ofArgs r.args).operands = ws :=
    congrArg Flags.operands (Flags.ofArgs_append_of_isFixed hflags hws)
  have hfold : (Flags.ofArgs r.args).operands.foldlM (rmOne r (Flags.ofArgs r.args))
      { tree := r.tree } = .ok d := by
    rw [hoperands, ← hd]
    exact (foldlM_congr (fun w hw d => removeOne_eq_rmOne hflags hws s hw d) _).symm
  rw [removalAnswer_of_run (rm_of_foldlM (by rwa [hoperands]) hfold)]
  exact ⟨rfl, hfits.apply_climbed⟩

variable (context) in
/-- An operand does to every draft of the tree what it does in a line of its own, and the tree only
loses entries by it. -/
theorem exists_removal {s : State} (hroot : s.tree.root.isDir = true) {w : String}
    (hw : Path.IsFixed w) : ∃ a, Draft.Acts (removeOne context flags) s.tree w a ∧
      (removalAnswer context flags s [w]).lines = a.outcome.lines ∧
      (removalAnswer context flags s [w]).patch.apply s =
        (({ tree := s.tree } : Draft).perform a).settle s ∧
      ∀ place, ((a.treeAfter s.tree).lookup place).isSome = true →
        (s.tree.lookup place).isSome = true := by
  obtain ⟨a, ha⟩ := rm_loops (removalRequest context flags {} []) (Flags.ofArgs flags) s.tree w hroot
  have hstart : ({ tree := s.tree } : Draft).Fits s := ⟨hroot, fun _ => rfl⟩
  have hone := ha.perform { tree := s.tree } rfl
  have hfold : [w].foldlM (removeOne context flags) { tree := s.tree } =
      .ok (({ tree := s.tree } : Draft).perform a) := by
    rw [List.foldlM_cons, removeOne, hone]
    rfl
  have hfixed : ∀ v ∈ [w], Path.IsFixed v := fun v hv => (List.mem_singleton.1 hv) ▸ hw
  obtain ⟨hlines, hstate⟩ := removalAnswer_of_foldlM hflags (List.cons_ne_nil _ _) hfixed
    (hstart.perform ha.root) hfold
  refine ⟨a, ha, ?_, hstate, fun place hplace => ?_⟩
  · rw [hlines, Draft.lines_perform]
    rfl
  · have hstep := rmOne_step hone
    rw [← Draft.tree_perform { tree := s.tree } a] at hplace
    exact hstep.isSome_lookup hplace

theorem removals_inTurn {s : State} (hroot : s.tree.root.isDir = true) {ws : List String}
    (hne : ws ≠ []) (hws : ∀ w ∈ ws, Path.IsFixed w) :
    ((removalAnswer context flags s ws).lines, (removalAnswer context flags s ws).patch.apply s) =
      inTurn (fun s w => removalAnswer context flags s [w]) s ws := by
  obtain ⟨w, rest, rfl⟩ := List.exists_cons_of_ne_nil hne
  have hrest : ∀ v ∈ rest, Path.IsFixed v := fun v hv => hws v (List.mem_cons_of_mem w hv)
  -- From the first operand on the player stands where the climb from the old directory ends.
  have hpass : ∀ v ∈ rest, ∀ d : Draft, d.Fits s → ∃ d', removeOne context flags d v = .ok d' ∧
      d'.Fits s ∧ Adds (fun s w => removalAnswer context flags s [w]) Draft.lines
        (Draft.settle s) v d d' := by
    intro v hv d hd
    obtain ⟨a, ha, hlines, hstate, hloses⟩ :=
      exists_removal context hflags (s := d.settle s) hd.root (hrest v hv)
    refine ⟨d.perform a, ha.perform d rfl, hd.perform ha.root, ?_, ?_⟩
    · rw [hlines, Draft.lines_perform]
    · have hclimb : (a.treeAfter d.tree).surviving (d.tree.surviving s.cwd) =
          (a.treeAfter d.tree).surviving s.cwd := FileTree.surviving_surviving hloses s.cwd
      rw [hstate]
      simp only [Draft.settle, Draft.tree_perform, hclimb]
  obtain ⟨a, ha, hlines, hstate, -⟩ := exists_removal context hflags hroot (hws w List.mem_cons_self)
  have hstart : ({ tree := s.tree } : Draft).Fits s := ⟨hroot, fun _ => rfl⟩
  obtain ⟨d, hd, hfits, hall, hend⟩ := foldlM_inTurn hpass (hstart.perform ha.root)
  have hfold : (w :: rest).foldlM (removeOne context flags) { tree := s.tree } = .ok d := by
    rw [List.foldlM_cons, ha.perform _ rfl]
    exact hd
  obtain ⟨hsaid, hdone⟩ := removalAnswer_of_foldlM hflags hne hws hfits hfold
  rw [hsaid, hdone, hall, hend, inTurn, hlines, hstate, Draft.lines_perform]
  rfl

end Answers

end Shell

/-- A line that removes what is named by operands which do not depend on the current directory shows
the same lines, and leaves the same tree and the same current directory, as the lines with one
operand each, executed in turn. -/
theorem execute_removals (context : Context) {s : State} (hroot : s.tree.root.isDir = true)
    {flags operands lines : List String} {line : String}
    (hflags : ∀ f ∈ flags, (Flags.ofArg? f).isSome = true) (hne : operands ≠ [])
    (hoperands : ∀ w ∈ operands, Path.IsFixed w)
    (hline : Text.words line = "rm" :: (flags ++ operands))
    (hlines : lines.map Text.words = operands.map fun w => "rm" :: (flags ++ [w])) :
    ((execute context s line).lines, (execute context s line).patch.apply s) =
      inTurn (execute context) s lines := by
  have hanswer : ∀ s line w, Text.words line = ("rm" :: flags) ++ [w] →
      execute context s line = Shell.removalAnswer context flags s [w] :=
    fun _ _ _ => Shell.execute_eq_removalAnswer
  rw [Shell.execute_eq_removalAnswer hline, inTurn_execute_of_words hanswer s hlines]
  exact Shell.removals_inTurn hflags hroot hne hoperands

/-- The directory in which the player stands goes first, then it is missing, then what is above it
goes too. -/
theorem execute_removals_home :
    ((execute {} {} "rm -r ~ /home/user /home").lines,
      (execute {} {} "rm -r ~ /home/user /home").patch.apply {}) =
        inTurn (execute {}) {} ["rm -r ~", "rm -r /home/user", "rm -r /home"] ∧
    (inTurn (execute {}) {} ["rm -r ~", "rm -r /home/user", "rm -r /home"]).2.cwd = "/" := by
  have hroot : ({} : State).tree.root.isDir = true := rfl
  have hflags : ∀ f ∈ ["-r"], (Flags.ofArg? f).isSome = true := by decide
  have hoperands : ∀ w ∈ ["~", "/home/user", "/home"], Path.IsFixed w := by decide +kernel
  have hline : Text.words "rm -r ~ /home/user /home" =
      "rm" :: (["-r"] ++ ["~", "/home/user", "/home"]) := by decide +kernel
  have hlines : ["rm -r ~", "rm -r /home/user", "rm -r /home"].map Text.words =
      ["~", "/home/user", "/home"].map fun w => "rm" :: (["-r"] ++ [w]) := by decide +kernel
  refine ⟨execute_removals {} hroot hflags (List.cons_ne_nil _ _) hoperands hline hlines, ?_⟩
  decide +kernel

end PuzzleShell
