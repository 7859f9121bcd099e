import PuzzleShell.Proofs.Shell.Removals

/-!
# What a removal leaves behind

The operands of `rm` are judged from left to right, each on the tree that the ones before have left.
In the end exactly what is at and below the accepted places is gone, the refused operands have given
one error each, and the player stands in the nearest directory that is left on the way up from where
the line was typed.
-/

namespace PuzzleShell

/-- `new` is the longest path of what exists in the tree on the way from the root to `old`. -/
structure FileTree.Nearest (t : FileTree) (old new : String) : Prop where
  canonical : Path.Canonical new
  above : Path.Covers new old
  isDir : t.hasDir new = true
  longest : ∀ other, Path.Covers other old → (t.lookup other).isSome = true →
    Path.Covers other new

namespace Removing

/-- `Clears flags cwd t ws places ls t'` says that the operands `ws`, judged in turn, remove the
`places` from `t`, give the lines `ls`, and leave `t'`. -/
inductive Clears (flags : Flags) (cwd : String) :
    FileTree → List String → List String → List Line → FileTree → Prop where
  | done (t : FileTree) : Clears flags cwd t [] [] [] t
  | accept {t t' u : FileTree} {w : String} {ws places : List String} {ls : List Line}
    (h : Accepts flags cwd t w) (htree : t.Without (Path.resolve w cwd) t')
    (rest : Clears flags cwd t' ws places ls u) :
    Clears flags cwd t (w :: ws) (Path.resolve w cwd :: places) ls u
  | ignore {t u : FileTree} {w : String} {ws places : List String} {ls : List Line}
    (hnot : ¬ Accepts flags cwd t w) (h : Ignores flags cwd t w)
    (rest : Clears flags cwd t ws places ls u) : Clears flags cwd t (w :: ws) places ls u
  | refuse {t u : FileTree} {w text : String} {ws places : List String} {ls : List Line}
    (hnot : ¬ Accepts flags cwd t w) (h : Refuses flags cwd t w text)
    (rest : Clears flags cwd t ws places ls u) :
    Clears flags cwd t (w :: ws) places (.error text :: ls) u

variable {flags : Flags} {cwd : String} {t t' : FileTree} {ws places : List String} {ls : List Line}

theorem Clears.labelAt (h : Clears flags cwd t ws places ls t') (place : List String) :
    t'.root.labelAt place =
      if ∃ path ∈ places, Path.segments path <+: place then none else t.root.labelAt place := by
  induction h with
  | done => rw [if_neg (by simp)]
  | @accept t t₁ t' w ws places ls _ htree _ ih =>
    rw [ih, htree place]
    simp only [List.mem_cons, exists_eq_or_imp, ite_or]
    split <;> split <;> rfl
  | ignore _ _ _ ih => exact ih
  | refuse _ _ _ ih => exact ih

end Removing

namespace Draft

theorem Fits.patch_climbed {s : State} {d : Draft} (h : d.Fits s)
    (hcwd : s.tree.hasDir s.cwd = true) : (d.climbed s.cwd).patch = {} ↔ d.edited = false := by
  constructor
  · intro hpatch
    have htree : (if d.edited then some d.tree else none) = none := congrArg Patch.tree hpatch
    simpa using htree
  · intro hsame
    obtain ⟨n, hn, -⟩ := FileTree.hasDir_eq_true_iff.1 hcwd
    have hstay : d.tree.surviving s.cwd = s.cwd := by
      rw [h.same hsame]
      exact FileTree.surviving_of_isSome (Option.isSome_iff_exists.2 ⟨n, hn⟩)
    rw [climbed, outcome, hsame, if_pos hstay]
    rfl

end Draft

namespace Shell

open Removing

theorem clears_foldlM (r : Request) (flags : Flags) {s : State} (ws : List String) {d : Draft}
    (hd : d.Fits s) : ∃ d' places ls, ws.foldlM (rmOne r flags) d = .ok d' ∧ d'.Fits s ∧
      Clears flags r.cwd d.tree ws places ls d'.tree ∧ d'.lines = d.lines ++ ls ∧
      d'.edited = (d.edited || !places.isEmpty) := by
  induction ws generalizing d with
  | nil =>
    exact ⟨d, [], [], rfl, hd, .done _, (List.append_nil _).symm, (Bool.or_false _).symm⟩
  | cons w ws ih =>
    obtain ⟨a, ha, hverdict⟩ := rm_acts r flags hd.root w
    -- The other operands are judged on the draft that this one leaves.
    obtain ⟨d', places, ls, hfold, hfits, hclears, hlines, hedited⟩ := ih (hd.perform ha.root)
    have hall : (w :: ws).foldlM (rmOne r flags) d = .ok d' := by
      rw [List.foldlM_cons, ha.perform d rfl]
      exact hfold
    cases hverdict with
    | accept h htree =>
      refine ⟨d', _, ls, hall, hfits, .accept h htree hclears, hlines, ?_⟩
      rw [hedited]
      simp [Draft.perform, Draft.update]
    | ignore h =>
      exact ⟨d', places, ls, hall, hfits, .ignore h.not_accepts h hclears, hlines, hedited⟩
    | refuse h =>
      refine ⟨d', places, _, hall, hfits, .refuse h.not_accepts h hclears, ?_, hedited⟩
      rw [hlines]
      exact List.append_assoc _ _ _

end Shell

structure Cleared (s : State) (args places : List String) (o : Outcome) : Prop where
  operands : Removing.Clears (Flags.ofArgs args) s.cwd s.tree (Flags.ofArgs args).operands places
    o.lines (o.patch.apply s).tree
  tree : ∀ place, (o.patch.apply s).tree.root.labelAt place =
    if ∃ path ∈ places, Path.segments path <+: place then none else s.tree.root.labelAt place
  cwd : (o.patch.apply s).tree.Nearest s.cwd (o.patch.apply s).cwd
  patch : o.patch = {} ↔ places = []

/-- `rm` always gives an answer. It removes what is at and below the accepted operands and nothing
else, and it is what a line of these words comes to. -/
theorem rm_clears (context : Context) {s : State} (hs : s.Anchored) {args : List String}
    (hne : (Flags.ofArgs args).operands ≠ []) : ∃ o places,
      Shell.rm { name := "rm", args, state := s, context } = .ok o ∧ Cleared s args places o ∧
      ∀ line, Text.words line = "rm" :: args → execute context s line = o := by
  let r : Request := { name := "rm", args, state := s, context }
  have htop : s.tree.hasDir "/" = true := FileTree.hasDir_of_covers List.nil_prefix hs.isDir
  have hstart : ({ tree := s.tree } : Draft).Fits s := ⟨htop, fun _ => rfl⟩
  obtain ⟨d, places, ls, hfold, hfits, hclears, hlines, hedited⟩ :=
    Shell.clears_foldlM r (Flags.ofArgs args) (Flags.ofArgs args).operands hstart
  have hrm : Shell.run r .rm = .ok (d.climbed s.cwd) := Shell.rm_of_foldlM hne hfold
  refine ⟨d.climbed s.cwd, places, hrm, ?_, fun line hline =>
    execute_of_run hline (Command.ofName?_name .rm) hrm⟩
  have hstate : (d.climbed s.cwd).patch.apply s = d.settle s := hfits.apply_climbed
  obtain ⟨hcanonical, hdir⟩ : ((d.climbed s.cwd).patch.apply s).Anchored :=
    ⟨(Shell.run_anchored hrm hs).1, (Shell.run_anchored hrm hs).2⟩
  rw [hstate] at hcanonical hdir
  constructor
  case operands =>
    have hsaid : (d.climbed s.cwd).lines = ls := hlines
    rw [hstate, hsaid]
    exact hclears
  case tree =>
    rw [hstate]
    exact hclears.labelAt
  case cwd =>
    rw [hstate]
    exact ⟨hcanonical, (d.tree.surviving_covers s.cwd).1, hdir, fun _ => FileTree.covers_surviving⟩
  case patch =>
    rw [hfits.patch_climbed hs.isDir, hedited]
    simp

/-- The directory above the current one goes, so what is typed from there is not found any more,
and the root stays in any case. -/
theorem rm_clears_home : ∃ places,
    Cleared {} ["-rf", "./..", "/tmp", "nosuch", "/home", "~", "/"] places
      (execute {} {} "rm -rf ./.. /tmp nosuch /home ~ /") ∧
    (execute {} {} "rm -rf ./.. /tmp nosuch /home ~ /").lines =
      [.error "rm: refusing to remove '.' or '..' directory: skipping './..'",
        .error "rm: cannot remove '/': Permission denied"] ∧
    ((execute {} {} "rm -rf ./.. /tmp nosuch /home ~ /").patch.apply {}).cwd = "/" := by
  have hs : ({} : State).Anchored := ⟨by decide, by decide +kernel⟩
  have hne : (Flags.ofArgs ["-rf", "./..", "/tmp", "nosuch", "/home", "~", "/"]).operands ≠ [] := by
    decide +kernel
  have hline : Text.words "rm -rf ./.. /tmp nosuch /home ~ /" =
      "rm" :: ["-rf", "./..", "/tmp", "nosuch", "/home", "~", "/"] := by decide +kernel
  obtain ⟨o, places, -, hcleared, ho⟩ := rm_clears {} hs hne
  refine ⟨places, ?_, by decide +kernel, by decide +kernel⟩
  rwa [ho _ hline]

end PuzzleShell
