import PuzzleShell.Proofs.Path.Joining
import PuzzleShell.Proofs.Shell.Flags
import PuzzleShell.Proofs.Shell.Footprint
import PuzzleShell.Proofs.Size.Blocks
import PuzzleShell.Proofs.Size.Range
import PuzzleShell.Proofs.Text.Words
import PuzzleShell.Proofs.Tree.Usage
import PuzzleShell.Proofs.Tree.Traversal

/-!
# Measuring a directory

A directory is measured entry by entry and then as a whole. Each line shows the space of the node
that its path leads to, in whatever way the directory was named. In blocks the whole differs from
the sum of the parts by the blocks of the directory itself and by what rounding the parts has added.
-/

namespace PuzzleShell

theorem mapM_eq_ok {α β ε : Type} {f : α → Except ε β} {g : α → β} {as : List α}
    (h : ∀ a ∈ as, f a = .ok (g a)) : as.mapM f = .ok (as.map g) := by
  induction as with
  | nil => rfl
  | cons a as ih =>
    obtain ⟨ha, has⟩ := List.forall_mem_cons.1 h
    rw [List.mapM_cons, ha, ih has]
    rfl

theorem FileTree.WellFormed.lookup_join {t : FileTree} (h : t.WellFormed) {expr cwd : String}
    {d c : Node} (hne : expr ≠ "") (hd : t.lookup (Path.resolve expr cwd) = some d)
    (hc : c ∈ d.children) : t.lookup (Path.resolve (Path.join expr c.name) cwd) = some c := by
  have hname : Path.IsName c.name := ((h.wellNamed.get? hd).children c hc).1
  rw [Path.resolve_join hne hname]
  exact h.lookup_child hd hc

/-- What is measured for a directory named by `target`, each with its path: the entries, and then
the directory as a whole. -/
def Node.measured (target : String) (d : Node) : List (String × Node) :=
  (d.children.map fun c => (Path.join target c.name, c)) ++ [(target, d)]

theorem FileTree.WellFormed.lookup_measured {t : FileTree} (h : t.WellFormed) {target cwd : String}
    {d : Node} (hne : target ≠ "") (hd : t.lookup (Path.resolve target cwd) = some d) :
    ∀ e ∈ d.measured target, t.lookup (Path.resolve e.1 cwd) = some e.2 := by
  intro e he
  rcases List.mem_append.1 he with he | he
  · obtain ⟨c, hc, rfl⟩ := List.mem_map.1 he
    exact h.lookup_join hne hd hc
  · rw [List.mem_singleton.1 he]
    exact hd

namespace Shell

variable {r : Request} {flags : Flags} {target : String} {d : Node} {shown : Node → String}

theorem usageLine_eq_ok {human : Bool} {path : String} {n : Node}
    (h : usageText human n.usage = .ok (shown n)) :
    usageLine human path n = .ok (.output (shown n ++ "\t" ++ path)) := by
  rw [usageLine, h]
  rfl

theorem duTarget_eq_ok (hd : r.lookup target = some d) (hparts : flags.has "s" = false)
    (hshown : ∀ e ∈ d.measured target, usageText (flags.has "h") e.2.usage = .ok (shown e.2)) :
    duTarget r flags target =
      .ok ((d.measured target).map fun e => .output (shown e.2 ++ "\t" ++ e.1)) := by
  have hbelow (c : Node) (hc : c ∈ d.children) :=
    hshown (Path.join target c.name, c) (List.mem_append_left _ (List.mem_map_of_mem hc))
  have htotal := hshown (target, d) (List.mem_append_right _ (List.mem_singleton_self _))
  rw [duTarget, hd]
  dsimp only
  rw [hparts, if_neg Bool.false_ne_true, mapM_eq_ok fun c hc => usageLine_eq_ok (hbelow c hc),
    usageLine_eq_ok htotal, Node.measured, List.map_append, List.map_map]
  rfl

theorem du_eq_print (hflags : Flags.ofArgs r.args = flags) (hoperands : flags.operands = [target])
    (hd : r.lookup target = some d) (hparts : flags.has "s" = false)
    (hshown : ∀ e ∈ d.measured target, usageText (flags.has "h") e.2.usage = .ok (shown e.2)) :
    du r = .ok (.print ((d.measured target).map fun e => shown e.2 ++ "\t" ++ e.1)) := by
  have hlines : [target].mapM (duTarget r flags) = .ok ([target].map fun _ =>
      (d.measured target).map fun e => .output (shown e.2 ++ "\t" ++ e.1)) := by
    refine mapM_eq_ok fun w hw => ?_
    rw [List.mem_singleton.1 hw]
    exact duTarget_eq_ok hd hparts hshown
  rw [du, hflags, hoperands, List.isEmpty_cons, if_neg Bool.false_ne_true, hlines, Outcome.print,
    List.map_map]
  change Except.ok ({ lines := List.flatten [_] } : Outcome) = _
  rw [List.flatten_singleton]
  rfl

theorem usageText_eq_ok {human : Bool} {n : Nat} (hn : n ≤ 2 ^ 53) {text : String}
    (h : usageText human n = .ok text) : (human = true → Size.format n = .ok text) ∧
      (human = false → text = toString (Size.blocks n)) := by
  rw [usageText] at h
  cases human with
  | false =>
    rw [if_neg Bool.false_ne_true, Size.reportedBlocks_of_le hn] at h
    exact ⟨fun hhuman => Bool.noConfusion hhuman, fun _ => (Except.ok.inj h).symm⟩
  | true =>
    rw [if_pos rfl] at h
    cases hformat : Size.format n with
    | error e => rw [hformat] at h; cases h
    | ok shown =>
      rw [hformat] at h
      cases h
      exact ⟨fun _ => rfl, fun hraw => Bool.noConfusion hraw⟩

theorem exists_shown (human : Bool) : ∃ shown : Node → String, ∀ n : Node,
    n.usage < Size.rangeBound → usageText human n.usage = .ok (shown n) := by
  refine ⟨fun n => (usageText human n.usage).toOption.getD "", fun n hn => ?_⟩
  obtain ⟨text, htext⟩ := exists_usageText human hn
  dsimp only
  rw [htext]
  rfl

end Shell

theorem Node.blocks_usage {d : Node} (hdir : d.isDir = true) :
    (d.children = [] → Size.blocks d.usage = 4) ∧
    (d.children ≠ [] →
      4 + (d.children.map fun c => Size.blocks c.usage).sum ≤
          Size.blocks d.usage + (d.children.length - 1) ∧
        Size.blocks d.usage ≤ 4 + (d.children.map fun c => Size.blocks c.usage).sum) := by
  cases d with
  | file => cases hdir
  | dir name owner cs =>
    have hsum : (cs.map fun c => Size.blocks c.usage).sum = ((cs.map usage).map Size.blocks).sum := by
      rw [List.map_map]
      rfl
    have hlength : cs.length = (cs.map usage).length := (List.length_map _).symm
    rw [usage_dir, Size.blocks_dirSize_add, usageAll_eq_sum, children, hsum, hlength]
    constructor
    · rintro rfl
      rfl
    · intro hne
      have hlower := Size.sum_blocks_le (mt List.map_eq_nil_iff.1 hne : cs.map usage ≠ [])
      have hupper := Size.blocks_sum_le (cs.map usage)
      omega

/-- The paths of what is measured lead to the nodes, and what is shown of a node is its space. In
blocks each space is rounded up by itself, so the whole and the sum of its parts need not agree. -/
structure State.Measures (s : State) (target : String) (d : Node) (human : Bool)
    (shown : Node → String) : Prop where
  sorted : d.children.Pairwise (·.name < ·.name)
  leads : ∀ e ∈ d.measured target, s.tree.lookup (Path.resolve e.1 s.cwd) = some e.2
  format : human = true → ∀ e ∈ d.measured target, Size.format e.2.usage = .ok (shown e.2)
  blocks : human = false →
    ∀ e ∈ d.measured target, shown e.2 = toString ⌈(e.2.usage : ℚ) / 1024⌉₊
  alone : d.children = [] → ⌈(d.usage : ℚ) / 1024⌉₊ = 4
  band : d.children ≠ [] →
    4 + (d.children.map fun c => ⌈(c.usage : ℚ) / 1024⌉₊).sum ≤
        ⌈(d.usage : ℚ) / 1024⌉₊ + (d.children.length - 1) ∧
      ⌈(d.usage : ℚ) / 1024⌉₊ ≤ 4 + (d.children.map fun c => ⌈(c.usage : ℚ) / 1024⌉₊).sum

/-- A directory is measured entry by entry, in the order of their names, and then as a whole. -/
theorem execute_du (context : Context) {s : State} (hs : s.tree.WellFormed)
    (hsize : s.tree.root.usage < 2 ^ 53) {line target : String} {args : List String} {d : Node}
    (hline : Text.words line = "du" :: args)
    (htarget : (Flags.ofArgs args).operands = [target])
    (hparts : (Flags.ofArgs args).has "s" = false)
    (hd : s.tree.lookup (Path.resolve target s.cwd) = some d) (hdir : d.isDir = true) :
    ∃ shown, execute context s line =
        .print ((d.measured target).map fun e => shown e.2 ++ "\t" ++ e.1) ∧
      s.Measures target d ((Flags.ofArgs args).has "h") shown := by
  have hne : target ≠ "" := by
    have hmem : target ∈ args := Flags.operands_subset args (htarget ▸ List.mem_singleton_self _)
    have hword : target ∈ Text.words line := hline ▸ List.mem_cons_of_mem _ hmem
    exact (Text.isWord_of_mem_words hword).ne_empty
  have hleads := hs.lookup_measured hne hd
  have husage : ∀ e ∈ d.measured target, e.2.usage < 2 ^ 53 := fun e he =>
    (Node.usage_le_of_get? (hleads e he)).trans_lt hsize
  have hbound : 2 ^ 53 < Size.rangeBound := by decide +kernel
  obtain ⟨shown, hshown⟩ := Shell.exists_shown ((Flags.ofArgs args).has "h")
  have htexts := fun e he => hshown e.2 ((husage e he).trans hbound)
  refine ⟨shown, execute_of_run hline (Command.ofName?_name .du)
    (Shell.du_eq_print rfl htarget hd hparts htexts), ?_⟩
  obtain ⟨halone, hband⟩ := Node.blocks_usage hdir
  simp only [Size.blocks_eq_ceil] at halone hband
  exact
    { sorted := (s.tree.ordered.get? hd).children.1
      leads := hleads
      format := fun hhuman e he => (Shell.usageText_eq_ok (husage e he).le (htexts e he)).1 hhuman
      blocks := fun hraw e he => by
        rw [← Size.blocks_eq_ceil]
        exact (Shell.usageText_eq_ok (husage e he).le (htexts e he)).2 hraw
      alone := halone
      band := hband }

/-- The path of the entry is spelled like that of the directory. -/
theorem execute_du_home : execute {} {} "du ~/.." = .print ["4\t~/../user", "8\t~/.."] ∧
    FileTree.base.lookup (Path.resolve "~/../user" Path.home) =
      some (.dir "user" defaultOwner []) := by
  have hline : Text.words "du ~/.." = ["du", "~/.."] := by decide +kernel
  have hflags : Flags.ofArgs ["~/.."] = ⟨[], ["~/.."]⟩ := by decide +kernel
  have hd : FileTree.base.lookup (Path.resolve "~/.." Path.home) =
      some (.dir "home" defaultOwner [.dir "user" defaultOwner []]) := by decide +kernel
  obtain ⟨shown, hprint, hmeasures⟩ := execute_du {} (s := {}) FileTree.base_wellFormed
    (by decide +kernel) hline (congrArg Flags.operands hflags) (by rw [hflags]; rfl) hd rfl
  have hblocks := hmeasures.blocks (by rw [hflags]; rfl)
  simp only [← Size.blocks_eq_ceil] at hblocks
  have hmeasured : (Node.dir "home" defaultOwner [.dir "user" defaultOwner []]).measured "~/.." =
      [("~/../user", .dir "user" defaultOwner []),
        ("~/..", .dir "home" defaultOwner [.dir "user" defaultOwner []])] := by decide +kernel
  have hleads := hmeasures.leads
  rw [hmeasured, List.forall_mem_cons, List.forall_mem_singleton] at hblocks hleads
  refine ⟨?_, hleads.1⟩
  rw [hprint, hmeasured, List.map_cons, List.map_singleton, hblocks.1, hblocks.2]
  decide +kernel

end PuzzleShell
