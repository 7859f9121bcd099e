import PuzzleShell.Shell.Execute

/-!
# Foreseen errors

Whatever goes wrong unforeseen is told in one line, the same for every command but for its name.
No error line that a command makes itself reads like that one: most of them end in another letter,
and the two that end in what was typed start with a capital.
-/

namespace PuzzleShell

/-- What would be said if the command called `name` went wrong unforeseen. -/
def faultText (name : String) : String := name ++ ": internal error"

def Line.Foreseen (name : String) (l : Line) : Prop := l.kind = .error → l.text ≠ faultText name

def Line.AllForeseen (name : String) (ls : List Line) : Prop := ∀ l ∈ ls, l.Foreseen name

def Outcome.Foreseen (name : String) (o : Outcome) : Prop := Line.AllForeseen name o.lines

theorem Command.mem_names_of_ofName? {name : String} {c : Command} (h : ofName? name = some c) :
    name ∈ names := by
  have hsome : (table.lookup name).isSome = true := Option.isSome_iff_exists.2 ⟨c, h⟩
  obtain ⟨entry, hentry, heq⟩ := List.lookup_isSome_iff.1 hsome
  exact List.mem_map.2 ⟨entry, hentry, (eq_of_beq heq).symm⟩

theorem Command.ofName?_eq_none {name : String} (h : name ∉ names) : ofName? name = none := by
  cases hc : ofName? name with
  | none => rfl
  | some c => exact absurd (mem_names_of_ofName? hc) h

theorem Command.head_of_ofName? {name : String} {c : Command} (h : ofName? name = some c) :
    name ≠ "" ∧ name.toList.head?.any (·.isUpper) = false := by
  have hall : ∀ name ∈ names, name ≠ "" ∧ name.toList.head?.any (·.isUpper) = false := by
    decide +kernel
  exact hall name (mem_names_of_ofName? h)

namespace Line

variable {name text first last : String}

theorem foreseen_of_kind {l : Line} (h : l.kind ≠ .error) : l.Foreseen name :=
  fun he => absurd he h

/-- The unforeseen error ends in an `r`. The characters of a literal are found by `rfl`. -/
theorem foreseen_of_last {cs : List Char} (hcs : text = String.ofList cs)
    (hlast : cs.getLast?.any (· != 'r') = true) : (error text).Foreseen name := by
  rintro - he
  have hend : (faultText name).toList.getLast? = some 'r' := by
    rw [faultText, String.toList_append, List.getLast?_append]
    rfl
  change text = _ at he
  rw [← he, hcs, String.toList_ofList] at hend
  rw [hend] at hlast
  cases hlast

theorem foreseen_append {cs : List Char} (hcs : last = String.ofList cs)
    (hlast : cs.getLast?.any (· != 'r') = true) :
    (error (first ++ last)).Foreseen name := by
  refine foreseen_of_last String.ofList_toList.symm ?_
  obtain ⟨c, hc, hne⟩ := (Option.any_eq_true _ _).1 hlast
  rw [String.toList_append, List.getLast?_append, hcs, String.toList_ofList, hc]
  exact hne

/-- The name of a command starts with a small letter. -/
theorem foreseen_of_start {c : Command} (hname : Command.ofName? name = some c)
    {cs : List Char} (hcs : first = String.ofList cs)
    (hhead : cs.head?.any (·.isUpper) = true) :
    (error (first ++ last)).Foreseen name := by
  rintro - he
  change first ++ last = _ at he
  obtain ⟨hne, hlower⟩ := Command.head_of_ofName? hname
  obtain ⟨u, hu, hupper⟩ := (Option.any_eq_true _ _).1 hhead
  have hnil : name.toList ≠ [] := by simpa using hne
  have hheads := congrArg (fun s : String => s.toList.head?) he
  simp only [faultText, String.toList_append, List.head?_append, hcs, String.toList_ofList, hu,
    Option.some_or, List.head?_eq_some_head hnil] at hheads
  rw [List.head?_eq_some_head hnil, ← hheads, Option.any_some, hupper] at hlower
  cases hlower

namespace AllForeseen

variable {ls ms : List Line}

theorem append (hl : AllForeseen name ls) (hm : AllForeseen name ms) :
    AllForeseen name (ls ++ ms) := by
  intro l h
  rcases List.mem_append.1 h with h | h
  · exact hl l h
  · exact hm l h

theorem snoc {l : Line} (hls : AllForeseen name ls) (hl : l.Foreseen name) :
    AllForeseen name (ls ++ [l]) :=
  hls.append fun _ h => List.mem_singleton.1 h ▸ hl

theorem of_kinds (h : ls.all (·.kind != .error) = true) : AllForeseen name ls :=
  fun l hl => foreseen_of_kind (by simpa using List.all_eq_true.1 h l hl)

end AllForeseen

end Line

namespace Outcome

variable {name text first last : String}

theorem foreseen_print (texts : List String) : (print texts).Foreseen name := by
  intro l hl
  obtain ⟨text, -, rfl⟩ := List.mem_map.1 hl
  exact Line.foreseen_of_kind LineKind.noConfusion

theorem foreseen_patch (patch : Patch) : ({ patch } : Outcome).Foreseen name := by
  intro l hl
  cases hl

theorem foreseen_singleton {l : Line} {patch : Patch} (h : l.Foreseen name) :
    ({ lines := [l], patch } : Outcome).Foreseen name := by
  intro l' hl
  rwa [List.mem_singleton.1 hl]

theorem foreseen_inform (text : String) : (inform text).Foreseen name :=
  foreseen_singleton (Line.foreseen_of_kind LineKind.noConfusion)

theorem foreseen_fail {cs : List Char} (hcs : text = String.ofList cs)
    (hlast : cs.getLast?.any (· != 'r') = true) : (fail text).Foreseen name :=
  foreseen_singleton (Line.foreseen_of_last hcs hlast)

theorem foreseen_fail_append {cs : List Char} (hcs : last = String.ofList cs)
    (hlast : cs.getLast?.any (· != 'r') = true) :
    (fail (first ++ last)).Foreseen name :=
  foreseen_singleton (Line.foreseen_append hcs hlast)

end Outcome

namespace Shell

variable (r : Request) (name : String)

theorem foreseen_ls : (ls r).Foreseen name := by
  unfold ls
  dsimp only
  split
  · exact Outcome.foreseen_fail_append rfl rfl
  · exact Outcome.foreseen_print _
  · split
    · exact Outcome.foreseen_print _
    · split
      · exact Outcome.foreseen_patch _
      · exact Outcome.foreseen_print _

theorem foreseen_cd : (cd r).Foreseen name := by
  unfold cd
  dsimp only
  split
  · exact Outcome.foreseen_fail_append rfl rfl
  · exact Outcome.foreseen_fail_append rfl rfl
  · exact Outcome.foreseen_patch _

theorem foreseen_readError (e : ReadError) (command target : String) :
    (e.line command target).Foreseen name := by
  cases e <;> exact Line.foreseen_append rfl rfl

theorem foreseen_cat : (cat r).Foreseen name := by
  unfold cat
  split
  · exact Outcome.foreseen_fail rfl rfl
  · intro l hl
    obtain ⟨target, -, hl⟩ := List.mem_flatMap.1 hl
    split at hl
    · exact Outcome.foreseen_print _ l hl
    · rw [List.mem_singleton.1 hl]
      exact foreseen_readError name _ _ _

theorem foreseen_grep : (grep r).Foreseen name := by
  unfold grep
  split
  · intro l hl
    obtain ⟨target, -, hl⟩ := List.mem_flatMap.1 hl
    split at hl
    · obtain ⟨line, -, rfl⟩ := List.mem_map.1 hl
      exact Line.foreseen_of_kind LineKind.noConfusion
    · rw [List.mem_singleton.1 hl]
      exact foreseen_readError name _ _ _
  · exact Outcome.foreseen_fail rfl rfl

theorem foreseen_find : (find r).Foreseen name := by
  unfold find
  split
  · dsimp only
    split
    · exact Outcome.foreseen_fail_append rfl rfl
    · exact Outcome.foreseen_print _
  · exact Outcome.foreseen_fail rfl rfl

theorem foreseen_echo : (echo r).Foreseen name := by
  unfold echo
  split
  · exact Outcome.foreseen_print _
  · exact Outcome.foreseen_fail rfl rfl
  · unfold writeLine
    split
    · exact Outcome.foreseen_fail_append rfl rfl
    · split
      · exact Outcome.foreseen_patch _
      · exact Outcome.foreseen_fail_append rfl rfl
      · exact Outcome.foreseen_fail_append rfl rfl

theorem foreseen_tar : (tar r).Foreseen name := by
  unfold tar
  split
  · dsimp only
    split
    · unfold archive
      split
      · split
        · exact Outcome.foreseen_patch _
        · exact Outcome.foreseen_fail_append rfl rfl
      · intro l hl
        obtain ⟨source, -, rfl⟩ := List.mem_map.1 hl
        exact Line.foreseen_append rfl rfl
    · exact Outcome.foreseen_fail rfl rfl
  · exact Outcome.foreseen_fail rfl rfl

theorem foreseen_start : (Editor.start r).Foreseen name := by
  unfold Editor.start
  dsimp only
  split
  · exact Outcome.foreseen_fail_append rfl rfl
  · split
    · exact Outcome.foreseen_fail_append rfl rfl
    · exact Outcome.foreseen_singleton (Line.foreseen_of_kind LineKind.noConfusion)

theorem foreseen_help : (help r).Foreseen name := by
  unfold help
  split
  · exact Outcome.foreseen_print _
  · dsimp only
    split
    · exact Outcome.foreseen_print _
    · exact Outcome.foreseen_fail_append rfl rfl

theorem foreseen_ping : (ping r).Foreseen name := by
  unfold ping
  split
  · exact Outcome.foreseen_print _
  · exact Outcome.foreseen_fail rfl rfl

theorem foreseen_runOther : (runOther r).Foreseen name := by
  unfold runOther
  split
  · unfold runScript
    dsimp only
    split
    · exact Outcome.foreseen_fail_append rfl rfl
    · exact Outcome.foreseen_fail_append rfl rfl
    · split
      · exact Outcome.foreseen_print _
      · exact Outcome.foreseen_fail_append rfl rfl
  · split
    · next o ho =>
      unfold packageVersion? at ho
      split at ho
      · cases ho
        exact Outcome.foreseen_print _
      · cases ho
    · exact Outcome.foreseen_fail_append rfl rfl

theorem foreseen_uninstallOne (d : PackageDraft) (pkg : String)
    (h : Line.AllForeseen name d.lines) : Line.AllForeseen name (uninstallOne d pkg).lines := by
  unfold uninstallOne
  split
  · exact h.snoc (Line.foreseen_of_kind LineKind.noConfusion)
  · exact h.append (.of_kinds rfl)

theorem foreseen_forPackages (args : List String)
    {change : PackageDraft → String → PackageDraft}
    (hchange : ∀ d pkg, Line.AllForeseen name d.lines →
      Line.AllForeseen name (change d pkg).lines) : (forPackages r args change).Foreseen name := by
  unfold forPackages
  split
  · exact Outcome.foreseen_fail rfl rfl
  · exact List.foldlRecOn _ change
      (fun _ hl => by cases hl) fun d hd pkg _ => hchange d pkg hd

theorem foreseen_listPackages (args : List String) : (listPackages r args).Foreseen name := by
  unfold listPackages
  split
  · split
    · exact Outcome.foreseen_inform _
    · exact Outcome.foreseen_print _
  · exact Outcome.foreseen_print _

theorem foreseen_searchPackages (args : List String) :
    (searchPackages r args).Foreseen name := by
  unfold searchPackages
  dsimp only
  split
  · exact Outcome.foreseen_inform _
  · exact Outcome.foreseen_print _

section Capital

variable {name} {c : Command} (hname : Command.ofName? name = some c)
include hname

theorem foreseen_man : (man r).Foreseen name := by
  unfold man
  split
  · exact Outcome.foreseen_fail rfl rfl
  · split
    · exact Outcome.foreseen_print _
    · exact Outcome.foreseen_singleton (Line.foreseen_of_start hname rfl rfl)

theorem foreseen_installOne (catalog : List String) (d : PackageDraft) (pkg : String)
    (h : Line.AllForeseen name d.lines) :
    Line.AllForeseen name (installOne catalog d pkg).lines := by
  unfold installOne
  split
  · exact h.snoc (Line.foreseen_of_start hname rfl rfl)
  · split
    · exact h.snoc (Line.foreseen_of_kind LineKind.noConfusion)
    · exact h.append (.of_kinds rfl)

theorem foreseen_apt : (apt r).Foreseen name := by
  unfold apt
  split
  · intro l hl
    rcases List.mem_cons.1 hl with rfl | hl
    · exact Line.foreseen_of_last rfl rfl
    · exact Line.AllForeseen.of_kinds (by decide) l hl
  · split
    · exact foreseen_forPackages r name _ (foreseen_installOne hname _)
    · split
      · exact foreseen_forPackages r name _ (foreseen_uninstallOne name)
      · split
        · exact foreseen_listPackages r name _
        · split
          · exact foreseen_searchPackages r name _
          · split
            · exact Outcome.foreseen_print _
            · exact Outcome.foreseen_fail_append rfl rfl

end Capital

end Shell

end PuzzleShell
