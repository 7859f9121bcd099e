import PuzzleShell.Proofs.Shell.Batch

/-!
# The list of packages

Installing adds to the list, in the order in which they are named first, the packages that the
catalog holds and the list does not; removing takes away what is named. Both loops go through the
packages one by one and look each up in the list as it has become by then, so the two descriptions
of a whole line are proved by induction on its words.
-/

namespace PuzzleShell

namespace Shell

/-- The words that name packages; the others are options. -/
def packageNames (words : List String) : List String := words.filter (!Text.startsWith "-" ·)

def withPackages (catalog words installed : List String) : List String :=
  installed ++ ((packageNames words).filter fun w => w ∈ catalog ∧ w ∉ installed).eraseDups

def withoutPackages (words installed : List String) : List String :=
  installed.filter (· ∉ packageNames words)

section Lists

variable {catalog words words' installed : List String}

theorem mem_withPackages {w : String} : w ∈ withPackages catalog words installed ↔
    w ∈ installed ∨ w ∈ packageNames words ∧ w ∈ catalog := by
  simp only [withPackages, List.mem_append, List.mem_eraseDups, List.mem_filter, decide_eq_true_eq]
  grind

theorem nodup_eraseDups (ws : List String) : ws.eraseDups.Nodup := by
  cases ws with
  | nil => exact List.nodup_nil
  | cons w ws =>
    rw [List.eraseDups_cons, List.nodup_cons, List.mem_eraseDups]
    refine ⟨fun hw => ?_, nodup_eraseDups _⟩
    simpa using (List.mem_filter.1 hw).2
termination_by ws.length
decreasing_by exact Nat.lt_succ_of_le (List.length_filter_le _ _)

theorem nodup_withPackages (h : installed.Nodup) : (withPackages catalog words installed).Nodup := by
  refine List.nodup_append.2 ⟨h, nodup_eraseDups _, fun v hthere w hnew hsame => ?_⟩
  have hmissing := of_decide_eq_true (List.mem_filter.1 (List.mem_eraseDups.1 hnew)).2
  exact hmissing.2 (hsame ▸ hthere)

theorem withPackages_withPackages (catalog words installed : List String) :
    withPackages catalog words (withPackages catalog words installed) =
      withPackages catalog words installed := by
  have hnone : ((packageNames words).filter fun w =>
      w ∈ catalog ∧ w ∉ withPackages catalog words installed) = [] := by
    refine List.filter_eq_nil_iff.2 fun w hw hnew => ?_
    obtain ⟨hcatalog, hmissing⟩ := of_decide_eq_true hnew
    exact hmissing (mem_withPackages.2 (.inr ⟨hw, hcatalog⟩))
  rw [withPackages, hnone, List.eraseDups_nil, List.append_nil]

theorem withoutPackages_withoutPackages (words installed : List String) :
    withoutPackages words (withoutPackages words installed) = withoutPackages words installed := by
  rw [withoutPackages, withoutPackages, List.filter_filter]
  simp only [Bool.and_self]

/-- What was not there before is gone again, whatever order it is named in. -/
theorem withoutPackages_withPackages
    (hsame : ∀ w, w ∈ packageNames words' ↔ w ∈ packageNames words)
    (hnew : ∀ w ∈ packageNames words, w ∉ installed) :
    withoutPackages words' (withPackages catalog words installed) = installed := by
  rw [withoutPackages, withPackages, List.filter_append]
  have hold : installed.filter (· ∉ packageNames words') = installed := by
    refine List.filter_eq_self.2 fun w hw => decide_eq_true fun hnamed => ?_
    exact hnew w ((hsame w).1 hnamed) hw
  have hadded : (((packageNames words).filter fun w => w ∈ catalog ∧ w ∉ installed).eraseDups.filter
      (· ∉ packageNames words')) = [] := by
    refine List.filter_eq_nil_iff.2 fun w hw hkept => ?_
    have hnamed := (List.mem_filter.1 (List.mem_eraseDups.1 hw)).1
    exact of_decide_eq_true hkept ((hsame w).2 hnamed)
  rw [hold, hadded, List.append_nil]

end Lists

section Loops

variable (catalog : List String)

theorem installed_installOne (d : PackageDraft) (w : String) : (installOne catalog d w).installed =
    if w ∈ catalog ∧ w ∉ d.installed then d.installed ++ [w] else d.installed := by
  unfold installOne
  by_cases hcatalog : w ∈ catalog
  · by_cases hthere : w ∈ d.installed
    · rw [if_neg (not_not.2 hcatalog), if_pos hthere, if_neg fun h => h.2 hthere]
    · rw [if_neg (not_not.2 hcatalog), if_neg hthere, if_pos ⟨hcatalog, hthere⟩]
  · rw [if_pos hcatalog, if_neg fun h => hcatalog h.1]

theorem installed_uninstallOne (d : PackageDraft) (w : String) :
    (uninstallOne d w).installed = d.installed.erase w := by
  unfold uninstallOne
  split
  · next hmissing => exact (List.erase_of_not_mem hmissing).symm
  · rfl

theorem installed_foldl_installOne (ws : List String) (d : PackageDraft) :
    (ws.foldl (installOne catalog) d).installed =
      d.installed ++ (ws.filter fun w => w ∈ catalog ∧ w ∉ d.installed).eraseDups := by
  induction ws generalizing d with
  | nil => exact (List.append_nil _).symm
  | cons w ws ih =>
    rw [List.foldl_cons, ih, installed_installOne]
    by_cases hw : w ∈ catalog ∧ w ∉ d.installed
    · -- The words after this one find it in the list.
      have hlater : (ws.filter fun v => v ∈ catalog ∧ v ∉ d.installed ++ [w]) =
          (ws.filter fun v => v ∈ catalog ∧ v ∉ d.installed).filter fun v => !v == w := by
        rw [List.filter_filter]
        refine List.filter_congr fun v _ => ?_
        simp only [List.mem_append, List.mem_singleton]
        grind
      rw [if_pos hw, hlater, List.filter_cons, if_pos (decide_eq_true hw), List.eraseDups_cons,
        List.append_assoc, List.singleton_append]
    · rw [if_neg hw, List.filter_cons, if_neg (by simpa using hw)]

theorem installed_foldl_uninstallOne (ws : List String) {d : PackageDraft}
    (h : d.installed.Nodup) :
    (ws.foldl uninstallOne d).installed = d.installed.filter (· ∉ ws) := by
  induction ws generalizing d with
  | nil => exact (List.filter_eq_self.2 fun v _ => decide_eq_true List.not_mem_nil).symm
  | cons w ws ih =>
    have hnodup : (uninstallOne d w).installed.Nodup := by
      rw [installed_uninstallOne]
      exact h.erase w
    rw [List.foldl_cons, ih hnodup, installed_uninstallOne, h.erase_eq_filter, List.filter_filter]
    refine List.filter_congr fun v _ => ?_
    simp only [List.mem_cons]
    grind

theorem patch_forPackages {change : PackageDraft → String → PackageDraft}
    (hloops : PackageDraft.Loops change) (r : Request) (args : List String) :
    (forPackages r args change).patch = .relist r.state.installed
      ((packageNames args).foldl change ⟨r.state.installed, []⟩).installed := by
  by_cases hne : packageNames args = []
  · unfold forPackages
    change args.filter _ = [] at hne
    rw [packageNames, hne]
    exact (Patch.relist_self _).symm
  · rw [forPackages_eq_outcome hne rfl, PackageDraft.patch_outcome (hloops.length _ _)]

theorem patch_forPackages_installOne (r : Request) (args : List String) :
    (forPackages r args (installOne catalog)).patch =
      .relist r.state.installed (withPackages catalog args r.state.installed) := by
  rw [patch_forPackages (installOne_loops catalog), installed_foldl_installOne]
  rfl

theorem patch_forPackages_uninstallOne {r : Request} (h : r.state.installed.Nodup)
    (args : List String) : (forPackages r args uninstallOne).patch =
      .relist r.state.installed (withoutPackages args r.state.installed) := by
  rw [patch_forPackages uninstallOne_loops, installed_foldl_uninstallOne _ h]
  rfl

end Loops

end Shell

/-- The line makes `after` of the list of packages: it sets the list only if that is another one,
and executed once more it sets nothing. -/
structure Relists (context : Context) (s : State) (line : String) (after : List String) : Prop where
  patch : (execute context s line).patch =
    if after = s.installed then {} else { installed := some after }
  again : (execute context ((execute context s line).patch.apply s) line).patch = {}

def Installs (line : String) (words : List String) : Prop :=
  ∃ apt ∈ ["apt", "apt-get"], Text.words line = apt :: "install" :: words

def Removes (line : String) (words : List String) : Prop :=
  ∃ apt ∈ ["apt", "apt-get"], ∃ remove ∈ ["remove", "uninstall"],
    Text.words line = apt :: remove :: words

section Lines

open Shell (withPackages withoutPackages)

variable (context : Context) (s : State) {line : String} {words after : List String}

theorem ofName?_apt {name : String} (h : name ∈ ["apt", "apt-get"]) :
    Command.ofName? name = some .apt := by
  simp only [List.mem_cons, List.not_mem_nil, or_false] at h
  rcases h with rfl | rfl <;> decide +kernel

theorem patch_install (h : Installs line words) : (execute context s line).patch =
    .relist s.installed (withPackages context.catalog words s.installed) := by
  obtain ⟨apt, hapt, hline⟩ := h
  rw [execute_of_run hline (ofName?_apt hapt) rfl]
  exact Shell.patch_forPackages_installOne context.catalog
    ⟨apt, "install" :: words, s, context⟩ words

variable {s} in
theorem patch_remove (hnodup : s.installed.Nodup) (h : Removes line words) :
    (execute context s line).patch =
      .relist s.installed (withoutPackages words s.installed) := by
  obtain ⟨apt, hapt, remove, hremove, hline⟩ := h
  let r : Request := ⟨apt, remove :: words, s, context⟩
  have hanswer : Shell.apt r = Shell.forPackages r words Shell.uninstallOne := by
    simp only [List.mem_cons, List.not_mem_nil, or_false] at hremove
    rcases hremove with rfl | rfl <;> rfl
  rw [execute_of_run hline (ofName?_apt hapt) rfl]
  exact (congrArg Outcome.patch hanswer).trans (Shell.patch_forPackages_uninstallOne hnodup words)

variable {context s} in
theorem relists_of_patch
    (hpatch : (execute context s line).patch = .relist s.installed after)
    (hagain : (execute context { s with installed := after } line).patch = .relist after after) :
    Relists context s line after := by
  refine ⟨hpatch, ?_⟩
  rw [hpatch, Patch.apply_relist, hagain, Patch.relist_self]

theorem relists_install (h : Installs line words) :
    Relists context s line (withPackages context.catalog words s.installed) := by
  let s' : State := { s with installed := withPackages context.catalog words s.installed }
  have hagain := patch_install context s' h
  rw [Shell.withPackages_withPackages] at hagain
  exact relists_of_patch (patch_install context s h) hagain

variable {s} (hnodup : s.installed.Nodup)
include hnodup

theorem relists_remove (h : Removes line words) :
    Relists context s line (withoutPackages words s.installed) := by
  let s' : State := { s with installed := withoutPackages words s.installed }
  have hnodup' : s'.installed.Nodup := hnodup.filter _
  have hagain := patch_remove context hnodup' h
  rw [Shell.withoutPackages_withoutPackages] at hagain
  exact relists_of_patch (patch_remove context hnodup h) hagain

theorem inTurn_install_remove {line' : String} {words' : List String} (h : Installs line words)
    (h' : Removes line' words')
    (hsame : ∀ w, w ∈ Shell.packageNames words' ↔ w ∈ Shell.packageNames words)
    (hnew : ∀ w ∈ Shell.packageNames words, w ∉ s.installed) :
    (inTurn (execute context) s [line, line']).2 = s := by
  let s' : State := { s with installed := withPackages context.catalog words s.installed }
  have hnodup' : s'.installed.Nodup := Shell.nodup_withPackages hnodup
  have hinstalled : (execute context s line).patch.apply s = s' := by
    rw [patch_install context s h, Patch.apply_relist]
  have hremoved : (execute context s' line').patch.apply s' = s := by
    rw [patch_remove context hnodup' h', Patch.apply_relist,
      Shell.withoutPackages_withPackages hsame hnew]
  change (execute context ((execute context s line).patch.apply s) line').patch.apply
    ((execute context s line).patch.apply s) = s
  rw [hinstalled, hremoved]

end Lines

end PuzzleShell
