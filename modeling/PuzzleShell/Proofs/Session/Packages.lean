import PuzzleShell.Proofs.Session.Steps
import PuzzleShell.Proofs.Shell.Packages

/-!
# The packages of a session

A session starts with the packages of its mission, each once. From then on no package is in the
list twice, and none that neither the mission nor the catalog names.
-/

namespace PuzzleShell

/-- A list of packages without repetitions, of which all are known. -/
structure State.Stocked (known : String → Prop) (s : State) : Prop where
  nodup : s.installed.Nodup
  known : ∀ pkg ∈ s.installed, known pkg

namespace State.Stocked

variable {known : String → Prop} {s : State}

theorem apt {r : Request} (h : r.state.Stocked known)
    (hcatalog : ∀ pkg ∈ r.context.catalog, known pkg) :
    ((Shell.apt r).patch.apply r.state).Stocked known := by
  rcases Shell.apt_cases r with hempty | ⟨args, hinstall | hremove⟩
  · rwa [hempty, Patch.apply_empty]
  · rw [hinstall, Shell.patch_forPackages_installOne, Patch.apply_relist]
    refine ⟨Shell.nodup_withPackages h.nodup, fun pkg hpkg => ?_⟩
    rcases Shell.mem_withPackages.1 hpkg with hold | ⟨-, hnew⟩
    · exact h.known pkg hold
    · exact hcatalog pkg hnew
  · rw [hremove, Shell.patch_forPackages_uninstallOne h.nodup, Patch.apply_relist]
    exact ⟨h.nodup.filter _, fun pkg hpkg => h.known pkg (List.mem_filter.1 hpkg).1⟩

theorem execute (h : s.Stocked known) {context : Context}
    (hcatalog : ∀ pkg ∈ context.catalog, known pkg) (line : String) :
    ((execute context s line).patch.apply s).Stocked known := by
  rcases execute_cases context s line with hempty | ⟨i, c, -, -, hrun⟩
  · rwa [hempty, Patch.apply_empty]
  · by_cases hapt : c = .apt
    · subst hapt
      have hanswer : PuzzleShell.execute context s line = Shell.apt (i.request s context) :=
        (Except.ok.inj hrun).symm
      rw [hanswer]
      exact apt (r := i.request s context) h hcatalog
    · have hslot : Slot.installed ∉ c.slots := by revert hapt; cases c <;> decide
      have hsame : ((PuzzleShell.execute context s line).patch.apply s).installed = s.installed :=
        (Shell.run_within _ hrun).same_apply hslot s
      refine ⟨?_, ?_⟩
      · rw [hsame]
        exact h.nodup
      · rw [hsame]
        exact h.known

theorem save (h : s.Stocked known) (content : Option String) :
    ((Editor.save s content).patch.apply s).Stocked known := by
  unfold Editor.save
  split
  · exact h
  · dsimp only
    split <;> exact ⟨h.nodup, h.known⟩

end State.Stocked

namespace Session

open Shell (packageNames withPackages withoutPackages)

theorem stocked_world {known : String → Prop} {s : State} :
    s.world.Stocked known ↔ s.Stocked known :=
  ⟨fun h => ⟨h.nodup, h.known⟩, fun h => ⟨h.nodup, h.known⟩⟩

/-- The packages that can be installed, at any moment. -/
def catalog (s : Session) : List String := (s.mission.bind (·.packages)).getD defaultCatalog

theorem catalog_context (s : Session) (now : Moment) : (s.context now).catalog = s.catalog := rfl

/-- The packages of a session are each in its list once, and its mission or the catalog names them.
A line that installs or removes sets the list only if it becomes another one, which is not so when
the line is repeated, and removing what was not there before it was installed gives the list back. -/
theorem packages_steps (mission : Option Mission) (config : Config) (objects : Prompt.Objects)
    (xs : List Step) :
    let s := start mission config objects
    let installed := (s.steps xs).2.state.installed
    installed.Nodup ∧
    (∀ pkg ∈ installed, (∃ m ∈ mission, pkg ∈ m.installed) ∨ pkg ∈ s.catalog) ∧
    ∀ (context : Context) (state : State), state.installed.Nodup →
      (∀ line words, Installs line words →
        Relists context state line (withPackages context.catalog words state.installed)) ∧
      (∀ line words, Removes line words →
        Relists context state line (withoutPackages words state.installed)) ∧
      ∀ line line' words words', Installs line words → Removes line' words' →
        (∀ w, w ∈ packageNames words' ↔ w ∈ packageNames words) →
        (∀ w ∈ packageNames words, w ∉ state.installed) →
        (inTurn (execute context) state [line, line']).2 = state := by
  intro s installed
  let known (pkg : String) : Prop := (∃ m ∈ mission, pkg ∈ m.installed) ∨ pkg ∈ s.catalog
  have hinitial : (initialState mission).Stocked known := by
    cases mission with
    | none => exact ⟨List.nodup_nil, fun pkg hpkg => by cases hpkg⟩
    | some m =>
      exact ⟨Shell.nodup_eraseDups _, fun pkg hpkg => .inl ⟨m, rfl, List.mem_eraseDups.1 hpkg⟩⟩
  have hcatalog (now : Moment) : ∀ pkg ∈ (s.context now).catalog, known pkg := by
    rw [catalog_context]
    exact fun _ => .inr
  have hend : (s.steps xs).2.state.Stocked known :=
    steps_invariant_of_setup (fun _ => stocked_world)
      (fun now _ line h => h.execute (hcatalog now) line) (fun _ content h => h.save content)
      (fun _ h => ⟨h.nodup, h.known⟩) hinitial hinitial xs
  refine ⟨hend.nodup, hend.known, fun context state hnodup => ⟨?_, ?_, ?_⟩⟩
  · exact fun _ _ h => relists_install context state h
  · exact fun _ _ h => relists_remove context hnodup h
  · exact fun _ _ _ _ h h' hsame hnew => inTurn_install_remove context hnodup h h' hsame hnew

/-- A mission that names a package twice; among the words of a line are an option, a repetition, a
package that the catalog does not hold and one that is there already. -/
theorem packages_steps_repeated :
    let m : Mission := { installed := ["git", "vim", "git"], packages := some ["a", "git", "b"] }
    let xs : List Step := [.run "apt install b git -y a c b", .run "apt-get remove vim vim"]
    let t := ((start (some m) {} .small).steps xs).2.state
    t.installed = ["git", "b", "a"] ∧ t.installed.Nodup ∧
      (inTurn (execute {}) t ["apt install nginx curl", "apt uninstall curl nginx -y"]).2 = t := by
  intro m xs t
  have hinstalled : t.installed = ["git", "b", "a"] := by decide +kernel
  have hnamed : packageNames ["nginx", "curl"] = ["nginx", "curl"] := by decide +kernel
  have hnamed' : packageNames ["curl", "nginx", "-y"] = ["curl", "nginx"] := by decide +kernel
  have hinstalls : Installs "apt install nginx curl" ["nginx", "curl"] :=
    ⟨"apt", by decide, by decide +kernel⟩
  have hremoves : Removes "apt uninstall curl nginx -y" ["curl", "nginx", "-y"] :=
    ⟨"apt", by decide, "uninstall", by decide, by decide +kernel⟩
  have hsteps := packages_steps (some m) {} .small xs
  have ht : ((start (some m) {} .small).steps xs).2.state = t := rfl
  dsimp only at hsteps
  rw [ht] at hsteps
  obtain ⟨hnodup, -, hlines⟩ := hsteps
  obtain ⟨-, -, hundone⟩ := hlines {} t hnodup
  refine ⟨hinstalled, hnodup, hundone _ _ _ _ hinstalls hremoves ?_ ?_⟩
  · intro w
    rw [hnamed, hnamed']
    exact (List.Perm.swap "nginx" "curl" []).mem_iff
  · rw [hnamed, hinstalled]
    decide

end Session

end PuzzleShell
