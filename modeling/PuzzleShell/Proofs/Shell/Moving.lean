import PuzzleShell.Proofs.Path.Composition
import PuzzleShell.Proofs.Shell.Footprint
import PuzzleShell.Proofs.Tree.Change

/-!
# Going somewhere in one step or in two

`cd` looks at nothing but what its operand is resolved to. So it does not matter whether one goes
to a place at once or stops on the way.
-/

namespace PuzzleShell

open PuzzleShell.Path (Canonical IsFixed resolve)

section Moving

variable {context : Context} {s : State} {line w : String}

theorem execute_eq_cd (hline : Text.words line = ["cd", w]) :
    execute context s line = match s.tree.lookup (resolve w s.cwd) with
      | none => .fail s!"cd: {w}: No such file or directory"
      | some (.file ..) => .fail s!"cd: {w}: Not a directory"
      | some (.dir ..) => { patch := { cwd := some (resolve w s.cwd) } } :=
  execute_of_run hline (Command.ofName?_name .cd) rfl

theorem execute_cd (hline : Text.words line = ["cd", w])
    (h : s.tree.hasDir (resolve w s.cwd) = true) :
    execute context s line = { patch := { cwd := some (resolve w s.cwd) } } := by
  obtain ⟨d, hd, hdir⟩ := FileTree.hasDir_eq_true_iff.1 h
  rw [execute_eq_cd hline, hd]
  cases d with
  | file => cases hdir
  | dir => rfl

theorem execute_cd_fails (hline : Text.words line = ["cd", w])
    (h : s.tree.hasDir (resolve w s.cwd) = false) :
    ∃ text, execute context s line = .fail text := by
  rw [FileTree.hasDir] at h
  rw [execute_eq_cd hline]
  cases hn : s.tree.lookup (resolve w s.cwd) with
  | none => exact ⟨_, rfl⟩
  | some n =>
    cases n with
    | file => exact ⟨_, rfl⟩
    | dir =>
      rw [hn] at h
      cases h

end Moving

/-- Two lines that lead to one directory, or that both report an error and do nothing. -/
def Outcome.MoveAlike (o o' : Outcome) : Prop :=
  (∃ dir, o = { patch := { cwd := some dir } } ∧ o' = { patch := { cwd := some dir } }) ∨
    ∃ text text', o = .fail text ∧ o' = .fail text'

theorem execute_cd_append (context : Context) {s : State} {p q first second both : String}
    (hp : p ≠ "") (hq : ¬ IsFixed q) (hfirst : Text.words first = ["cd", p])
    (hsecond : Text.words second = ["cd", q]) (hboth : Text.words both = ["cd", p ++ "/" ++ q])
    (hok : (execute context s first).hasErrors = false) :
    (execute context ((execute context s first).patch.apply s) second).MoveAlike
      (execute context s both) := by
  have hthere : s.tree.hasDir (resolve p s.cwd) = true := by
    by_contra hno
    obtain ⟨text, hfail⟩ : ∃ text, execute context s first = .fail text :=
      execute_cd_fails hfirst (Bool.of_not_eq_true hno)
    rw [hfail] at hok
    cases hok
  let s' : State := { s with cwd := resolve p s.cwd }
  have hmoved : (execute context s first).patch.apply s = s' := by
    rw [execute_cd hfirst hthere]
    rfl
  have hplace : resolve q s'.cwd = resolve (p ++ "/" ++ q) s.cwd :=
    (Path.resolve_append hp hq s.cwd).symm
  rw [hmoved]
  cases hdir : s.tree.hasDir (resolve (p ++ "/" ++ q) s.cwd) with
  | true =>
    have hdir' : s'.tree.hasDir (resolve q s'.cwd) = true := by rwa [hplace]
    left
    exact ⟨_, execute_cd hsecond hdir', hplace ▸ execute_cd hboth hdir⟩
  | false =>
    have hdir' : s'.tree.hasDir (resolve q s'.cwd) = false := by rwa [hplace]
    obtain ⟨text, hfail⟩ := execute_cd_fails hsecond hdir'
    obtain ⟨text', hfail'⟩ := execute_cd_fails hboth hdir
    exact .inr ⟨text, text', hfail, hfail'⟩

/-- A path can be followed step by step: an expression that goes on from another one is resolved
from where that one leads, and so `cd` may stop there on the way. Upwards every way ends at the
root, from which every path is found again. -/
theorem resolve_stepwise (context : Context) :
    (∀ p q, p ≠ "" → ¬ IsFixed q →
      (∀ cwd, resolve (p ++ "/" ++ q) cwd = resolve q (resolve p cwd)) ∧
      ∀ s first second both, Text.words first = ["cd", p] → Text.words second = ["cd", q] →
        Text.words both = ["cd", p ++ "/" ++ q] → (execute context s first).hasErrors = false →
        (execute context ((execute context s first).patch.apply s) second).MoveAlike
          (execute context s both)) ∧
    ∀ cwd path m, Canonical cwd → Canonical path → (Path.segments cwd).length ≤ m →
      resolve (Path.upwards m (Text.drop 1 path)) cwd = path := by
  refine ⟨fun p q hp hq => ⟨Path.resolve_append hp hq, ?_⟩, ?_⟩
  · intro s first second both hfirst hsecond hboth hok
    exact execute_cd_append context hp hq hfirst hsecond hboth hok
  · intro cwd path m hcwd hpath hm
    exact Path.resolve_upwards hcwd hpath hm

/-- Through the home directory and up again, and up from a place that is not as deep. -/
theorem resolve_stepwise_home :
    resolve "~/../x/./y" "/tmp" = resolve "./y" "/home/x" ∧
    (execute {} ((execute {} { cwd := "/tmp" } "cd ~").patch.apply { cwd := "/tmp" })
      "cd ../../etc").MoveAlike (execute {} { cwd := "/tmp" } "cd ~/../../etc") ∧
    resolve "./../../../var/log" "/home/user" = "/var/log" := by
  obtain ⟨happend, hup⟩ := resolve_stepwise {}
  have hresolve := (happend "~/../x" "./y" (by decide) (by decide)).1 "/tmp"
  have hcd := (happend "~" "../../etc" (by decide) (by decide)).2 { cwd := "/tmp" } "cd ~"
    "cd ../../etc" "cd ~/../../etc" (by decide +kernel) (by decide +kernel) (by decide +kernel)
    (by decide +kernel)
  have hlog := hup "/home/user" "/var/log" 3 (by decide) (by decide) (by decide +kernel)
  have hstop : resolve "~/../x" "/tmp" = "/home/x" := by decide +kernel
  have hexpr : Path.upwards 3 (Text.drop 1 "/var/log") = "./../../../var/log" := by decide +kernel
  exact ⟨hstop ▸ hresolve, hcd, hexpr ▸ hlog⟩

end PuzzleShell
