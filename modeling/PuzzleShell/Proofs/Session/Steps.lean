import PuzzleShell.Proofs.Shell.World
import PuzzleShell.Session

/-!
# What a step does to a session

`Session.Moves` says in five cases what one step can make of the world of a session; from it follows
what a whole list of steps preserves.
-/

namespace PuzzleShell

namespace Session

@[simp] theorem steps_cons (s : Session) (x : Step) (rest : List Step) :
    s.steps (x :: rest) =
      ((s.step x).1 :: ((s.step x).2.steps rest).1, ((s.step x).2.steps rest).2) := rfl

theorem steps_preserve {P : Session → Prop} (hstep : ∀ s x, P s → P (s.step x).2) {s : Session}
    (h : P s) (xs : List Step) : P (s.steps xs).2 := by
  induction xs generalizing s with
  | nil => exact h
  | cons x xs ih => exact ih (hstep s x h)

/-- What a step can make of the world of a session. -/
inductive Moves (s : Session) (world : State) : Prop
  | stay (h : world = s.state.world)
  | line (line : String) (now : Moment)
    (h : world = ((execute (s.context now) s.state line).patch.apply s.state).world)
  | save (content : Option String)
    (h : world = ((Editor.save s.state content).patch.apply s.state).world)
  | close (h : world = (Editor.close.patch.apply s.state).world)
  | restart (h : world = (initialState s.mission).world)

def hintLine (s : Session) : Line :=
  let number := s.hintsUsed + 1
  let limit := s.hintLimit
  let hint := (s.hintAt? s.hintsUsed).getD ""
  .info s!"Hint {number}/{limit}: {hint}"

theorem giveHint_of_lt {s : Session} (h : s.hintsUsed < s.hintLimit) :
    s.giveHint = (s.hintLine, { s with hintsUsed := s.hintsUsed + 1 }) := by
  unfold giveHint
  rw [if_pos h]
  rfl

theorem giveHint_of_not_lt {s : Session} (h : ¬ s.hintsUsed < s.hintLimit) :
    s.giveHint = (.info "No more hints available.", s) := by
  unfold giveHint
  rw [if_neg h]

theorem giveHint_eq (s : Session) :
    s.giveHint.2 = { s with hintsUsed := s.giveHint.2.hintsUsed } := by
  unfold giveHint
  split <;> rfl

theorem state_giveHint (s : Session) : s.giveHint.2.state = s.state := by rw [giveHint_eq]

theorem setup_giveHint (s : Session) : s.giveHint.2.toSetup = s.toSetup := by rw [giveHint_eq]

section Line

variable (s : Session) (text line : String) (now : Moment)

theorem outcomeOf_hint :
    s.outcomeOf "hint" now = ({ lines := [s.giveHint.1] }, s.giveHint.2) := by
  unfold outcomeOf
  rw [if_pos rfl]

variable {s line now} in
theorem outcomeOf_of_ne (h : line ≠ "hint") :
    s.outcomeOf line now = (execute (s.context now) s.state line, s) := by
  unfold outcomeOf
  rw [if_neg h]

/-- Answering a line changes nothing in a session but the count of its hints. -/
theorem outcomeOf_eq : (s.outcomeOf line now).2 =
    { s with hintsUsed := (s.outcomeOf line now).2.hintsUsed } := by
  by_cases hline : line = "hint"
  · rw [hline, outcomeOf_hint]
    exact s.giveHint_eq
  · rw [outcomeOf_of_ne hline]

theorem state_outcomeOf : (s.outcomeOf line now).2.state = s.state := by rw [outcomeOf_eq]

theorem setup_outcomeOf : (s.outcomeOf line now).2.toSetup = s.toSetup := by rw [outcomeOf_eq]

theorem completed_outcomeOf : (s.outcomeOf line now).2.completed = s.completed := by
  rw [outcomeOf_eq]

/-- The session after a line that was asked for with the prompt `text`. -/
def afterLine : Session :=
  (s.outcomeOf line now).2.moveTo
    (record (s.outcomeOf line now).2.state ⟨.input, text ++ line⟩ line (s.outcomeOf line now).1)

variable {s text line now} in
theorem step_run_of_prompt (h : s.prompt = .ok text) : s.step (.run line now) =
    (.outcome (s.outcomeOf (Text.strip line) now).1, s.afterLine text (Text.strip line) now) := by
  simp only [step, run, h, bind, Except.bind, pure, Except.pure, afterLine]

variable {s line now} in
theorem step_run_of_error {e : PromptError} (h : s.prompt = .error e) :
    s.step (.run line now) = (.failed e, s) := by
  simp only [step, run, h, bind, Except.bind]

theorem world_afterLine : (s.afterLine text line now).state.world =
    ((s.outcomeOf line now).1.patch.apply (s.outcomeOf line now).2.state).world := rfl

theorem setup_afterLine : (s.afterLine text line now).toSetup = s.toSetup :=
  s.setup_outcomeOf line now

theorem hintsUsed_afterLine :
    (s.afterLine text line now).hintsUsed = (s.outcomeOf line now).2.hintsUsed := rfl

end Line

theorem step_save (s : Session) (content : Option String) : s.step (.save content) =
    (.outcome (Editor.save s.state content), s.accept (Editor.save s.state content)) := rfl

theorem step_close (s : Session) :
    s.step .close = (.outcome Editor.close, s.accept Editor.close) := rfl

theorem step_hint (s : Session) : s.step .hint = (.hint s.giveHint.1, s.giveHint.2) := rfl

theorem step_restart (s : Session) :
    s.step .restart = (.restarted (initialState s.mission), s.restart) := rfl

theorem step_prompt (s : Session) : (s.step .prompt).2 = s := by
  unfold step
  dsimp only
  split <;> rfl

theorem step_moves (s : Session) (x : Step) : s.Moves (s.step x).2.state.world := by
  cases x with
  | run line now =>
    cases hp : s.prompt with
    | error e =>
      rw [step_run_of_error hp]
      exact .stay rfl
    | ok text =>
      rw [step_run_of_prompt hp, world_afterLine]
      by_cases hline : Text.strip line = "hint"
      · rw [hline, outcomeOf_hint]
        dsimp only
        rw [state_giveHint]
        exact .stay rfl
      · rw [outcomeOf_of_ne hline]
        exact .line (Text.strip line) now rfl
  | save content => exact .save content rfl
  | close => exact .close rfl
  | hint => exact .stay (congrArg State.world s.state_giveHint)
  | complete line => exact .stay rfl
  | prompt =>
    rw [step_prompt]
    exact .stay rfl
  | restart => exact .restart rfl

/-- A step does one of six things to a session. -/
theorem step_elim {P : Session → Prop} {s : Session} (stay : P s)
    (line : ∀ text line now, P (s.afterLine text line now)) (edit : ∀ o, P (s.accept o))
    (hint : P s.giveHint.2) (complete : ∀ line, P (s.complete line)) (restart : P s.restart)
    (x : Step) : P (s.step x).2 := by
  cases x with
  | run typed now =>
    cases hp : s.prompt with
    | error e =>
      rw [step_run_of_error hp]
      exact stay
    | ok text =>
      rw [step_run_of_prompt hp]
      exact line text _ now
  | save content => exact edit _
  | close => exact edit _
  | hint => exact hint
  | complete typed => exact complete typed
  | prompt =>
    rw [step_prompt]
    exact stay
  | restart => exact restart

theorem setup_step (s : Session) (x : Step) : (s.step x).2.toSetup = s.toSetup :=
  step_elim (P := fun t => t.toSetup = s.toSetup) rfl s.setup_afterLine (fun _ => rfl)
    s.setup_giveHint (fun _ => rfl) rfl x

/-- What holds of the world at the start and is kept by the editor and, with this setup, by
lines holds of the world after any steps. -/
theorem steps_invariant_of_setup {P : State → Prop} (hworld : ∀ s : State, P s.world ↔ P s)
    {s : Session}
    (hexecute : ∀ now state line, P state →
      P ((execute (s.context now) state line).patch.apply state))
    (hsave : ∀ s content, P s → P ((Editor.save s content).patch.apply s))
    (hclose : ∀ s, P s → P (Editor.close.patch.apply s))
    (hstart : P (initialState s.mission)) (h : P s.state) (xs : List Step) :
    P (s.steps xs).2.state := by
  let Kept : Session → Prop := fun t => t.toSetup = s.toSetup ∧ P t.state
  have hstep : ∀ t x, Kept t → Kept (t.step x).2 := by
    rintro t x ⟨hsetup, h⟩
    refine ⟨?_, (hworld _).1 ?_⟩
    · rwa [setup_step]
    · cases t.step_moves x with
      | stay hw => rwa [hw, hworld]
      | line line now hw => rw [hw, hworld, hsetup]; exact hexecute now _ _ h
      | save content hw => rw [hw, hworld]; exact hsave _ _ h
      | close hw => rw [hw, hworld]; exact hclose _ h
      | restart hw => rwa [hw, hworld, hsetup]
  have hkept : Kept s := ⟨rfl, h⟩
  exact (steps_preserve hstep hkept xs).2

/-- What holds of the world at the start and is kept by lines and by the editor holds of the world
after any steps. -/
theorem steps_invariant {P : State → Prop} (hworld : ∀ s : State, P s.world ↔ P s)
    (hexecute : ∀ context s line, P s → P ((execute context s line).patch.apply s))
    (hsave : ∀ s content, P s → P ((Editor.save s content).patch.apply s))
    (hclose : ∀ s, P s → P (Editor.close.patch.apply s))
    {s : Session} (hstart : P (initialState s.mission)) (h : P s.state) (xs : List Step) :
    P (s.steps xs).2.state :=
  steps_invariant_of_setup hworld (fun now => hexecute (s.context now)) hsave hclose hstart h xs

end Session

end PuzzleShell
