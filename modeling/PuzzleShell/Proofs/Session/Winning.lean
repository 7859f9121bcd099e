import PuzzleShell.Proofs.Session.Attempt
import PuzzleShell.Proofs.Session.Replay

/-!
# Completing a mission

A mission is completed by the state right after a line, a save or a closing, and stays completed
until the next restart. No other step looks at the condition, and a step that fails does not either.
-/

namespace PuzzleShell

namespace Session

/-- The step leads to a state in which the mission is won. -/
def Event.wins (e : Event) : Bool :=
  e.step.hasOutcome && !e.answer.isFailure && e.session.mission.any (·.isWon e.after.state)

theorem Event.wins_iff {e : Event} {mission : Option Mission} (h : e.session.mission = mission) :
    e.wins = true ↔ ∃ m ∈ mission, e.step.hasOutcome = true ∧ e.answer.isFailure = false ∧
      m.isWon e.after.state = true := by
  rw [wins, h]
  cases mission <;> simp [and_assoc]

variable {s : Session}

theorem completed_giveHint (s : Session) : s.giveHint.2.completed = s.completed := by
  rw [giveHint_eq]

theorem completed_afterLine (s : Session) (text line : String) (now : Moment) :
    (s.afterLine text line now).completed =
      (s.completed || s.mission.any (·.isWon (s.afterLine text line now).state)) := by
  rw [← completed_outcomeOf s line now, ← setup_outcomeOf s line now]
  rfl

theorem completed_step {x : Step} (hx : x ≠ .restart) :
    (s.step x).2.completed = (s.completed || Event.wins ⟨s, x⟩) := by
  cases x with
  | run line now =>
    cases hp : s.prompt with
    | error e =>
      have hwins : Event.wins ⟨s, .run line now⟩ = false := by
        simp [Event.wins, Event.answer, step_run_of_error hp, Answer.isFailure]
      rw [step_run_of_error hp, hwins, Bool.or_false]
    | ok text =>
      have hstep : s.step (.run line now) = _ := step_run_of_prompt hp
      have hwins : Event.wins ⟨s, .run line now⟩ =
          s.mission.any (·.isWon (s.afterLine text (Text.strip line) now).state) := by
        simp [Event.wins, Event.answer, Event.after, hstep, Answer.isFailure, Step.hasOutcome]
      rw [hstep, completed_afterLine, hwins]
  | save | close => rfl
  | hint => exact s.completed_giveHint.trans (Bool.or_false _).symm
  | complete => exact (Bool.or_false _).symm
  | prompt => rw [step_prompt]; exact (Bool.or_false _).symm
  | restart => exact absurd rfl hx

theorem completed_eq_any (hfresh : s.completed = false) (xs : List Step) :
    (s.steps xs).2.completed = (s.attempt xs).any Event.wins := by
  refine attempt_invariant (P := fun es t => t.completed = es.any Event.wins) hfresh
    (fun _ => rfl) (fun es t x hx h => ?_) xs
  rw [completed_step hx, h, List.any_append, List.any_cons, List.any_nil, Bool.or_false]

/-- When the session is completed after the steps `xs`, and which steps can change that. -/
structure Completes (s : Session) (xs : List Step) : Prop where
  iff : (s.steps xs).2.completed = true ↔ ∃ m ∈ s.mission, ∃ e ∈ s.attempt xs,
    e.step.hasOutcome = true ∧ e.answer.isFailure = false ∧ m.isWon e.after.state = true
  stays : (s.steps xs).2.completed = true → ∀ ys, .restart ∉ ys →
    ((s.steps xs).2.steps ys).2.completed = true
  kept : ∀ x : Step, x ≠ .restart →
    x.hasOutcome = false ∨ ((s.steps xs).2.step x).1.isFailure = true →
      ((s.steps xs).2.step x).2.completed = (s.steps xs).2.completed
  restart : ((s.steps xs).2.step .restart).2.completed = false
  never : s.mission = none → (s.steps xs).2.completed = false

/-- A mission is completed when the state after some line, save or closing since the last restart
has won it, and only then. From there on it stays completed, whatever becomes of that state. -/
theorem completes_start (mission : Option Mission) (config : Config) (objects : Prompt.Objects)
    (xs : List Step) : (start mission config objects).Completes xs := by
  have hfresh : (start mission config objects).completed = false := rfl
  generalize start mission config objects = s at hfresh ⊢
  have hiff : (s.steps xs).2.completed = true ↔ ∃ m ∈ s.mission, ∃ e ∈ s.attempt xs,
      e.step.hasOutcome = true ∧ e.answer.isFailure = false ∧ m.isWon e.after.state = true := by
    rw [completed_eq_any hfresh, List.any_eq_true]
    constructor
    · rintro ⟨e, he, hwins⟩
      obtain ⟨m, hm, hwon⟩ := (Event.wins_iff (congrArg Setup.mission (setup_of_mem_attempt he))).1 hwins
      exact ⟨m, hm, e, he, hwon⟩
    · rintro ⟨m, hm, e, he, hwon⟩
      exact ⟨e, he, (Event.wins_iff (congrArg Setup.mission (setup_of_mem_attempt he))).2 ⟨m, hm, hwon⟩⟩
  refine ⟨hiff, fun h ys => ?_, fun x hx h => ?_, rfl, fun hnone => ?_⟩
  · refine steps_preserve_of_notMem (P := fun u => u.completed = true) (fun u x hx hu => ?_) h
    rw [completed_step hx, hu, Bool.true_or]
  · have hwins : Event.wins ⟨(s.steps xs).2, x⟩ = false := by
      rcases h with houtcome | hfails
      · simp [Event.wins, houtcome]
      · simp [Event.wins, Event.answer, hfails]
    rw [completed_step hx, hwins, Bool.or_false]
  · rw [← Bool.not_eq_true, hiff, hnone]
    rintro ⟨m, hm, -⟩
    cases hm

/-- The directory that wins the mission is removed again before the session is looked at. -/
theorem completes_start_removed :
    let goal : Goal := .exists "/home/user/w"
    let s := start (some { isWon := fun state => goal.holds state }) {} .small
    let xs : List Step := [.run "mkdir w", .run "rm -r w"]
    goal.holds (s.steps xs).2.state = false ∧ (s.steps xs).2.completed = true ∧
    ((s.steps xs).2.steps [.hint, .close]).2.completed = true := by
  intro goal s xs
  let e : Event := ⟨s, .run "mkdir w"⟩
  have hwins : e.step.hasOutcome = true ∧ e.answer.isFailure = false ∧
      goal.holds e.after.state = true := by
    decide +kernel
  have hafter : goal.holds (s.steps xs).2.state = false := by decide +kernel
  have hrun : s.Completes xs := completes_start _ _ _ xs
  have hmem : e ∈ s.attempt xs := by
    have hlast : s.attempt ([.run "mkdir w"] ++ [.run "rm -r w"]) = _ :=
      attempt_concat s _ (by decide)
    exact hlast ▸ List.mem_append_left _ List.mem_cons_self
  have hcompleted : (s.steps xs).2.completed = true := hrun.iff.2 ⟨_, rfl, e, hmem, hwins⟩
  exact ⟨hafter, hcompleted, hrun.stays hcompleted [.hint, .close] (by decide)⟩

end Session

end PuzzleShell
