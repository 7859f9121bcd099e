import PuzzleShell.Proofs.Completion
import PuzzleShell.Proofs.Session.Hints
import PuzzleShell.Proofs.Session.Winning
import PuzzleShell.Proofs.Tree.Success

/-!
# All or nothing

The prompt is rendered before a line is answered, and nothing after that can fail: what goes wrong
in a command is one line of its answer, a save is refused for one of two reasons, and neither the
hints nor the suggestions are asked for anything out of range. So a step fails with the error of the
prompt and leaves no trace, or it does everything that belongs to it; and the steps of a run that
fail can be left out of it.
-/

namespace PuzzleShell

def Step.showsPrompt : Step → Bool
  | .run .. | .prompt => true
  | _ => false

namespace Session

variable {s : Session}

theorem step_eq_failed_iff {x : Step} {e : PromptError} :
    (s.step x).1 = .failed e ↔ x.showsPrompt = true ∧ s.prompt = .error e := by
  cases x with
  | run line now =>
    cases hp : s.prompt with
    | error e' => simp [step_run_of_error hp, Step.showsPrompt]
    | ok text => simp [step_run_of_prompt hp, Step.showsPrompt]
  | prompt =>
    unfold step
    cases s.prompt <;> simp [Step.showsPrompt]
  | save | close | hint | complete | restart => simp [step, Step.showsPrompt]

theorem memory_outcomeOf (s : Session) (line : String) (now : Moment) :
    (s.outcomeOf line now).2.memory = s.memory := by rw [outcomeOf_eq]

theorem memory_afterLine (s : Session) (text line : String) (now : Moment) :
    (s.afterLine text line now).memory = s.memory :=
  s.memory_outcomeOf line now

theorem hintsUsed_outcomeOf (s : Session) (line : String) (now : Moment) :
    (s.outcomeOf line now).2.hintsUsed =
      s.hintsUsed + if line = "hint" ∧ s.hintsUsed < s.hintLimit then 1 else 0 := by
  by_cases hline : line = "hint"
  · rw [hline, outcomeOf_hint]
    by_cases hlt : s.hintsUsed < s.hintLimit
    · rw [giveHint_of_lt hlt, if_pos ⟨rfl, hlt⟩]
    · rw [giveHint_of_not_lt hlt, if_neg fun h => hlt h.2, Nat.add_zero]
  · rw [outcomeOf_of_ne hline, if_neg fun h => hline h.1, Nat.add_zero]

theorem inRange_steps (hstart : s.memory = none) (xs : List Step) :
    ∀ c ∈ (s.steps xs).2.memory, c.InRange := by
  have hnone : ∀ c ∈ s.memory, c.InRange := by simp [hstart]
  refine steps_preserve (P := fun t => ∀ c ∈ t.memory, c.InRange) (fun t x h => ?_) hnone xs
  refine step_elim (P := fun t => ∀ c ∈ t.memory, c.InRange) h (fun text line now => ?_)
    (fun _ => h) ?_ (fun _ => Completion.inRange_complete h) (fun _ hc => nomatch hc) x
  · rwa [memory_afterLine]
  · rwa [giveHint_eq]

theorem execute_of_fault {context : Context} {state : State} {line name : String}
    {args : List String} {c : Command} {f : Fault} (hline : Text.words line = name :: args)
    (hc : Command.ofName? name = some c)
    (hf : Shell.run { name, args, state, context } c = .error f) :
    execute context state line = .fail (name ++ ": internal error") := by
  rw [execute_of_words hline, Shell.answer]
  dsimp only
  rw [hc]
  dsimp only
  rw [hf]
  rfl

/-- All that has to be done for a line when the prompt is `text`. -/
structure Performed (s : Session) (text line : String) (now : Moment) : Prop where
  logged : s.Logged (fun _ => text) (.run line now)
  hints : (s.step (.run line now)).2.hintsUsed =
    s.hintsUsed + if Text.strip line = "hint" ∧ s.hintsUsed < s.hintLimit then 1 else 0
  completed : (s.step (.run line now)).2.completed =
    (s.completed || s.mission.any (·.isWon (s.step (.run line now)).2.state))
  memory : (s.step (.run line now)).2.memory = s.memory

theorem performed_of_prompt {text : String} (hp : s.prompt = .ok text) (line : String)
    (now : Moment) : s.Performed text line now := by
  refine ⟨logged_run hp line now, ?_, ?_, ?_⟩
  · rw [step_run_of_prompt hp, hintsUsed_afterLine, hintsUsed_outcomeOf]
  · rw [step_run_of_prompt hp, completed_afterLine]
  · rw [step_run_of_prompt hp, memory_afterLine]

theorem answer_of_fault {text line name : String} {now : Moment} {args : List String}
    {c : Command} {f : Fault}
    (hp : s.prompt = .ok text) (hline : Text.words line = name :: args)
    (hc : Command.ofName? name = some c)
    (hf : Shell.run { name, args, state := s.state, context := s.context now } c = .error f) :
    (s.step (.run line now)).1 = .outcome (.fail (name ++ ": internal error")) := by
  have hwords : Text.words (Text.strip line) = name :: args := by rw [Text.words_strip, hline]
  have hne : Text.strip line ≠ "hint" := by
    intro hhint
    have hnone : commandOf? "hint" = none := by decide +kernel
    rw [← hhint, commandOf?, hwords] at hnone
    cases hnone.symm.trans hc
  rw [step_run_of_prompt hp, outcomeOf_of_ne hne, execute_of_fault hwords hc hf]

def taken (s : Session) (xs : List Step) : List Step :=
  ((s.events xs).filter (!·.answer.isFailure)).map Event.step

/-- Without the steps that fail a run gives the other answers and ends in the same session. -/
theorem steps_taken (s : Session) (xs : List Step) :
    s.steps (s.taken xs) = ((s.steps xs).1.filter (!·.isFailure), (s.steps xs).2) := by
  induction xs generalizing s with
  | nil => rfl
  | cons x xs ih =>
    have hanswer : Event.answer ⟨s, x⟩ = (s.step x).1 := rfl
    rw [taken, events, List.filter_cons, steps_cons, List.filter_cons, hanswer]
    cases hfails : (s.step x).1.isFailure with
    | true =>
      have hsame : (s.step x).2 = s := step_of_isFailure hfails
      rw [hsame]
      exact ih s
    | false =>
      have hrest := ih (s.step x).2
      rw [taken] at hrest
      rw [Bool.not_false, if_pos rfl, if_pos rfl, List.map_cons, steps_cons, hrest]

/-- Every step is taken as a whole or not at all. -/
structure Atomic (config : Config) (objects : Prompt.Objects) (s : Session) : Prop where
  fails : ∀ x e, (s.step x).1 = .failed e ↔
    x.showsPrompt = true ∧ config.prompt objects s.state.cwd = .error e
  nothing : ∀ x, (s.step x).1.isFailure = true → (s.step x).2 = s
  all : ∀ text line now, config.prompt objects s.state.cwd = .ok text →
    s.Performed text line now
  fault : ∀ text line now name args c f, config.prompt objects s.state.cwd = .ok text →
    Text.words line = name :: args → Command.ofName? name = some c →
    Shell.run { name, args, state := s.state, context := s.context now } c = .error f →
    (s.step (.run line now)).1 = .outcome (.fail (name ++ ": internal error"))
  save : ∀ path content e, s.state.tree.write path content = .error e →
    e = .isDirectory path ∨ e = .notFound path
  hint : s.hintsUsed < s.hintLimit → ∃ hint, s.hintAt? s.hintsUsed = some hint
  cycle : ∀ c ∈ s.memory, c.InRange
  taken : ∀ xs, s.steps (s.taken xs) = ((s.steps xs).1.filter (!·.isFailure), (s.steps xs).2)

/-- In every session, whatever was done before: only what shows the prompt can fail, with the error
of the prompt and before anything has changed; every other step, and every line after its prompt,
is carried through. -/
theorem atomic_steps (mission : Option Mission) (config : Config) (objects : Prompt.Objects)
    (xs : List Step) : ((start mission config objects).steps xs).2.Atomic config objects := by
  have hcycle : ∀ c ∈ ((start mission config objects).steps xs).2.memory, c.InRange :=
    inRange_steps rfl xs
  have hsetup : ((start mission config objects).steps xs).2.toSetup = ⟨mission, config, objects⟩ :=
    setup_steps _ xs
  generalize ((start mission config objects).steps xs).2 = s at hcycle hsetup
  have hprompt : s.prompt = config.prompt objects s.state.cwd := by rw [prompt, hsetup]
  constructor
  case fails =>
    intro x e
    rw [← hprompt]
    exact step_eq_failed_iff
  case nothing => exact fun x => step_of_isFailure
  case all => exact fun text line now hp => performed_of_prompt (hprompt.trans hp) line now
  case fault =>
    intro text line now name args c f hp hline hc hf
    exact answer_of_fault (hprompt.trans hp) hline hc hf
  case save => exact fun path content e => FileTree.write_eq_error
  case hint => exact exists_hintAt
  case cycle => exact hcycle
  case taken => exact s.steps_taken

/-- The prompt shows a class and a letter that only longer directories have. A hint asked for by a
line at the root is not given, and the mission that the line would win is not won; the next request
is. -/
theorem atomic_steps_root :
    let config : Config := { promptFormat := "\x7buser.__class__\x7d \x7bcwd[5]\x7d$ " }
    let mission : Mission := { hints := ["a"], isWon := fun s => s.commandHistory.length = 2 }
    let s := ((start (some mission) config .small).steps
      [.run "cd /", .complete "ca"]).2
    (s.step (.run " hint ")).1 = .failed .outOfRange ∧ (s.step (.run " hint ")).2 = s ∧
    s.hintsUsed = 0 ∧ s.completed = false ∧
    (s.step .hint).1 = .hint (.info "Hint 1/1: a") ∧
    s.steps (s.taken [.run "hint", .prompt, .hint]) =
      ([.hint (.info "Hint 1/1: a")], (s.step .hint).2) := by
  intro config mission s
  have hatomic : s.Atomic config .small := atomic_steps _ config .small _
  have hprompt : config.prompt .small s.state.cwd = .error .outOfRange := by decide +kernel
  have hfails : (s.step (.run " hint ")).1 = .failed .outOfRange :=
    (hatomic.fails _ _).2 ⟨rfl, hprompt⟩
  have hhint : (s.step .hint).1 = .hint (.info "Hint 1/1: a") := by decide +kernel
  have hrun : (s.steps [.run "hint", .prompt, .hint]).1.filter (!·.isFailure) =
      [.hint (.info "Hint 1/1: a")] := by decide +kernel
  have hend : (s.steps [.run "hint", .prompt, .hint]).2 = (s.step .hint).2 := by
    have hsame : (s.step (.run "hint")).2 = s :=
      hatomic.nothing _ (by rw [(hatomic.fails _ _).2 ⟨rfl, hprompt⟩]; rfl)
    rw [steps_cons, hsame, steps_cons, step_prompt]
    rfl
  refine ⟨hfails, hatomic.nothing _ (by rw [hfails]; rfl), by decide +kernel, by decide +kernel,
    hhint, ?_⟩
  rw [hatomic.taken, hrun, hend]

end Session

end PuzzleShell
