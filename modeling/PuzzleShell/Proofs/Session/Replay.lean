import Mathlib.Data.List.DropRight
import PuzzleShell.Proofs.Session.Steps
import PuzzleShell.Proofs.Text.Words

/-!
# Replaying a session

Lines, saves and closings are answered with outcomes. The log of a run lists these outcomes, each
with its step and the directory in which it came about. Everything in the state after the run can
be read off the log: the patches of the outcomes, applied one after the other, give its world, the
lines that were run give its command history, and the entries since the screen was cleared last
give its output history.
-/

namespace PuzzleShell

namespace Step

def hasOutcome : Step → Bool
  | .run .. | .save _ | .close => true
  | _ => false

def command? : Step → Option String
  | .run line _ => if Text.strip line = "" then none else some (Text.strip line)
  | _ => none

/-- The screen is cleared by the lines that run `clear`. -/
def clears : Step → Bool
  | .run line _ => commandOf? line == some .clear
  | _ => false

end Step

def Answer.toOutcome : Answer → Outcome
  | .outcome o => o
  | _ => {}

def replay (state : State) (outcomes : List Outcome) : State :=
  outcomes.foldl (fun s o => o.patch.apply s) state

theorem world_replay (state : State) (outcomes : List Outcome) :
    (replay state.world outcomes).world = (replay state outcomes).world := by
  induction outcomes generalizing state with
  | nil => rfl
  | cons o outcomes ih =>
    change (replay (o.patch.apply state.world) outcomes).world =
      (replay (o.patch.apply state) outcomes).world
    rw [← ih, world_apply, ih]

section Lines

variable {line : String} (context : Context) (s : State)

theorem commandOf?_strip (line : String) : commandOf? (Text.strip line) = commandOf? line := by
  unfold commandOf?
  rw [Text.words_strip]

theorem command_of_words {c : Command} (h : commandOf? line = some c) :
    ∃ name args, Text.words line = name :: args ∧ Command.ofName? name = some c := by
  obtain ⟨name, hname, hc⟩ := Option.bind_eq_some_iff.1 h
  obtain ⟨args, hwords⟩ := List.head?_eq_some_iff.1 hname
  exact ⟨name, args, hwords, hc⟩

theorem execute_clear (h : commandOf? line = some .clear) :
    execute context s line = Shell.clear := by
  obtain ⟨name, args, hwords, hc⟩ := command_of_words h
  exact execute_of_run hwords hc rfl

theorem execute_history (h : commandOf? line = some .history) :
    execute context s line = .print (Shell.numbered 1 s.commandHistory) := by
  obtain ⟨name, args, hwords, hc⟩ := command_of_words h
  exact execute_of_run hwords hc rfl

theorem execute_histories (line : String) :
    (execute context s line).patch.commandHistory = none ∧
      (commandOf? line ≠ some .clear → (execute context s line).patch.outputHistory = none) := by
  rcases execute_cases context s line with hempty | ⟨i, c, hi, hc, hrun⟩
  · rw [hempty]
    exact ⟨rfl, fun _ => rfl⟩
  · have hwithin := Shell.run_within _ hrun
    have hcommand : commandOf? line = some c := (commandOf?_of_input hi).trans hc
    refine ⟨?_, fun hclear => ?_⟩
    · have hsets : (execute context s line).patch.sets .commandHistory = false :=
        hwithin.sets_eq_false (by cases c <;> decide)
      simpa [Patch.sets] using hsets
    · have hne : c ≠ .clear := fun he => hclear (he ▸ hcommand)
      have hsets : (execute context s line).patch.sets .outputHistory = false :=
        hwithin.sets_eq_false (by revert hne; cases c <;> decide)
      simpa [Patch.sets] using hsets

end Lines

namespace Session

/-- A step, the directory in which it was taken and what came of it. -/
structure Entry where
  cwd : String
  step : Step
  outcome : Outcome
deriving DecidableEq

namespace Entry

/-- What the step adds to the screen; a line is echoed after the prompt of its directory. -/
def lines (prompt : String → String) (e : Entry) : List Line :=
  match e.step with
  | .run line _ => ⟨.input, prompt e.cwd ++ Text.strip line⟩ :: e.outcome.lines
  | _ => e.outcome.lines

def display (prompt : String → String) (screen : List Line) (e : Entry) : List Line :=
  if e.step.clears then [] else screen ++ e.lines prompt

/-- Only what was shown since the screen was cleared last is still on it. -/
theorem foldl_display (prompt : String → String) (entries : List Entry) :
    entries.foldl (display prompt) [] =
      (entries.rtakeWhile (!·.step.clears)).flatMap (lines prompt) := by
  induction entries using List.reverseRecOn with
  | nil => rfl
  | append_singleton entries e ih =>
    rw [List.foldl_append, ih, List.rtakeWhile_concat, List.foldl_cons, List.foldl_nil, display]
    cases e.step.clears <;> simp

end Entry

def entry (s : Session) (x : Step) : Entry := ⟨s.state.cwd, x, (s.step x).1.toOutcome⟩

def log (s : Session) : List Step → List Entry
  | [] => []
  | x :: rest => s.entry x :: (s.step x).2.log rest

theorem outcomeOf_histories (s : Session) (line : String) (now : Moment) :
    (s.outcomeOf line now).1.patch.commandHistory = none ∧ (commandOf? line ≠ some .clear →
      (s.outcomeOf line now).1.patch.outputHistory = none) := by
  by_cases hline : line = "hint"
  · rw [hline, outcomeOf_hint]
    exact ⟨rfl, fun _ => rfl⟩
  · rw [outcomeOf_of_ne hline]
    exact execute_histories (s.context now) s.state line

theorem outcomeOf_clear (s : Session) {line : String} (h : commandOf? line = some .clear)
    (now : Moment) : (s.outcomeOf line now).1 = Shell.clear := by
  have hline : line ≠ "hint" := by
    rintro rfl
    revert h
    decide +kernel
  rw [outcomeOf_of_ne hline, execute_clear _ _ h]

/-- What one step does to a state, told by its entry in the log. -/
structure Logged (prompt : String → String) (s : Session) (x : Step) : Prop where
  answer : (s.step x).1 = .outcome (s.entry x).outcome
  world : (s.step x).2.state.world = ((s.entry x).outcome.patch.apply s.state).world
  commands : (s.step x).2.state.commandHistory = s.state.commandHistory ++ x.command?.toList
  screen : (s.step x).2.state.outputHistory = (s.entry x).display prompt s.state.outputHistory

variable {prompt : String → String} {s : Session}

theorem logged_run (hp : s.prompt = .ok (prompt s.state.cwd)) (line : String) (now : Moment) :
    s.Logged prompt (.run line now) := by
  have hstep : s.step (.run line now) = _ := step_run_of_prompt hp
  have houtcome : (s.entry (.run line now)).outcome = (s.outcomeOf (Text.strip line) now).1 := by
    rw [entry, hstep]
    rfl
  obtain ⟨hcommands, hscreen⟩ := s.outcomeOf_histories (Text.strip line) now
  refine ⟨?_, ?_, ?_, ?_⟩
  · rw [houtcome, hstep]
  · rw [houtcome, hstep, world_afterLine, state_outcomeOf]
  · rw [hstep]
    change (record _ _ _ _).commandHistory = _
    simp only [record, Patch.apply, hcommands, Option.getD_none, state_outcomeOf, Step.command?]
    split <;> simp
  · rw [hstep, Entry.display, Entry.lines, houtcome]
    change (record _ _ _ _).outputHistory = if (Step.run line now).clears then _ else _ ++ (_ :: _)
    by_cases hclear : commandOf? line = some .clear
    · have hclears : (Step.run line now).clears = true := by simp [Step.clears, hclear]
      rw [if_pos hclears, s.outcomeOf_clear ((commandOf?_strip line).trans hclear)]
      rfl
    · have hclears : (Step.run line now).clears = false := by simpa [Step.clears] using hclear
      rw [← commandOf?_strip] at hclear
      simp only [record, hscreen hclear, hclears, state_outcomeOf, entry]
      simp

theorem save_histories (state : State) (content : Option String) :
    (Editor.save state content).patch.commandHistory = none ∧
      (Editor.save state content).patch.outputHistory = none := by
  unfold Editor.save
  split
  · exact ⟨rfl, rfl⟩
  · dsimp only
    split <;> exact ⟨rfl, rfl⟩

theorem step_logged {x : Step} (hx : x.hasOutcome = true)
    (hp : s.prompt = .ok (prompt s.state.cwd)) : s.Logged prompt x := by
  cases x with
  | run line now => exact logged_run hp line now
  | save content =>
    obtain ⟨hcommands, hscreen⟩ := save_histories s.state content
    refine ⟨rfl, rfl, ?_, ?_⟩
    · rw [step_save]
      simp [accept, moveTo, Patch.apply, hcommands, Step.command?]
    · rw [step_save]
      simp [accept, moveTo, Patch.apply, hscreen, Entry.display, Entry.lines, Step.clears, entry,
        step_save, Answer.toOutcome]
  | close => exact ⟨rfl, rfl, (List.append_nil _).symm, rfl⟩
  | hint | complete | prompt | restart => cases hx

structure Replays (prompt : String → String) (s : Session) (xs : List Step) : Prop where
  answers : (s.steps xs).1 = (s.log xs).map (.outcome ·.outcome)
  world : (s.steps xs).2.state.world =
    (replay s.state ((s.log xs).map (·.outcome))).world
  commands : (s.steps xs).2.state.commandHistory =
    s.state.commandHistory ++ xs.filterMap Step.command?
  screen : (s.steps xs).2.state.outputHistory =
    (s.log xs).foldl (Entry.display prompt) s.state.outputHistory

theorem steps_replays {xs : List Step} (hxs : ∀ x ∈ xs, x.hasOutcome = true)
    (hprompt : ∀ e ∈ s.log xs, s.config.prompt s.objects e.cwd = .ok (prompt e.cwd)) :
    s.Replays prompt xs := by
  induction xs generalizing s with
  | nil => exact ⟨rfl, rfl, (List.append_nil _).symm, rfl⟩
  | cons x xs ih =>
    obtain ⟨hx, hxs⟩ := List.forall_mem_cons.1 hxs
    rw [log, List.forall_mem_cons] at hprompt
    obtain ⟨hhead, hrest⟩ := hprompt
    have hstep : s.Logged prompt x := step_logged hx hhead
    have hrun : (s.step x).2.Replays prompt xs := by
      refine ih hxs fun e he => ?_
      rw [setup_step]
      exact hrest e he
    refine ⟨?_, ?_, ?_, ?_⟩
    · rw [steps_cons, log, List.map_cons, hrun.answers, hstep.answer]
    · rw [steps_cons, hrun.world, ← world_replay, hstep.world, world_replay]
      rfl
    · rw [steps_cons, hrun.commands, hstep.commands, List.append_assoc, List.filterMap_cons]
      cases x.command? <;> rfl
    · rw [steps_cons, hrun.screen, hstep.screen]
      rfl

theorem numbered_eq_mapIdx (n : Nat) (lines : List String) :
    Shell.numbered n lines = lines.mapIdx fun i line =>
      let number := n + i
      s!"  {number}  {line}" := by
  induction lines generalizing n with
  | nil => rfl
  | cons line lines ih =>
    rw [Shell.numbered, ih, List.mapIdx_cons]
    simp [Nat.add_assoc, Nat.add_comm 1]

/-- The state of a session after any lines, savings and closings, told by its log. -/
theorem replay_steps (mission : Option Mission) (config : Config) (objects : Prompt.Objects)
    {prompt : String → String} {xs : List Step} (hxs : ∀ x ∈ xs, x.hasOutcome = true)
    (hprompt : ∀ e ∈ (start mission config objects).log xs,
      config.prompt objects e.cwd = .ok (prompt e.cwd)) :
    let s := start mission config objects
    let t := (s.steps xs).2
    (s.steps xs).1 = (s.log xs).map (.outcome ·.outcome) ∧
    t.state.world = (replay s.state ((s.log xs).map (·.outcome))).world ∧
    t.state.commandHistory = xs.filterMap Step.command? ∧
    (∀ line now text, commandOf? line = some .history → t.prompt = .ok text →
      (t.step (.run line now)).1 = .outcome (.print ((xs.filterMap Step.command?).mapIdx
        fun i command =>
          let number := i + 1
          s!"  {number}  {command}"))) ∧
    t.state.outputHistory =
      ((s.log xs).rtakeWhile (!·.step.clears)).flatMap (Entry.lines prompt) := by
  intro s t
  have hrun : s.Replays prompt xs := steps_replays hxs hprompt
  have hfresh : s.state.commandHistory = [] ∧ s.state.outputHistory = [] := by
    cases mission <;> exact ⟨rfl, rfl⟩
  have hcommands : t.state.commandHistory = xs.filterMap Step.command? := by
    rw [hrun.commands, hfresh.1, List.nil_append]
  refine ⟨hrun.answers, hrun.world, hcommands, fun line now text hline hp => ?_, ?_⟩
  · have hne : Text.strip line ≠ "hint" := by
      intro he
      rw [← commandOf?_strip, he] at hline
      revert hline
      decide +kernel
    rw [step_run_of_prompt hp, outcomeOf_of_ne hne,
      execute_history _ _ ((commandOf?_strip line).trans hline), hcommands, numbered_eq_mapIdx]
    simp only [Nat.add_comm 1]
  · rw [hrun.screen, hfresh.2, Entry.foldl_display]

/-- A blank line, a hint and an error are shown after the screen was cleared in another directory,
all behind a prompt that begins with the name of a class. -/
theorem replay_steps_clear :
    let config : Config := { promptFormat := "\x7bcwd.__class__.__name__\x7d:\x7bcwd\x7d$ " }
    let s := start none config .small
    let xs : List Step := [.run "nano a", .run "cd /etc", .run " clear now ", .run "", .run "hint",
      .save (some "x"), .run "cat b", .close]
    let t := (s.steps xs).2
    t.state.commandHistory = ["nano a", "cd /etc", "clear now", "hint", "cat b"] ∧
    t.state.outputHistory = [⟨.input, "str:/etc$ "⟩, ⟨.input, "str:/etc$ hint"⟩,
      .info "No more hints available.", .success "File saved: /home/user/a",
      ⟨.input, "str:/etc$ cat b"⟩, .error "cat: b: No such file or directory"] := by
  intro config s xs
  let prompt (cwd : String) : String := "str:" ++ cwd ++ "$ "
  have hxs : ∀ x ∈ xs, x.hasOutcome = true := by decide +kernel
  have hprompt : ∀ e ∈ s.log xs, config.prompt .small e.cwd = .ok (prompt e.cwd) := by
    decide +kernel
  have hrun := replay_steps none config .small hxs hprompt
  dsimp only at hrun ⊢
  obtain ⟨-, -, hcommands, -, hscreen⟩ := hrun
  rw [hcommands, hscreen]
  constructor
  · decide +kernel
  · decide +kernel

end Session

end PuzzleShell
