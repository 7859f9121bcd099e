import PuzzleShell.Proofs.Session.Steps
import PuzzleShell.Proofs.Text.Words

/-!
# Erasing read-only lines

A line is read-only when its command only prints, or when it names no command and asks for no hint.
Two sessions agree when they differ at most in their histories and in what the completer remembers.
A step that matters gets the same answer in both, even if it is taken at another time, and keeps
them in agreement; any other step leaves a session in agreement with what it was. So the steps that
do not matter can be left out.
-/

namespace PuzzleShell

/-- Blank lines, read-only commands, scripts, version queries and unknown names; the line that asks
for a hint is none of these. -/
def isReadOnly (line : String) : Bool :=
  match Input.ofLine? line with
  | none => true
  | some i => match i.command? with
    | some c => Command.readOnly.contains c
    | none => i.raw != "hint"

/-- Completing a line and showing the prompt only look at the session. -/
def Step.isQuery : Step → Bool
  | .complete _ | .prompt => true
  | _ => false

def Step.matters : Step → Bool
  | .run line _ => !isReadOnly line
  | x => !x.isQuery

def Step.untimed : Step → Step
  | .run line _ => .run line
  | x => x

def answersTo (p : Step → Bool) (xs : List Step) (answers : List Answer) : List Answer :=
  ((xs.zip answers).filter fun entry => p entry.1).map (·.2)

theorem answersTo_cons (p : Step → Bool) (x : Step) (xs : List Step) (a : Answer)
    (answers : List Answer) : answersTo p (x :: xs) (a :: answers) =
      if p x = true then a :: answersTo p xs answers else answersTo p xs answers := by
  unfold answersTo
  rw [List.zip_cons_cons, List.filter_cons]
  split <;> rfl

theorem command_of_isReadOnly {line : String} (h : isReadOnly line = true) {i : Input}
    {c : Command} (hi : Input.ofLine? (Text.strip line) = some i) (hc : i.command? = some c) :
    c ∈ Command.readOnly := by
  rw [Input.ofLine?_strip] at hi
  obtain ⟨j, hj, rfl⟩ := Option.map_eq_some_iff.1 hi
  change j.command? = some c at hc
  simp only [isReadOnly, hj, hc] at h
  exact List.contains_iff_mem.1 h

theorem isReadOnly_of_strip_eq_hint {line : String} (h : Text.strip line = "hint") :
    isReadOnly line = false := by
  have hword : Text.words line = ["hint"] := by
    rw [← Text.words_strip, h]
    decide +kernel
  have hinput : Input.ofLine? line = some ⟨"hint", [], "hint"⟩ := by
    unfold Input.ofLine?
    rw [hword, h]
  have hunknown : Command.ofName? "hint" = none := by decide +kernel
  unfold isReadOnly
  rw [hinput]
  simp only [Input.command?, hunknown]
  rfl

theorem command_of_not_isReadOnly {line : String} (h : isReadOnly line = false)
    (hhint : Text.strip line ≠ "hint") : ∃ i c, Input.ofLine? (Text.strip line) = some i ∧
      i.command? = some c ∧ c ∉ Command.readOnly := by
  rw [Input.ofLine?_strip]
  cases hj : Input.ofLine? line with
  | none =>
    rw [isReadOnly, hj] at h
    cases h
  | some j =>
    cases hc : j.command? with
    | none =>
      have hraw : j.raw = Text.strip line := (Input.ofLine?_eq_some hj).2
      simp only [isReadOnly, hj, hc, hraw, bne_eq_false_iff_eq] at h
      exact absurd h hhint
    | some c =>
      simp only [isReadOnly, hj, hc] at h
      refine ⟨_, c, rfl, hc, fun hmem => ?_⟩
      rw [List.contains_iff_mem.2 hmem] at h
      cases h

namespace Session

structure Agree (s t : Session) : Prop where
  setup : s.toSetup = t.toSetup
  world : s.state.world = t.state.world
  hintsUsed : s.hintsUsed = t.hintsUsed

namespace Agree

variable {s t : Session}

theorem refl (s : Session) : Agree s s := ⟨rfl, rfl, rfl⟩

theorem prompt (h : Agree s t) : s.prompt = t.prompt := by
  have hcwd : s.state.world.cwd = t.state.world.cwd := congrArg State.cwd h.world
  change s.state.cwd = t.state.cwd at hcwd
  unfold Session.prompt
  rw [h.setup, hcwd]

theorem giveHint (h : Agree s t) :
    s.giveHint.1 = t.giveHint.1 ∧ Agree s.giveHint.2 t.giveHint.2 := by
  have hlimit : s.hintLimit = t.hintLimit := by
    unfold hintLimit
    rw [h.setup]
  have hat (n : Nat) : s.hintAt? n = t.hintAt? n := by
    unfold hintAt?
    rw [h.setup]
  by_cases hlt : s.hintsUsed < s.hintLimit
  · have hlt' : t.hintsUsed < t.hintLimit := by rwa [← h.hintsUsed, ← hlimit]
    have hline : s.hintLine = t.hintLine := by
      unfold hintLine
      rw [hlimit, hat, h.hintsUsed]
    rw [giveHint_of_lt hlt, giveHint_of_lt hlt', h.hintsUsed]
    exact ⟨hline, h.setup, h.world, rfl⟩
  · have hlt' : ¬ t.hintsUsed < t.hintLimit := by rwa [← h.hintsUsed, ← hlimit]
    rw [giveHint_of_not_lt hlt, giveHint_of_not_lt hlt']
    exact ⟨rfl, h⟩

theorem execute (h : Agree s t) {line : String} {i : Input} {c : Command}
    (hi : Input.ofLine? line = some i) (hc : i.command? = some c) (hreads : c ∉ Command.readOnly)
    (now now' : Moment) : PuzzleShell.execute (s.context now) s.state line =
      PuzzleShell.execute (t.context now') t.state line := by
  have hcontext : (s.context now).timeless = (t.context now').timeless := by
    rw [h.setup]
    rfl
  rw [← execute_world hi hc hreads, ← execute_world hi hc hreads (t.context now'), hcontext,
    h.world]

theorem apply (h : Agree s t) (p : Patch) :
    (p.apply s.state).world = (p.apply t.state).world := by
  rw [← world_apply, h.world, world_apply]

theorem accept (h : Agree s t) (o : Outcome) : Agree (s.accept o) (t.accept o) :=
  ⟨h.setup, h.apply o.patch, h.hintsUsed⟩

theorem restart (h : Agree s t) : Agree s.restart t.restart :=
  ⟨h.setup, congrArg (fun c : Setup => (initialState c.mission).world) h.setup, rfl⟩

theorem save (h : Agree s t) (content : Option String) :
    Editor.save s.state content = Editor.save t.state content := by
  rw [← save_world, h.world, save_world]

/-- Both sessions answer a line that matters alike, whenever it is run. -/
theorem outcomeOf (h : Agree s t) {line : String} (hline : isReadOnly line = false)
    (now now' : Moment) :
    (s.outcomeOf (Text.strip line) now).1 = (t.outcomeOf (Text.strip line) now').1 ∧
      Agree (s.outcomeOf (Text.strip line) now).2 (t.outcomeOf (Text.strip line) now').2 := by
  by_cases hhint : Text.strip line = "hint"
  · obtain ⟨hanswer, hagree⟩ := h.giveHint
    rw [hhint, outcomeOf_hint, outcomeOf_hint, hanswer]
    exact ⟨rfl, hagree⟩
  · obtain ⟨i, c, hi, hc, hreads⟩ := command_of_not_isReadOnly hline hhint
    rw [outcomeOf_of_ne hhint, outcomeOf_of_ne hhint, h.execute hi hc hreads now now']
    exact ⟨rfl, h⟩

theorem afterLine (h : Agree s t) {line text : String} (hline : isReadOnly line = false)
    (now now' : Moment) : Agree (s.afterLine text (Text.strip line) now)
      (t.afterLine text (Text.strip line) now') := by
  obtain ⟨hanswer, hagree⟩ := h.outcomeOf hline now now'
  refine ⟨?_, ?_, ?_⟩
  · rw [setup_afterLine, setup_afterLine, h.setup]
  · rw [world_afterLine, world_afterLine, hanswer, hagree.apply]
  · rw [hintsUsed_afterLine, hintsUsed_afterLine, hagree.hintsUsed]

theorem step (h : Agree s t) {x : Step} (hx : x.matters = true) :
    (s.step x).1 = (t.step x.untimed).1 ∧ Agree (s.step x).2 (t.step x.untimed).2 := by
  cases x with
  | run line now =>
    have hline : isReadOnly line = false := by simpa [Step.matters] using hx
    rw [Step.untimed]
    cases hp : t.prompt with
    | error e =>
      rw [step_run_of_error hp, step_run_of_error (h.prompt.trans hp)]
      exact ⟨rfl, h⟩
    | ok text =>
      rw [step_run_of_prompt hp, step_run_of_prompt (h.prompt.trans hp),
        (h.outcomeOf hline now default).1]
      exact ⟨rfl, h.afterLine hline now default⟩
  | save content =>
    dsimp only [Step.untimed]
    rw [step_save, step_save, h.save]
    exact ⟨rfl, h.accept _⟩
  | close =>
    dsimp only [Step.untimed]
    rw [step_close, step_close]
    exact ⟨rfl, h.accept _⟩
  | hint =>
    obtain ⟨hanswer, hagree⟩ := h.giveHint
    dsimp only [Step.untimed]
    rw [step_hint, step_hint, hanswer]
    exact ⟨rfl, hagree⟩
  | restart =>
    dsimp only [Step.untimed]
    rw [step_restart, step_restart, h.setup]
    exact ⟨rfl, h.restart⟩
  | complete | prompt => cases hx

/-- A read-only line or a query changes nothing that another session could disagree about. -/
theorem step_left (h : Agree s t) {x : Step} (hx : x.matters = false) : Agree (s.step x).2 t := by
  cases x with
  | run line now =>
    have hline : isReadOnly line = true := by simpa [Step.matters] using hx
    cases hp : s.prompt with
    | error e =>
      rw [step_run_of_error hp]
      exact h
    | ok text =>
      have hhint : Text.strip line ≠ "hint" := by
        intro hhint
        rw [isReadOnly_of_strip_eq_hint hhint] at hline
        cases hline
      have hworld := world_execute (s.context now) s.state fun i c => command_of_isReadOnly hline
      rw [step_run_of_prompt hp]
      refine ⟨?_, ?_, ?_⟩
      · rw [setup_afterLine, h.setup]
      · rw [world_afterLine, outcomeOf_of_ne hhint, hworld, h.world]
      · rw [hintsUsed_afterLine, outcomeOf_of_ne hhint, h.hintsUsed]
  | prompt =>
    rw [step_prompt]
    exact h
  | complete => exact ⟨h.setup, h.world, h.hintsUsed⟩
  | save | close | hint | restart => cases hx

end Agree

/-- A run gives the answers, and ends in agreement with the run, of the steps in it that matter,
whenever these are taken. -/
theorem steps_agree {s t : Session} (h : Agree s t) (xs : List Step) :
    let kept := (xs.filter Step.matters).map Step.untimed
    answersTo Step.matters xs (s.steps xs).1 = (t.steps kept).1 ∧
      Agree (s.steps xs).2 (t.steps kept).2 := by
  induction xs generalizing s t with
  | nil => exact ⟨rfl, h⟩
  | cons x xs ih =>
    dsimp only at ih ⊢
    rw [steps_cons, answersTo_cons, List.filter_cons]
    cases hx : x.matters with
    | false =>
      rw [if_neg Bool.false_ne_true, if_neg Bool.false_ne_true]
      exact ih (h.step_left hx)
    | true =>
      obtain ⟨hanswer, hagree⟩ := h.step hx
      obtain ⟨hanswers, hend⟩ := ih hagree
      rw [if_pos rfl, if_pos rfl, List.map_cons, steps_cons, hanswer, hanswers]
      exact ⟨rfl, hend⟩

theorem agree_of_filter_eq {s t : Session} (h : Agree s t) {xs ys : List Step}
    (hxs : (xs.filter Step.matters).map Step.untimed =
      (ys.filter Step.matters).map Step.untimed) :
    answersTo Step.matters xs (s.steps xs).1 = answersTo Step.matters ys (t.steps ys).1 ∧
      (s.steps xs).2.state.world = (t.steps ys).2.state.world := by
  obtain ⟨hx, hxend⟩ := steps_agree h xs
  obtain ⟨hy, hyend⟩ := steps_agree (Agree.refl t) ys
  rw [hx, hy, hxs, hxend.world, hyend.world, hxs]
  exact ⟨rfl, rfl⟩

theorem matters_untimed (x : Step) : x.untimed.matters = x.matters := by cases x <;> rfl

theorem filter_matters_of_isQuery {xs ys : List Step}
    (h : (xs.filter (!·.isQuery)).map Step.untimed = ys) :
    (xs.filter Step.matters).map Step.untimed = ys.filter Step.matters := by
  have hmatters : ∀ x : Step, (x.untimed.matters && !x.isQuery) = x.matters := by
    intro x
    cases x <;> simp [Step.matters, Step.isQuery, Step.untimed]
  subst h
  rw [List.filter_map, List.filter_filter]
  simp only [Function.comp_def, hmatters]

/-- Read-only lines can be left out of a run, and lines can be completed and the prompt be shown at
any time: the lines that are kept get the same answers, and the run ends in the same world. Nor does
it matter when the lines are run. -/
theorem erase_readOnly (mission : Option Mission) (config : Config) (objects : Prompt.Objects)
    (lines : List String) (xs ys : List Step) (hxs : xs.map Step.untimed = lines.map (.run ·))
    (hys : (ys.filter (!·.isQuery)).map Step.untimed =
      (lines.filter (!isReadOnly ·)).map (.run ·)) :
    let s := start mission config objects
    answersTo Step.matters xs (s.steps xs).1 = answersTo Step.matters ys (s.steps ys).1 ∧
    (s.steps xs).2.state.world = (s.steps ys).2.state.world := by
  intro s
  have hmatters : Step.matters ∘ Step.untimed = Step.matters := funext matters_untimed
  refine agree_of_filter_eq (Agree.refl s) ?_
  calc (xs.filter Step.matters).map Step.untimed
      = (xs.map Step.untimed).filter Step.matters := by rw [List.filter_map, hmatters]
    _ = (lines.filter (!isReadOnly ·)).map (.run ·) := by rw [hxs, List.filter_map]; rfl
    _ = ((lines.filter (!isReadOnly ·)).map (.run ·)).filter Step.matters := by
        rw [List.filter_map, List.filter_filter]
        simp [Step.matters]
    _ = (ys.filter Step.matters).map Step.untimed := (filter_matters_of_isQuery hys).symm

/-- In the second run less is typed, and a day later. -/
theorem erase_readOnly_clear :
    let s := start none {} .small
    let xs := [.run "mkdir w", .run "date", .run "", .run "cd w", .run "clear", .run "nano ../n"]
    let ys := [.prompt, .run "mkdir w" ⟨2024, 1, 16, 9, 0, 0⟩, .complete "c", .run "cd w",
      .run "nano ../n"]
    answersTo Step.matters xs (s.steps xs).1 = answersTo Step.matters ys (s.steps ys).1 ∧
      (s.steps xs).2.state.world = (s.steps ys).2.state.world :=
  erase_readOnly none {} .small ["mkdir w", "date", "", "cd w", "clear", "nano ../n"] _ _
    (by decide +kernel) (by decide +kernel)

end Session

end PuzzleShell
