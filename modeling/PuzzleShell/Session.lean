import PuzzleShell.Completion
import PuzzleShell.Mission
import PuzzleShell.Shell.Execute

/-!
# Sessions

A session is one attempt at a mission, or a free run without one. `Session.step` answers one step
and gives the session after it. A step that fails leaves the session as it was. The clock is not
part of a session: each line comes with the moment at which it is run.
-/

namespace PuzzleShell

/-- What stays the same throughout a session. -/
structure Setup where
  mission : Option Mission
  config : Config
  /-- What the fields of the prompt may lead to. -/
  objects : Prompt.Objects

structure Session extends Setup where
  state : State
  /-- How many states the session has had before this one. -/
  revision : Nat := 0
  memory : Completion.Memory := none
  hintsUsed : Nat := 0
  completed : Bool := false

inductive Step where
  | run (line : String) (now : Moment := default)
  | save (content : Option String)
  | close
  | hint
  | complete (line : String)
  | prompt
  | restart
deriving DecidableEq, Repr

inductive Answer where
  | outcome (o : Outcome)
  | hint (line : Line)
  | suggestion (line : Option String)
  | prompt (text : String)
  | restarted (s : State)
  | failed (e : PromptError)
deriving DecidableEq

/-- The context of a line. The packages that can be installed are those of the mission. -/
def Setup.context (c : Setup) (now : Moment) : Context where
  config := c.config
  packages := c.mission.bind (·.packages)
  now

namespace Session

def initialState (mission : Option Mission) : State :=
  match mission with
  | some m => m.start
  | none => {}

def start (mission : Option Mission) (config : Config) (objects : Prompt.Objects) : Session where
  mission
  config
  objects
  state := initialState mission

def hintLimit (s : Session) : Nat :=
  match s.mission with
  | some m => m.hintLimit
  | none => 0

def hintAt? (s : Session) (n : Nat) : Option String := s.mission.bind (·.hints[n]?)

def giveHint (s : Session) : Line × Session :=
  if s.hintsUsed < s.hintLimit then
    let number := s.hintsUsed + 1
    let limit := s.hintLimit
    let hint := (s.hintAt? s.hintsUsed).getD ""
    (.info s!"Hint {number}/{limit}: {hint}", { s with hintsUsed := number })
  else (.info "No more hints available.", s)

/-- Moves on to a new state and looks whether it completes the mission. -/
def moveTo (s : Session) (state : State) : Session :=
  { s with
    state
    revision := s.revision + 1
    completed := s.completed || s.mission.any (·.isWon state) }

/-- The outcome of a line, and the session with the hint it may have asked for. -/
def outcomeOf (s : Session) (line : String) (now : Moment) : Outcome × Session :=
  if line = "hint" then
    let (hint, s) := s.giveHint
    ({ lines := [hint] }, s)
  else (execute (s.context now) s.state line, s)

/-- The state after a line: patched, with the line in both histories. A command that sets the
output history replaces the echo of the line too. -/
def record (state : State) (echo : Line) (line : String) (o : Outcome) : State :=
  let patched := o.patch.apply state
  let shown := match o.patch.outputHistory with
    | some lines => lines
    | none => state.outputHistory ++ [echo]
  { patched with
    outputHistory := shown ++ o.lines
    commandHistory := if line = "" then patched.commandHistory
      else patched.commandHistory ++ [line] }

def prompt (s : Session) : Except PromptError String := s.config.prompt s.objects s.state.cwd

def run (s : Session) (line : String) (now : Moment) :
    Except PromptError (Outcome × Session) := do
  let prompt ← s.prompt
  let line := Text.strip line
  let (o, s) := s.outcomeOf line now
  return (o, s.moveTo (record s.state ⟨.input, prompt ++ line⟩ line o))

/-- Takes in what the editor answers. -/
def accept (s : Session) (o : Outcome) : Session :=
  let patched := o.patch.apply s.state
  s.moveTo { patched with outputHistory := patched.outputHistory ++ o.lines }

def complete (s : Session) (line : String) : Session :=
  { s with memory := Completion.complete s.state s.revision line s.memory }

def restart (s : Session) : Session := start s.mission s.config s.objects

def step (s : Session) : Step → Answer × Session
  | .run line now => match s.run line now with
    | .ok (o, s) => (.outcome o, s)
    | .error e => (.failed e, s)
  | .save content =>
    let o := Editor.save s.state content
    (.outcome o, s.accept o)
  | .close => (.outcome Editor.close, s.accept Editor.close)
  | .hint =>
    let (hint, s) := s.giveHint
    (.hint hint, s)
  | .complete line =>
    let s := s.complete line
    (.suggestion (Completion.suggestion? s.memory), s)
  | .prompt => match s.prompt with
    | .ok text => (.prompt text, s)
    | .error e => (.failed e, s)
  | .restart =>
    let s := s.restart
    (.restarted s.state, s)

def steps (s : Session) : List Step → List Answer × Session
  | [] => ([], s)
  | x :: rest =>
    let (a, s) := s.step x
    let (as, s) := s.steps rest
    (a :: as, s)

end Session

end PuzzleShell
