import PuzzleShell.Prompt.Render

/-!
# Settings of a shell
-/

namespace PuzzleShell

structure Config where
  user : String := "user"
  hostname : String := "terminal-quest"
  /-- The template of the prompt, with the fields `user`, `hostname` and `cwd`. -/
  promptFormat : String := "\x7buser\x7d@\x7bhostname\x7d:\x7bcwd\x7d$ "
  kernel : String := "5.15.0-generic"
deriving DecidableEq, Repr

def Config.prompt (c : Config) (objects : Prompt.Objects) (cwd : String) :
    Except PromptError String :=
  Prompt.render objects [("user", c.user), ("hostname", c.hostname), ("cwd", cwd)] c.promptFormat

end PuzzleShell
