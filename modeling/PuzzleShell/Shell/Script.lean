import PuzzleShell.Shell.Request
import PuzzleShell.Text.Blank
import PuzzleShell.Text.Quotes

/-!
# Scripts

A script is an executable file. Its `echo` lines print their text; nothing else in it does
anything.
-/

namespace PuzzleShell.Shell

def scriptLine? (line : String) : Option String :=
  let line := Text.strip line
  if Text.startsWith "echo " line then some (Text.stripQuotes (Text.drop 5 line)) else none

/-- The path of the script is what follows the first two characters of the name. -/
def runScript (r : Request) : Outcome :=
  let script := Text.drop 2 r.name
  match r.lookup script with
  | none => .fail s!"./{script}: No such file or directory"
  | some (.dir ..) => .fail s!"./{script}: Is a directory"
  | some (.file _ data) =>
    if data.executable then .print ((Text.cuts '\n' data.content).filterMap scriptLine?)
    else .fail s!"./{script}: Permission denied"

end PuzzleShell.Shell
