import PuzzleShell.Editor
import PuzzleShell.Shell.Inspection
import PuzzleShell.Shell.Listing
import PuzzleShell.Shell.Packages
import PuzzleShell.Shell.Reading
import PuzzleShell.Shell.Removing
import PuzzleShell.Shell.Script
import PuzzleShell.Shell.Writing

/-!
# Executing a line

`execute` answers every line. A name outside the set of commands is tried as a script, then as
a version query to an installed package.
-/

namespace PuzzleShell

namespace Shell

def run (r : Request) : Command → Except Fault Outcome
  | .ls => .ok (ls r)
  | .cd => .ok (cd r)
  | .cat => .ok (cat r)
  | .pwd => .ok (pwd r)
  | .echo => .ok (echo r)
  | .mkdir => mkdir r
  | .touch => .ok (touch r)
  | .rm => rm r
  | .chmod => chmod r
  | .grep => .ok (grep r)
  | .find => .ok (find r)
  | .du => du r
  | .tar => .ok (tar r)
  | .apt => .ok (apt r)
  | .nano => .ok (Editor.start r)
  | .clear => .ok clear
  | .help => .ok (help r)
  | .whoami => .ok (whoami r)
  | .date => .ok (date r)
  | .uname => .ok (uname r)
  | .man => .ok (man r)
  | .history => .ok (history r)
  | .ps => .ok (ps r)
  | .free => .ok (free r)
  | .df => .ok (df r)
  | .top => .ok top
  | .ifconfig => .ok ifconfig
  | .ping => .ok (ping r)

def runOther (r : Request) : Outcome :=
  if Text.startsWith "./" r.name then runScript r
  else match packageVersion? r with
    | some o => o
    | none =>
      let name := r.name
      .fail s!"{name}: command not found. Type 'help' for available commands."

/-- Runs a request. What goes wrong unforeseen is one error line. -/
def answer (r : Request) : Outcome :=
  match Command.ofName? r.name with
  | none => runOther r
  | some command =>
    match run r command with
    | .ok o => o
    | .error _ =>
      let name := r.name
      .fail s!"{name}: internal error"

end Shell

/-- The outcome of one input line; that of a blank line is empty. -/
def execute (context : Context) (state : State) (line : String) : Outcome :=
  match Input.ofLine? line with
  | none => {}
  | some input => Shell.answer { name := input.name, args := input.args, state, context }

end PuzzleShell
