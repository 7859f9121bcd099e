import PuzzleShell.Input
import PuzzleShell.Shell.Pages
import PuzzleShell.Shell.Reports
import PuzzleShell.Shell.Request

/-!
# Information

Commands that tell about the session, the machine and the commands themselves.
-/

namespace PuzzleShell.Shell

def whoami (r : Request) : Outcome := .print [r.context.config.user]

def date (r : Request) : Outcome := .print [r.context.now.text]

def uname (r : Request) : Outcome :=
  let hostname := r.context.config.hostname
  let kernel := r.context.config.kernel
  .print [if "-a" ∈ r.args then s!"Linux {hostname} {kernel} #1 SMP x86_64 GNU/Linux" else "Linux"]

def man (r : Request) : Outcome :=
  match r.args with
  | [] => .fail "What manual page do you want?"
  | topic :: _ =>
    match manualPages.lookup topic with
    | some page => .print page
    | none => .fail s!"No manual entry for {topic}"

def numbered (n : Nat) : List String → List String
  | [] => []
  | line :: rest => s!"  {n}  {line}" :: numbered (n + 1) rest

def history (r : Request) : Outcome := .print (numbered 1 r.state.commandHistory)

def clear : Outcome := { patch := { outputHistory := some [] } }

def HelpPage.lines (p : HelpPage) (name : String) : List String :=
  let indent := fun text => "    " ++ text
  ["NAME", indent (name ++ " - " ++ p.summary), "", "SYNOPSIS", indent p.synopsis, "",
    "DESCRIPTION"] ++ p.description.map indent ++ ["", "EXAMPLES"] ++ p.examples.map indent

/-- The list of commands, or the page of one. An alias has the page of its command. -/
def help (r : Request) : Outcome :=
  match r.args with
  | [] => .print generalHelp
  | topic :: _ =>
    let page := do
      let command ← Command.ofName? topic
      let page ← helpPage? command
      return page.lines command.name
    match page with
    | some lines => .print lines
    | none => .fail s!"help: no help topics match '{topic}'. Try 'help' for a list of commands."

def ps (r : Request) : Outcome :=
  let full := r.args.any fun arg => Text.dropWhile (· == '-') arg ∈ ["aux", "ef", "e", "A"]
  .print (if full then allProcesses else processes)

def free (r : Request) : Outcome :=
  .print (if (Flags.ofArgs r.args).has "h" then memoryInUnits else memory)

def df (r : Request) : Outcome :=
  .print (if (Flags.ofArgs r.args).has "h" then disksInUnits else disks)

def top : Outcome := .print load

def ifconfig : Outcome := .print interfaces

def ping (r : Request) : Outcome :=
  match (Flags.ofArgs r.args).operands.getLast? with
  | some host => .print (replies host)
  | none => .fail "ping: usage error: Destination address required"

end PuzzleShell.Shell
