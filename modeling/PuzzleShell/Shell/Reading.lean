import PuzzleShell.Input
import PuzzleShell.Shell.Request
import PuzzleShell.Text.Lowercase
import PuzzleShell.Text.Pieces
import PuzzleShell.Text.Quotes
import PuzzleShell.Tree.Walk

/-!
# Reading, searching and measuring

None of these commands changes anything.
-/

namespace PuzzleShell.Shell

/-- The lines of a file. A line feed at the end closes the last line and opens none. -/
def contentLines (content : String) : List String :=
  let body := if Text.endsWith '\n' content then String.ofList content.toList.dropLast else content
  if body = "" then [] else Text.cuts '\n' body

def cat (r : Request) : Outcome :=
  if r.args.isEmpty then .fail "cat: missing operand"
  else { lines := r.args.flatMap fun target =>
    match r.read target with
    | .ok content => (contentLines content).map .output
    | .error e => [e.line "cat" target] }

def matchingLines (pattern content : String) : List String :=
  (contentLines content).filter fun line => Text.contains (Text.lower pattern) (Text.lower line)

/-- With several files, each match is shown after the name of its file. -/
def grep (r : Request) : Outcome :=
  match r.args with
  | word :: first :: others =>
    let files := first :: others
    { lines := files.flatMap fun target =>
      match r.read target with
      | .ok content => (matchingLines (Text.stripQuotes word) content).map fun line =>
        .output (if others.isEmpty then line else s!"{target}:{line}")
      | .error e => [e.line "grep" target] }
  | _ => .fail "grep: missing operand"

/-- Stars in a pattern are dropped: what is left is searched for as it is. -/
def findPattern (word : String) : String :=
  String.ofList ((Text.stripQuotes word).toList.filter (· != '*'))

def find (r : Request) : Outcome :=
  match r.args.dropWhile (· != "-name") with
  | _ :: word :: _ =>
    let start := if r.args.head? = some "-name" then "." else r.args.headD "."
    match r.lookup start with
    | none => .fail s!"find: '{start}': No such file or directory"
    | some n =>
      let found := (n.walk (r.resolve start)).filter fun entry =>
        Text.contains (findPattern word) entry.2.name
      .print (found.map (·.1))
  | _ => .fail "find: usage: find <path> -name <pattern>"

def usageText (human : Bool) (size : Nat) : Except Fault String :=
  (if human then Size.format size else (Size.reportedBlocks size).map toString).mapError .size

def usageLine (human : Bool) (path : String) (n : Node) : Except Fault Line := do
  let size ← usageText human n.usage
  return .output s!"{size}\t{path}"

def duTarget (r : Request) (flags : Flags) (target : String) : Except Fault (List Line) :=
  match r.lookup target with
  | none => .ok [.error s!"du: cannot access '{target}': No such file or directory"]
  | some n => do
    let human := flags.has "h"
    let parts := if flags.has "s" then [] else n.children
    let below ← parts.mapM fun c => usageLine human (Path.join target c.name) c
    let total ← usageLine human target n
    return below ++ [total]

def du (r : Request) : Except Fault Outcome := do
  let flags := Flags.ofArgs r.args
  let targets := if flags.operands.isEmpty then ["."] else flags.operands
  let lines ← targets.mapM (duTarget r flags)
  return { lines := lines.flatten }

end PuzzleShell.Shell
