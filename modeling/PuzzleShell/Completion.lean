import PuzzleShell.Command
import PuzzleShell.State
import PuzzleShell.Text.Blank

/-!
# Completion

The first word of a line completes to the names of commands, any later word to the entries of a
directory. A completer remembers its last suggestion: asked again with that very suggestion, it
goes on to the next candidate.
-/

namespace PuzzleShell.Completion

/-- The candidates for a path. What is typed up to the last slash is kept, and hidden entries are
offered only for a word that starts with their dot. -/
def pathCandidates (s : State) (word : String) : List String :=
  if word = "~" then ["~/"]
  else
    let base := Text.dropEndWhile (· != '/') word.toList
    let kept := String.ofList base
    let stub := Text.drop base.length word
    let place := if base.isEmpty then s.cwd else Path.resolve kept s.cwd
    match s.tree.lookup place with
    | some (.dir _ _ cs) =>
      let offered := cs.filter fun c => Text.startsWith stub c.name
        && (Text.startsWith "." stub || !Text.startsWith "." c.name)
      offered.map fun c => kept ++ c.name ++ if c.isDir then "/" else ""
    | _ => []

def commandCandidates (word : String) : List String :=
  Command.names.filter (Text.startsWith word)

def dropEnd (n : Nat) (line : String) : String :=
  String.ofList (line.toList.take (line.length - n))

/-- The part of the line that stays as it is, and the candidates for the rest. -/
def analyse (s : State) (line : String) : String × List String :=
  let words := Text.words line
  let open? := line.toList.getLast?.any Text.isBlank
  if words.length ≤ 1 ∧ !open? then
    let word := words.headD ""
    (dropEnd word.length line, commandCandidates word)
  else
    let word := if open? then "" else words.getLast?.getD ""
    (dropEnd word.length line, pathCandidates s word)

def candidates (s : State) (line : String) : List String := (analyse s line).2

/-- A suggestion that was made, and what it was chosen from. -/
structure Cycle where
  stem : String
  candidates : List String
  index : Nat
  /-- Which state the suggestion was made for. -/
  mark : Nat
deriving DecidableEq, Repr

def Cycle.suggestion (c : Cycle) : String := c.stem ++ c.candidates.getD c.index ""

def Cycle.next (c : Cycle) : Cycle := { c with index := (c.index + 1) % c.candidates.length }

/-- Nothing, or the suggestion made last. -/
abbrev Memory := Option Cycle

def Cycle.start? (s : State) (mark : Nat) (line : String) : Option Cycle :=
  let (stem, candidates) := analyse s line
  if candidates.isEmpty then none else some { stem, candidates, index := 0, mark }

/-- The suggestion for a line typed in the state `s`. States with different marks are different
states, even when they are equal. -/
def complete (s : State) (mark : Nat) (line : String) (m : Memory) : Memory :=
  match m with
  | some c => if line = c.suggestion ∧ mark = c.mark then some c.next else Cycle.start? s mark line
  | none => Cycle.start? s mark line

def suggestion? (m : Memory) : Option String := m.map Cycle.suggestion

end PuzzleShell.Completion
