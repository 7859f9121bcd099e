import PuzzleShell.Command
import PuzzleShell.Text.Blank
import PuzzleShell.Text.Occurrence

/-!
# Input lines

An input line is a name followed by arguments, all separated by blanks. Some commands sort their
arguments further, into flags and operands or into text and a redirection.
-/

namespace PuzzleShell

structure Input where
  name : String
  args : List String
  /-- The line without the blanks at its ends. -/
  raw : String
deriving DecidableEq, Repr

namespace Input

/-- Nothing is read from a blank line. -/
def ofLine? (line : String) : Option Input :=
  match Text.words line with
  | [] => none
  | name :: args => some ⟨name, args, Text.strip line⟩

def command? (i : Input) : Option Command := Command.ofName? i.name

def text (i : Input) : String := " ".intercalate (i.name :: i.args)

end Input

/-- Arguments sorted into flags and operands. -/
structure Flags where
  /-- Single letters and whole long options, in the order given. -/
  given : List String := []
  operands : List String := []
deriving DecidableEq, Repr

namespace Flags

def has (f : Flags) (flag : String) : Bool := f.given.contains flag

/-- The flags that one argument contributes; none for an operand. A lone dash is an operand. -/
def ofArg? (arg : String) : Option (List String) :=
  match arg.toList with
  | '-' :: '-' :: _ :: _ => some [arg]
  | '-' :: c :: rest => some ((c :: rest).map String.singleton)
  | _ => none

def ofArgs : List String → Flags
  | [] => {}
  | arg :: rest =>
    let f := ofArgs rest
    match ofArg? arg with
    | some flags => { f with given := flags ++ f.given }
    | none => { f with operands := arg :: f.operands }

end Flags

inductive RedirectMode where
  | overwrite
  | append
deriving DecidableEq, Repr

namespace RedirectMode

def symbol : RedirectMode → String
  | overwrite => ">"
  | append => ">>"

def ofSymbol? (s : String) : Option RedirectMode :=
  if s = ">" then some overwrite else if s = ">>" then some append else none

end RedirectMode

/-- An output redirection; the target is missing when the line ends with the operator. -/
structure Redirect where
  mode : RedirectMode
  target : Option String
deriving DecidableEq, Repr

/-- The arguments before the first redirection operator, and the redirection. What comes after
the target is dropped. -/
def Redirect.split : List String → List String × Option Redirect
  | [] => ([], none)
  | arg :: rest =>
    match RedirectMode.ofSymbol? arg with
    | some mode => ([], some ⟨mode, rest.head?⟩)
    | none => let (words, redirect) := split rest; (arg :: words, redirect)

end PuzzleShell
