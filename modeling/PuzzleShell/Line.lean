import PuzzleShell.Text.Literal

/-!
# Lines of the terminal
-/

namespace PuzzleShell

inductive LineKind where
  | input
  | output
  | error
  | success
  | info
deriving DecidableEq, Repr

namespace LineKind

def all : List LineKind := [input, output, error, success, info]

def name : LineKind → String
  | input => "input"
  | output => "output"
  | error => "error"
  | success => "success"
  | info => "info"

def ofName? (s : String) : Option LineKind := all.find? (·.name == s)

def unknown (s : String) : String := Text.literal s ++ " is not a valid LineKind"

end LineKind

structure Line where
  kind : LineKind
  text : String
deriving DecidableEq, Repr

namespace Line

def output (text : String) : Line := ⟨.output, text⟩
def error (text : String) : Line := ⟨.error, text⟩
def success (text : String) : Line := ⟨.success, text⟩
def info (text : String) : Line := ⟨.info, text⟩

end Line

end PuzzleShell
