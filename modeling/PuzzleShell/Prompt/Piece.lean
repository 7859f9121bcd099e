import PuzzleShell.Prompt.Error

/-!
# The pieces of a prompt template

A template is literal text with fields in braces. Doubled braces stand for single ones. A field is
a name, which may be followed by a conversion after `!` and by a layout after `:`. `Mode.scan`
reads a template into pieces; where it is malformed, the pieces end with what is wrong.
-/

namespace PuzzleShell.Prompt

structure Field where
  name : List Char
  conversion : Option Char := none
  layout : List Char := []
  /-- The layout holds fields of its own. -/
  nested : Bool := false
deriving DecidableEq, Repr

inductive Piece where
  | literal (c : Char)
  | field (f : Field)
  | broken (e : PromptError)
deriving DecidableEq, Repr

/-- What has been read of the piece at hand; texts are reversed. -/
inductive Mode where
  | text
  | opened
  | closed
  | inName (read : List Char)
  | inIndex (read : List Char)
  | beforeConversion (name : List Char)
  | afterConversion (name : List Char) (conversion : Char)
  /-- Within a layout, `depth` braces are open. -/
  | inLayout (name : List Char) (conversion : Option Char) (read : List Char) (nested : Bool)
    (depth : Nat)
deriving DecidableEq, Repr

namespace Mode

/-- The mode after the character `c` of a name, with the pieces that it completes; no mode if the
template goes wrong there. -/
def stepName (read : List Char) (c : Char) : List Piece × Option Mode :=
  match c with
  | '{' => ([.broken .openInName], none)
  | '[' => ([], some (.inIndex (c :: read)))
  | '}' => ([.field { name := read.reverse }], some .text)
  | ':' => ([], some (.inLayout read.reverse none [] false 0))
  | '!' => ([], some (.beforeConversion read.reverse))
  | c => ([], some (.inName (c :: read)))

def step : Mode → Char → List Piece × Option Mode
  | .text, c =>
    if c = '{' then ([], some .opened)
    else if c = '}' then ([], some .closed)
    else ([.literal c], some .text)
  | .opened, c => if c = '{' then ([.literal c], some .text) else stepName [] c
  | .closed, c => if c = '}' then ([.literal c], some .text) else ([.broken .loneClose], none)
  | .inName read, c => stepName read c
  | .inIndex read, c => ([], some (if c = ']' then .inName (c :: read) else .inIndex (c :: read)))
  | .beforeConversion name, c => ([], some (.afterConversion name c))
  | .afterConversion name conversion, c =>
    if c = '}' then ([.field { name, conversion := some conversion }], some .text)
    else if c = ':' then ([], some (.inLayout name (some conversion) [] false 0))
    else ([.broken .afterConversion], none)
  | .inLayout name conversion read nested depth, c =>
    match c, depth with
    | '{', depth => ([], some (.inLayout name conversion (c :: read) true (depth + 1)))
    | '}', 0 => ([.field { name, conversion, layout := read.reverse, nested }], some .text)
    | '}', depth + 1 => ([], some (.inLayout name conversion (c :: read) nested depth))
    | c, depth => ([], some (.inLayout name conversion (c :: read) nested depth))

def finish : Mode → List Piece
  | .text => []
  | .opened => [.broken .loneOpen]
  | .closed => [.broken .loneClose]
  | .inName _ => [.broken .unclosedField]
  | .inIndex _ => [.broken .unclosedField]
  | .beforeConversion _ => [.broken .missingConversion]
  | .afterConversion .. => [.broken .unclosedLayout]
  | .inLayout .. => [.broken .unclosedLayout]

def scan (m : Mode) : List Char → List Piece
  | [] => m.finish
  | c :: rest => match m.step c with
    | (ps, some m) => ps ++ m.scan rest
    | (ps, none) => ps

end Mode

end PuzzleShell.Prompt
