import PuzzleShell.Prompt.Layout
import PuzzleShell.Prompt.Piece
import PuzzleShell.Prompt.Value

/-!
# Filling in a prompt template

`render` replaces the fields of a template by values, from left to right; the first thing that is
wrong on the way is the answer. Layouts may hold fields, but these may not hold fields again.
-/

namespace PuzzleShell.Prompt

/-- A text for some of the names. -/
abbrev Bindings := List (String × String)

def readIndex (cs : List Char) : Except PromptError (Option Nat) := do
  let (n, rest) ← Layout.takeNumber none cs
  return if rest.isEmpty then n else none

namespace Access

/-- The step `[text]`. -/
def ofItem (cs : List Char) : Access :=
  match readIndex cs with
  | .error e => .broken e
  | .ok position =>
    if cs.isEmpty then .broken .emptyStep
    else .item (match position with
      | some n => .position n
      | none => .name (String.ofList cs))

/-- The step `.text`. -/
def ofProperty (cs : List Char) : Access :=
  if cs.isEmpty then .broken .emptyStep else .property (String.ofList cs)

/-- Between two steps, or within one of which some characters have been read, in reverse. -/
inductive Mode where
  | between
  | inItem (read : List Char)
  | inProperty (read : List Char)
deriving DecidableEq, Repr

def scan : Mode → List Char → List Access
  | .between, [] => []
  | .inItem _, [] => [.broken .unclosedIndex]
  | .inProperty read, [] => [ofProperty read.reverse]
  | .between, c :: rest =>
    if c = '[' then scan (.inItem []) rest
    else if c = '.' then scan (.inProperty []) rest
    else [.broken .badStep]
  | .inItem read, c :: rest =>
    if c = ']' then ofItem read.reverse :: scan .between rest
    else scan (.inItem (c :: read)) rest
  | .inProperty read, c :: rest =>
    if c = '[' then ofProperty read.reverse :: scan (.inItem []) rest
    else if c = '.' then ofProperty read.reverse :: scan (.inProperty []) rest
    else scan (.inProperty (c :: read)) rest

end Access

namespace Objects

variable (objects : Objects)

/-- The value that the name of a field stands for. There are no values by position. -/
def fieldValue (texts : Bindings) (name : List Char) : Except PromptError Value := do
  let isHead := fun c => c ≠ '.' && c ≠ '['
  let head := name.takeWhile isHead
  let position ← readIndex head
  if head.isEmpty then .error (.noPosition 0)
  else match position with
    | some n => .error (.noPosition n)
    | none => match texts.lookup (String.ofList head) with
      | none => .error (.unknownField (String.ofList head))
      | some s =>
        List.foldlM objects.follow (.text s.toList) (Access.scan .between (name.dropWhile isHead))

def textOf : Value → Except PromptError (List Char)
  | .text cs => .ok cs
  | .object id => objects.shown id

def literalOf : Value → Except PromptError (List Char)
  | .text cs => .ok (Text.literal (String.ofList cs)).toList
  | .object id => objects.literal id

/-- The value as it is, or its text or literal form in its place. A NUL asks for no conversion. -/
def convert (conversion : Option Char) (v : Value) : Except PromptError Value :=
  match conversion with
  | none => .ok v
  | some '\x00' => .ok v
  | some 's' => (objects.textOf v).map .text
  | some 'r' => (objects.literalOf v).map .text
  | some 'a' => (objects.literalOf v).map fun cs => .text (Text.toAscii cs)
  | some c => .error (.unknownConversion c)

def layOut (layout : List Char) : Value → Except PromptError (List Char)
  | .text cs => Layout.format layout cs
  | .object id => objects.laidOut id layout

/-- Fills in a template in which fields may be nested less than `depth` deep. -/
def fill (texts : Bindings) : (depth : Nat) → List Char → Except PromptError (List Char)
  | 0, _ => .error .tooDeep
  | depth + 1, template => do
    let parts ← (Mode.scan .text template).mapM fun
      | .literal c => .ok [c]
      | .broken e => .error e
      | .field f => do
        let value ← objects.fieldValue texts f.name
        let value ← objects.convert f.conversion value
        let layout ← if f.nested then fill texts depth f.layout else .ok f.layout
        objects.layOut layout value
    return parts.flatten

end Objects

def render (objects : Objects) (texts : Bindings) (template : String) :
    Except PromptError String :=
  (objects.fill texts 2 template.toList).map String.ofList

end PuzzleShell.Prompt
