import PuzzleShell.Prompt.Error
import PuzzleShell.Text.DecimalDigit

/-!
# Layouts

The layout of a field says how its text is cut and padded:
`[[fill]align][sign][z][#][0][width][separator][.precision][kind]`. Only the fill, the alignment,
the width, the precision and the kind `s` make sense for a text; the rest is read so that it can
be refused.
-/

namespace PuzzleShell.Prompt

structure Layout where
  fill : Char := ' '
  align : Char := '<'
  sign : Option Char := none
  negativeZero : Bool := false
  alternate : Bool := false
  width : Option Nat := none
  separator : Option Char := none
  precision : Option Nat := none
  kind : Char := 's'
deriving DecidableEq, Repr

namespace Layout

def isAlign (c : Char) : Bool := c = '<' || c = '>' || c = '=' || c = '^'

def takeAlign : List Char → Option Char × Option Char × List Char
  | c :: d :: rest =>
    if isAlign d then (some c, some d, rest)
    else if isAlign c then (none, some c, d :: rest)
    else (none, none, c :: d :: rest)
  | [c] => if isAlign c then (none, some c, []) else (none, none, [c])
  | [] => (none, none, [])

def takeIf (p : Char → Bool) : List Char → Option Char × List Char
  | c :: rest => if p c then (some c, rest) else (none, c :: rest)
  | [] => (none, [])

/-- The largest number that a template may hold. -/
def maxNumber : Nat := 0x7FFFFFFFFFFFFFFF

def takeNumber (read : Option Nat) : List Char → Except PromptError (Option Nat × List Char)
  | [] => .ok (read, [])
  | c :: rest => match Text.decimalDigit? c with
    | none => .ok (read, c :: rest)
    | some d =>
      let n := read.getD 0 * 10 + d
      if n ≤ maxNumber then takeNumber (some n) rest else .error .tooManyDigits

def takePrecision (cs : List Char) : Except PromptError (Option Nat × List Char) :=
  match cs with
  | '.' :: rest => do
    let (precision, rest) ← takeNumber none rest
    if precision.isNone then .error .missingPrecision else .ok (precision, rest)
  | _ => .ok (none, cs)

/-- A comma or an underscore, but not both. -/
def takeSeparator (cs : List Char) : Except PromptError (Option Char × List Char) :=
  match takeIf (· == ',') cs with
  | (some _, '_' :: _) => .error .bothSeparators
  | (some c, rest) => .ok (some c, rest)
  | (none, '_' :: ',' :: _) => .error .bothSeparators
  | (none, rest) => .ok (takeIf (· == '_') rest)

def allowsSeparator (separator kind : Char) : Bool :=
  kind ∈ ['d', 'e', 'f', 'g', 'E', 'G', '%', 'F', '\x00']
    || separator = '_' && kind ∈ ['b', 'o', 'x', 'X']

def parse (cs : List Char) : Except PromptError Layout := do
  let (fill, align, rest) := takeAlign cs
  let (sign, rest) := takeIf (fun c => c = '+' || c = '-' || c = ' ') rest
  let (z, rest) := takeIf (· == 'z') rest
  let (hash, rest) := takeIf (· == '#') rest
  let (zero, rest) := if fill.isNone then takeIf (· == '0') rest else (none, rest)
  let (width, rest) ← takeNumber none rest
  let (separator, rest) ← takeSeparator rest
  let (precision, rest) ← takePrecision rest
  let (kind, rest) := takeIf (fun _ => true) rest
  if !rest.isEmpty then .error (.badLayout (String.ofList cs))
  else .ok {
    fill := (fill.or zero).getD ' '
    align := align.getD '<'
    sign, width, separator, precision
    negativeZero := z.isSome
    alternate := hash.isSome
    kind := kind.getD 's' }

/-- The first thing in the layout that a text cannot have. -/
def refusal (l : Layout) : Option PromptError :=
  match l.separator.filter (!allowsSeparator · l.kind) with
  | some c => some (.separatorKind c l.kind)
  | none =>
    if l.kind ≠ 's' then some (.unknownKind l.kind)
    else if l.sign = some ' ' then some .spaceSign
    else if l.sign.isSome then some .sign
    else if l.negativeZero then some .negativeZero
    else if l.alternate then some .alternate
    else if l.align = '=' then some .padAfterSign
    else none

/-- The text cut to the precision and padded to the width. In the middle, an odd pad is longer on
the right. -/
def apply (l : Layout) (cs : List Char) : List Char :=
  let cut := match l.precision with
    | some n => cs.take n
    | none => cs
  let pad := l.width.getD 0 - cut.length
  let left := if l.align = '>' then pad else if l.align = '^' then pad / 2 else 0
  List.replicate left l.fill ++ cut ++ List.replicate (pad - left) l.fill

def format (spec text : List Char) : Except PromptError (List Char) :=
  if spec.isEmpty then .ok text
  else do
    let l ← parse spec
    match l.refusal with
    | some e => .error e
    | none => .ok (l.apply text)

end Layout

end PuzzleShell.Prompt
