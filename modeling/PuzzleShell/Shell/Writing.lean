import PuzzleShell.Input
import PuzzleShell.Shell.Request
import PuzzleShell.Text.Quotes

/-!
# Writing

The commands that make and change files and directories. Those with many operands report an
operand that fails and go on with the rest.
-/

namespace PuzzleShell.Shell

/-- The words as one text, without its outer quotes. -/
def echoText (words : List String) : String := Text.stripQuotes (" ".intercalate words)

def priorContent (r : Request) (mode : RedirectMode) (target : String) : String :=
  match mode with
  | .overwrite => ""
  | .append => (r.read target).toOption.getD ""

def writeLine (r : Request) (mode : RedirectMode) (target text : String) : Outcome :=
  match r.lookup target with
  | some (.dir ..) => .fail s!"cannot overwrite directory '{target}'"
  | _ =>
    match r.tree.write (r.resolve target) (priorContent r mode target ++ text ++ "\n") with
    | .ok tree => { patch := { tree := some tree } }
    | .error (.isDirectory _) => .fail s!"cannot overwrite directory '{target}'"
    | .error _ => .fail s!"cannot create '{target}': No such file or directory"

def echo (r : Request) : Outcome :=
  match Redirect.split r.args with
  | (words, none) => .print [echoText words]
  | (_, some ⟨_, none⟩) => .fail "syntax error near unexpected token `newline'"
  | (words, some ⟨mode, some target⟩) => writeLine r mode target (echoText words)

def forOperands (r : Request) (operands : List String)
    (edit : Draft → String → Except Fault Draft) : Except Fault Draft :=
  operands.foldlM edit { tree := r.tree }

def mkdirOne (r : Request) (d : Draft) (target : String) : Except Fault Draft :=
  let path := r.resolve target
  match d.tree.lookup (Path.parent path) with
  | some (.dir m o cs) =>
    let name := Path.name path
    if name = "" ∨ ((Node.dir m o cs).child? name).isSome then
      .ok (d.report (.error s!"mkdir: cannot create directory '{target}': File exists"))
    else
      ((d.tree.put path (.emptyDir name)).mapError .edit).map d.update
  | _ =>
    .ok (d.report (.error s!"mkdir: cannot create directory '{target}': No such file or directory"))

def mkdir (r : Request) : Except Fault Outcome :=
  match r.args.filter (!Text.startsWith "-" ·) with
  | [] => .ok (.fail "mkdir: missing operand")
  | targets => (forOperands r targets (mkdirOne r)).map Draft.outcome

/-- What exists already is left as it is. -/
def touchOne (r : Request) (d : Draft) (target : String) : Draft :=
  let path := r.resolve target
  if (d.tree.lookup path).isSome then d
  else match d.tree.write path "" with
    | .ok tree => d.update tree
    | .error _ => d.report (.error s!"touch: cannot touch '{target}': No such file or directory")

def touch (r : Request) : Outcome :=
  match r.args with
  | [] => .fail "touch: missing file operand"
  | targets => (targets.foldl (touchOne r) { tree := r.tree }).outcome

def executableMode? (mode : String) : Option Bool :=
  if mode ∈ ["+x", "755", "777"] then some true
  else if mode ∈ ["-x", "644"] then some false
  else none

def modePermissions (executable : Bool) : String :=
  if executable then executableMode else plainMode

/-- Directories carry no mode and are passed over. -/
def chmodOne (r : Request) (executable : Bool) (d : Draft) (target : String) :
    Except Fault Draft :=
  let path := r.resolve target
  match d.tree.lookup path with
  | none =>
    .ok (d.report (.error s!"chmod: cannot access '{target}': No such file or directory"))
  | some (.dir ..) => .ok d
  | some (.file name data) =>
    let changed := { data with executable, permissions := modePermissions executable }
    ((d.tree.put path (.file name changed)).mapError .edit).map d.update

def chmod (r : Request) : Except Fault Outcome :=
  match r.args with
  | mode :: target :: others =>
    match executableMode? mode with
    | none => .ok (.fail s!"chmod: invalid mode: '{mode}'")
    | some executable =>
      (forOperands r (target :: others) (chmodOne r executable)).map Draft.outcome
  | _ => .ok (.fail "chmod: missing operand")

def archiveContent (paths : List String) : String :=
  String.join (paths.map fun path => s!"tar archive of {path}\n")

def missingSource (source : String) : Line :=
  .error s!"tar: {source}: Cannot stat: No such file or directory"

/-- The archive is written only if every source exists. -/
def archive (r : Request) (target : String) (sources : List String) : Outcome :=
  match sources.filter fun source => (r.lookup source).isNone with
  | [] =>
    match r.tree.write (r.resolve target) (archiveContent (sources.map r.resolve)) with
    | .ok tree => { patch := { tree := some tree } }
    | .error _ => .fail s!"tar: {target}: Cannot create archive: No such file or directory"
  | missing => { lines := missing.map missingSource }

def tar (r : Request) : Outcome :=
  match r.args with
  | options :: target :: source :: sources =>
    let letters := options.toList.dropWhile (· == '-')
    if 'c' ∈ letters ∧ 'f' ∈ letters then archive r target (source :: sources)
    else .fail "tar: usage: tar -cf <archive> <source>"
  | _ => .fail "tar: usage: tar -cf <archive> <source>"

end PuzzleShell.Shell
