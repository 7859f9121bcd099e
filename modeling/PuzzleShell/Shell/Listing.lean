import PuzzleShell.Input
import PuzzleShell.Shell.Request

/-!
# Looking around and moving
-/

namespace PuzzleShell.Shell

/-- The long form of an entry. Directories carry no mode of their own. -/
def longLine (n : Node) (name : String) : String :=
  let owner := n.owner
  let size := toString n.size
  match n with
  | .dir .. => s!"d{executableMode} 1 {owner} {owner} {size} {name}"
  | .file _ data =>
    let permissions := data.permissions
    s!"-{permissions} 1 {owner} {owner} {size} {name}"

/-- The long form of the directory itself and of the one above. -/
def dotLine (name : String) : String :=
  let size := toString Node.dirSize
  s!"d{executableMode} 2 {defaultOwner} {defaultOwner} {size} {name}"

def dots : List String := [".", ".."]

def ls (r : Request) : Outcome :=
  let flags := Flags.ofArgs r.args
  let all := flags.has "a"
  let long := flags.has "l"
  let target := flags.operands.headD r.cwd
  match r.lookup target with
  | none => .fail s!"ls: cannot access '{target}': No such file or directory"
  | some (.file name data) => .print [if long then longLine (.file name data) name else name]
  | some (.dir _ _ cs) =>
    let shown := cs.filter fun c => all || !Text.startsWith "." c.name
    let above := if all then dots else []
    if long then
      .print (above.map dotLine
        ++ shown.map fun c => if c.name ∈ dots then dotLine c.name else longLine c c.name)
    else match above ++ shown.map (·.name) with
      | [] => {}
      | names => .print ["  ".intercalate names]

def cd (r : Request) : Outcome :=
  let target := r.args.headD Path.home
  match r.lookup target with
  | none => .fail s!"cd: {target}: No such file or directory"
  | some (.file ..) => .fail s!"cd: {target}: Not a directory"
  | some (.dir ..) => { patch := { cwd := some (r.resolve target) } }

def pwd (r : Request) : Outcome := .print [if r.cwd = "" then "/" else r.cwd]

end PuzzleShell.Shell
