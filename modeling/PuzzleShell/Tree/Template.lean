import PuzzleShell.Text.Literal
import PuzzleShell.Tree.Edit

/-!
# Templates

A template describes a tree loosely: fields may be missing, and their kinds are not checked by
whoever wrote it. `FileTree.ofTemplate` reads one and fills in the defaults; `Node.toTemplate`
writes a tree out in full.
-/

namespace PuzzleShell

/-- A field whose kind is not known beforehand. -/
inductive Datum where
  | null
  | bool (b : Bool)
  | int (n : Int)
  /-- The number `units / 10 ^ places`. -/
  | decimal (units : Int) (places : Nat)
  | text (s : String)
  /-- A list or a record, of which only the number of items matters. -/
  | items (count : Nat)
deriving DecidableEq, Repr

namespace Datum

/-- A field counts as set unless it is missing, false, zero or empty. -/
def isSet : Datum → Bool
  | null => false
  | bool b => b
  | int n => n != 0
  | decimal units _ => units != 0
  | text s => s != ""
  | items count => count != 0

def literal : Datum → String
  | null => "None"
  | bool true => "True"
  | bool false => "False"
  | int n => toString n
  | decimal units places => toString units ++ "e-" ++ toString places
  | text s => Text.literal s
  | items count => "<" ++ toString count ++ " items>"

end Datum

structure Template where
  kind : Datum := .null
  name : Option String := none
  content : Option String := none
  executable : Datum := .null
  permissions : Option String := none
  owner : Option String := none
  children : List (String × Template) := []

inductive TemplateError where
  | badName (name : String)
  | unknownKind (kind : Datum)
deriving DecidableEq, Repr

def TemplateError.message : TemplateError → String
  | badName name => "Invalid node name: " ++ Text.literal name
  | unknownKind kind => "Unknown node type: " ++ kind.literal

namespace Template

/-- A field that is missing or empty takes its default. -/
def orDefault (field : Option String) (default : String) : String :=
  match field with
  | some s => if s = "" then default else s
  | none => default

mutual
def toNode (name : String) : Template → Except TemplateError Node
  | ⟨kind, _, content, executable, permissions, owner, children⟩ =>
    if '/' ∈ name.toList ∧ name ≠ "/" then .error (.badName name)
    else if kind = .text "file" then
      .ok (.file name {
        content := orDefault content ""
        executable := executable.isSet
        permissions := orDefault permissions plainMode
        owner := orDefault owner defaultOwner })
    else if kind = .text "directory" then do
      let made ← toNodes [] children
      return .dir name (orDefault owner defaultOwner) made
    else .error (.unknownKind kind)

/-- Reads the children, each under its key, and adds them to those already made. -/
def toNodes (made : List Node) : List (String × Template) → Except TemplateError (List Node)
  | [] => .ok made
  | (key, t) :: rest => do
    let n ← toNode key t
    toNodes (n.place made) rest
end

mutual
theorem ordered_toNode (name : String) : (t : Template) → ∀ {n : Node},
    t.toNode name = .ok n → n.Ordered
  | ⟨kind, _, content, executable, permissions, owner, children⟩, n, h => by
    simp only [toNode] at h
    split at h
    · cases h
    · split at h
      · cases h; exact .file ..
      · split at h
        · cases hm : toNodes [] children with
          | error e => rw [hm] at h; cases h
          | ok made =>
            rw [hm] at h
            cases h
            have := ordered_toNodes children .nil (by simp) hm
            exact .dir _ _ this.1 this.2
        · cases h

theorem ordered_toNodes : (ts : List (String × Template)) → ∀ {made ns : List Node},
    made.Pairwise (·.name < ·.name) → (∀ c ∈ made, c.Ordered) → toNodes made ts = .ok ns →
    ns.Pairwise (·.name < ·.name) ∧ ∀ c ∈ ns, c.Ordered
  | [], made, ns, hs, hb, h => by
    simp only [toNodes, Except.ok.injEq] at h
    exact h ▸ ⟨hs, hb⟩
  | (key, t) :: rest, made, ns, hs, hb, h => by
    simp only [toNodes] at h
    cases hn : toNode key t with
    | error e => rw [hn] at h; cases h
    | ok n =>
      rw [hn] at h
      refine ordered_toNodes rest (Node.sorted_place n hs) (fun c hc => ?_) h
      rcases Node.mem_place hc with rfl | hc
      · exact ordered_toNode key t hn
      · exact hb c hc
end

end Template

namespace FileTree

def ofTemplate (t : Template) : Except TemplateError FileTree :=
  match h : t.toNode (t.name.getD "") with
  | .error e => .error e
  | .ok n => .ok ⟨n, Template.ordered_toNode _ t h⟩

end FileTree

namespace Node

mutual
def toTemplate : Node → Template
  | .file name d => {
      kind := .text "file"
      name := some name
      content := some d.content
      executable := .bool d.executable
      permissions := some d.permissions
      owner := some d.owner }
  | .dir name owner cs => {
      kind := .text "directory"
      name := some name
      owner := some owner
      children := toTemplates cs }

def toTemplates : List Node → List (String × Template)
  | [] => []
  | c :: rest => (c.name, toTemplate c) :: toTemplates rest
end

end Node

end PuzzleShell
