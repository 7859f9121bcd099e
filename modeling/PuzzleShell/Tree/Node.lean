/-!
# Nodes

A node of the file tree is a file with its data or a directory with its children. A child is known
by its own name, and `Node.Ordered` says that at every level the names of the children strictly
increase: then no two children share a name, and two trees are equal when they hold the same
entries.
-/

namespace PuzzleShell

def defaultOwner : String := "user"

def plainMode : String := "rw-r--r--"

/-- The permissions of a file that can be executed, and of every directory. -/
def executableMode : String := "rwxr-xr-x"

structure FileData where
  content : String := ""
  executable : Bool := false
  permissions : String := plainMode
  owner : String := defaultOwner
deriving DecidableEq, Repr

inductive Node where
  | file (name : String) (data : FileData)
  | dir (name owner : String) (children : List Node)
deriving Repr

namespace Node

mutual
def decEq : (a b : Node) → Decidable (a = b)
  | .file m d, .file n e => decidable_of_iff (m = n ∧ d = e) (by simp)
  | .dir m o cs, .dir n p ds =>
    match decEqList cs ds with
    | isTrue h => decidable_of_iff (m = n ∧ o = p) (by simp [h])
    | isFalse h => isFalse (by simp [h])
  | .file .., .dir .. => isFalse (by simp)
  | .dir .., .file .. => isFalse (by simp)

def decEqList : (as bs : List Node) → Decidable (as = bs)
  | [], [] => isTrue rfl
  | a :: as, b :: bs =>
    match decEq a b, decEqList as bs with
    | isTrue h, isTrue k => isTrue (by rw [h, k])
    | isFalse h, _ => isFalse (by simp [h])
    | _, isFalse k => isFalse (by simp [k])
  | [], _ :: _ => isFalse (by simp)
  | _ :: _, [] => isFalse (by simp)
end

instance : DecidableEq Node := decEq

def name : Node → String
  | .file n _ => n
  | .dir n .. => n

def owner : Node → String
  | .file _ d => d.owner
  | .dir _ o _ => o

def isDir : Node → Bool
  | .file .. => false
  | .dir .. => true

def children : Node → List Node
  | .file .. => []
  | .dir _ _ cs => cs

def rename (name : String) : Node → Node
  | .file _ d => .file name d
  | .dir _ o cs => .dir name o cs

/-- The size of a directory itself, whatever it holds. -/
def dirSize : Nat := 4096

/-- A file is as large as its content is long. -/
def size : Node → Nat
  | .file _ d => d.content.length
  | .dir .. => dirSize

def child? (d : Node) (name : String) : Option Node := d.children.find? (·.name == name)

def get? (n : Node) : List String → Option Node
  | [] => some n
  | name :: rest => match n.child? name with
    | some c => c.get? rest
    | none => none

/-- Puts `n` among its siblings, in place of the one with its name if there is one. -/
def place (n : Node) : List Node → List Node
  | [] => [n]
  | c :: rest =>
    if n.name < c.name then n :: c :: rest
    else if c.name < n.name then c :: place n rest
    else n :: rest

def discard (name : String) (siblings : List Node) : List Node :=
  siblings.filter (·.name != name)

/-- The directory with `new` as its entry `name`, or without that entry. -/
def withChild (d : Node) (name : String) (new : Option Node) : Node :=
  match d with
  | .file .. => d
  | .dir m o cs => .dir m o (match new with
    | some n => place (n.rename name) cs
    | none => discard name cs)

inductive Ordered : Node → Prop
  | file (name : String) (data : FileData) : Ordered (.file name data)
  | dir (name owner : String) {children : List Node}
      (sorted : children.Pairwise (·.name < ·.name))
      (below : ∀ c ∈ children, Ordered c) : Ordered (.dir name owner children)

theorem name_rename (m : String) (n : Node) : (n.rename m).name = m := by cases n <;> rfl

theorem Ordered.rename {n : Node} (h : n.Ordered) (m : String) : (n.rename m).Ordered := by
  cases h with
  | file name data => exact .file m data
  | dir name owner sorted below => exact .dir m owner sorted below

theorem Ordered.children {n : Node} (h : n.Ordered) :
    n.children.Pairwise (·.name < ·.name) ∧ ∀ c ∈ n.children, c.Ordered := by
  cases h with
  | file => exact ⟨.nil, by simp [Node.children]⟩
  | dir _ _ sorted below => exact ⟨sorted, below⟩

theorem Ordered.child? {d c : Node} {name : String} (h : d.Ordered)
    (hc : d.child? name = some c) : c.Ordered :=
  h.children.2 c (List.mem_of_find?_eq_some hc)

theorem Ordered.get? {n m : Node} {path : List String} (h : n.Ordered)
    (hm : n.get? path = some m) : m.Ordered := by
  induction path generalizing n with
  | nil => cases hm; exact h
  | cons name rest ih =>
    simp only [Node.get?] at hm
    split at hm
    · next c hc => exact ih (h.child? hc) hm
    · cases hm

theorem mem_place {n c : Node} {siblings : List Node} (h : c ∈ place n siblings) :
    c = n ∨ c ∈ siblings := by
  induction siblings with
  | nil => exact .inl (by simpa [place] using h)
  | cons d rest ih => grind [place]

theorem sorted_place (n : Node) {siblings : List Node}
    (h : siblings.Pairwise (·.name < ·.name)) : (place n siblings).Pairwise (·.name < ·.name) := by
  induction siblings with
  | nil => simp [place]
  | cons c rest ih =>
    obtain ⟨hc, hrest⟩ := List.pairwise_cons.1 h
    unfold place
    split
    · next hlt =>
      refine List.pairwise_cons.2 ⟨fun d hd => ?_, h⟩
      rcases List.mem_cons.1 hd with rfl | hd
      · exact hlt
      · exact String.lt_trans hlt (hc d hd)
    · next hnlt =>
      split
      · next hgt =>
        refine List.pairwise_cons.2 ⟨fun d hd => ?_, ih hrest⟩
        rcases mem_place hd with rfl | hd
        · exact hgt
        · exact hc d hd
      · next hngt =>
        have heq : n.name = c.name := String.le_antisymm hngt hnlt
        exact List.pairwise_cons.2 ⟨fun d hd => heq ▸ hc d hd, hrest⟩

theorem Ordered.withChild {d : Node} (h : d.Ordered) (name : String) {new : Option Node}
    (hnew : ∀ n ∈ new, n.Ordered) : (d.withChild name new).Ordered := by
  cases h with
  | file m data => exact .file m data
  | dir m o sorted below =>
    cases new with
    | none =>
      exact .dir m o (sorted.filter _) fun c hc => below c (List.mem_filter.1 hc).1
    | some n =>
      refine .dir m o (sorted_place _ sorted) fun c hc => ?_
      rcases mem_place hc with rfl | hc
      · exact (hnew n rfl).rename name
      · exact below c hc

end Node

end PuzzleShell
