import PuzzleShell.Tree.Edit

/-!
# Looking up after a graft

What is found in a node after an entry was put into it or taken from it, first among the children
and then along a path. The label of a node is what it is without its children: a graft keeps the
label of everything that does not lie at or below its path, and at and below its path exactly the
new entry is found.
-/

namespace PuzzleShell.Node

/-- The node alone, a directory without its children. -/
def label : Node → Node
  | .file n d => .file n d
  | .dir n o _ => .dir n o []

@[simp] theorem isDir_label (n : Node) : n.label.isDir = n.isDir := by cases n <;> rfl

@[simp] theorem name_label (n : Node) : n.label.name = n.name := by cases n <;> rfl

@[simp] theorem owner_label (n : Node) : n.label.owner = n.owner := by cases n <;> rfl

@[simp] theorem isDir_rename (n : Node) (m : String) : (n.rename m).isDir = n.isDir := by
  cases n <;> rfl

theorem rename_name (n : Node) : n.rename n.name = n := by cases n <;> rfl

theorem name_of_child? {d c : Node} {name : String} (h : d.child? name = some c) :
    c.name = name := by
  simpa using List.find?_some h

theorem isDir_of_child? {d c : Node} {name : String} (h : d.child? name = some c) :
    d.isDir = true := by
  cases d with
  | file => simp [child?, children] at h
  | dir => rfl

theorem find?_place (n : Node) (m : String) (siblings : List Node) :
    (place n siblings).find? (·.name == m) =
      if n.name = m then some n else siblings.find? (·.name == m) := by
  induction siblings with
  | nil => by_cases h : n.name = m <;> simp [place, h]
  | cons c rest ih =>
    unfold place
    split
    · by_cases h : n.name = m <;> simp [h]
    · next hnlt =>
      split
      · next hlt =>
        by_cases h : n.name = m
        · have hc : c.name ≠ m := fun hc => String.lt_irrefl m (by rwa [hc, h] at hlt)
          simp [h, hc, ih]
        · rw [List.find?_cons, List.find?_cons, ih, if_neg h, if_neg h]
      · next hngt =>
        have heq : n.name = c.name := String.le_antisymm hngt hnlt
        by_cases h : n.name = m
        · simp [h]
        · have hc : c.name ≠ m := fun hc => h (heq.trans hc)
          simp [h, hc]

theorem find?_discard (name m : String) (siblings : List Node) :
    (discard name siblings).find? (·.name == m) =
      if name = m then none else siblings.find? (·.name == m) := by
  unfold discard
  rw [List.find?_filter]
  by_cases h : name = m
  · subst h
    simp
  · rw [if_neg h]
    congr 1
    funext c
    by_cases hc : c.name = m
    · simp [hc, Ne.symm h]
    · simp [hc]

theorem child?_withChild {d : Node} (hd : d.isDir = true) (name m : String) (new : Option Node) :
    (d.withChild name new).child? m =
      if name = m then new.map (rename name) else d.child? m := by
  cases d with
  | file => cases hd
  | dir n o cs =>
    cases new with
    | none => exact find?_discard name m cs
    | some c =>
      refine (find?_place (c.rename name) m cs).trans ?_
      rw [name_rename]
      rfl

theorem label_withChild (d : Node) (name : String) (new : Option Node) :
    (d.withChild name new).label = d.label := by
  cases d <;> rfl

theorem get?_cons (n : Node) (name : String) (rest : List String) :
    n.get? (name :: rest) = (n.child? name).bind (·.get? rest) := by
  rw [get?]
  cases n.child? name <;> rfl

theorem get?_append (n : Node) (p q : List String) :
    n.get? (p ++ q) = (n.get? p).bind (·.get? q) := by
  induction p generalizing n with
  | nil => rfl
  | cons name p ih =>
    rw [List.cons_append, get?_cons, get?_cons]
    cases n.child? name with
    | none => rfl
    | some c => exact ih c

theorem get?_singleton (n : Node) (name : String) : n.get? [name] = n.child? name := by
  rw [get?_cons]
  cases n.child? name <;> rfl

theorem get?_of_prefix {n m : Node} {p q : List String} (h : n.get? q = some m) (hp : p <+: q) :
    ∃ d, n.get? p = some d ∧ (p = q ∨ d.isDir = true) := by
  obtain ⟨rest, rfl⟩ := hp
  rw [get?_append] at h
  obtain ⟨d, hd, hm⟩ := Option.bind_eq_some_iff.1 h
  refine ⟨d, hd, ?_⟩
  cases rest with
  | nil => exact .inl (List.append_nil p).symm
  | cons name rest =>
    rw [get?_cons] at hm
    obtain ⟨c, hc, -⟩ := Option.bind_eq_some_iff.1 hm
    exact .inr (isDir_of_child? hc)

variable {new : Option Node} {d d' : Node} {name : String} {rest q : List String}

theorem graft_nil_eq_ok (h : graft new d name [] = .ok d') :
    d.isDir = true ∧ d' = d.withChild name new := by
  rw [graft] at h
  split at h
  · next hd =>
    cases h
    exact ⟨hd, rfl⟩
  · cases h

theorem graft_cons_eq_ok {next : String} (h : graft new d name (next :: rest) = .ok d') :
    ∃ e c, d.child? name = some e ∧ graft new e next rest = .ok c ∧
      d' = d.withChild name (some c) := by
  rw [graft] at h
  split at h
  · next m o cs hchild =>
    cases hg : graft new (.dir m o cs) next rest with
    | error e => rw [hg] at h; cases h
    | ok c =>
      rw [hg] at h
      cases h
      exact ⟨_, c, hchild, hg, rfl⟩
  · cases h

/-- A graft keeps what is passed on to children and kept when one of them is put in or taken out. -/
theorem graft_preserves {P : Node → Prop} {Q : String → Prop}
    (hchild : ∀ {d c : Node} {name : String}, P d → d.child? name = some c → P c)
    (hwith : ∀ {d : Node} {name : String} {new : Option Node}, P d → Q name → (∀ n ∈ new, P n) →
      P (d.withChild name new))
    (hd : P d) (hnames : ∀ s ∈ name :: rest, Q s) (hnew : ∀ n ∈ new, P n)
    (h : graft new d name rest = .ok d') : P d' := by
  have hname : Q name := hnames name List.mem_cons_self
  induction rest generalizing d name d' with
  | nil =>
    obtain ⟨-, rfl⟩ := graft_nil_eq_ok h
    exact hwith hd hname hnew
  | cons next rest ih =>
    obtain ⟨e, c, he, hc, rfl⟩ := graft_cons_eq_ok h
    have hrest : ∀ s ∈ next :: rest, Q s := fun s hs => hnames s (List.mem_cons_of_mem _ hs)
    refine hwith hd hname fun n hn => ?_
    cases hn
    exact ih (hchild hd he) hrest hc (hrest next List.mem_cons_self)

theorem label_graft (h : graft new d name rest = .ok d') : d'.label = d.label := by
  cases rest with
  | nil =>
    obtain ⟨-, rfl⟩ := graft_nil_eq_ok h
    exact label_withChild d name new
  | cons next rest =>
    obtain ⟨_, _, -, -, rfl⟩ := graft_cons_eq_ok h
    exact label_withChild d name _

theorem child?_graft_cons {next : String} (h : graft new d name (next :: rest) = .ok d')
    (m : String) : ∃ e c, d.child? name = some e ∧ graft new e next rest = .ok c ∧
      d'.child? m = if name = m then some c else d.child? m := by
  obtain ⟨e, c, he, hg, rfl⟩ := graft_cons_eq_ok h
  refine ⟨e, c, he, hg, ?_⟩
  have hname : c.name = name := by
    have hlabel := congrArg Node.name (label_graft hg)
    rw [name_label, name_label] at hlabel
    exact hlabel.trans (name_of_child? he)
  rw [child?_withChild (isDir_of_child? he), Option.map_some, ← hname, rename_name]

theorem map_label_get?_graft (h : graft new d name rest = .ok d') (hq : ¬ name :: rest <+: q) :
    (d'.get? q).map label = (d.get? q).map label := by
  induction rest generalizing d name d' q with
  | nil =>
    cases q with
    | nil => exact congrArg some (label_graft h)
    | cons m q =>
      obtain ⟨hd, rfl⟩ := graft_nil_eq_ok h
      have hne : name ≠ m := fun he => hq (by simp [he])
      rw [get?_cons, get?_cons, child?_withChild hd, if_neg hne]
  | cons next rest ih =>
    cases q with
    | nil => exact congrArg some (label_graft h)
    | cons m q =>
      obtain ⟨e, c, he, hg, hchild⟩ := child?_graft_cons h m
      rw [get?_cons, get?_cons, hchild]
      by_cases hm : name = m
      · subst hm
        rw [if_pos rfl, he]
        exact ih hg fun hp => hq (List.cons_prefix_cons.2 ⟨rfl, hp⟩)
      · rw [if_neg hm]

theorem get?_graft_append (h : graft new d name rest = .ok d') (q : List String) :
    d'.get? (name :: rest ++ q) =
      (new.map (rename ((name :: rest).getLast (List.cons_ne_nil _ _)))).bind (·.get? q) := by
  induction rest generalizing d name d' with
  | nil =>
    obtain ⟨hd, rfl⟩ := graft_nil_eq_ok h
    rw [List.cons_append, get?_cons, child?_withChild hd, if_pos rfl]
    rfl
  | cons next rest ih =>
    obtain ⟨e, c, he, hg, hchild⟩ := child?_graft_cons h name
    rw [List.cons_append, get?_cons, hchild, if_pos rfl, List.getLast_cons_cons]
    exact ih hg

/-- A graft is not seen from any place but those on its path and below it. -/
theorem get?_graft_of_apart (h : graft new d name rest = .ok d') (hover : ¬ q <+: name :: rest)
    (hunder : ¬ name :: rest <+: q) : d'.get? q = d.get? q := by
  induction rest generalizing d name d' q with
  | nil =>
    cases q with
    | nil => exact absurd List.nil_prefix hover
    | cons m q =>
      obtain ⟨hd, rfl⟩ := graft_nil_eq_ok h
      have hne : name ≠ m := fun he => hunder (by simp [he])
      rw [get?_cons, get?_cons, child?_withChild hd, if_neg hne]
  | cons next rest ih =>
    cases q with
    | nil => exact absurd List.nil_prefix hover
    | cons m q =>
      obtain ⟨e, c, he, hg, hchild⟩ := child?_graft_cons h m
      rw [get?_cons, get?_cons, hchild]
      by_cases hm : name = m
      · subst hm
        rw [if_pos rfl, he]
        exact ih hg (fun hp => hover (List.cons_prefix_cons.2 ⟨rfl, hp⟩))
          fun hp => hunder (List.cons_prefix_cons.2 ⟨rfl, hp⟩)
      · rw [if_neg hm]

section Same

variable {n : Node}

theorem place_of_mem {siblings : List Node} (hsorted : siblings.Pairwise (·.name < ·.name))
    (hn : n ∈ siblings) : place n siblings = siblings := by
  induction siblings with
  | nil => cases hn
  | cons c rest ih =>
    obtain ⟨hc, hrest⟩ := List.pairwise_cons.1 hsorted
    rcases List.mem_cons.1 hn with rfl | hn
    · rw [place, if_neg (String.lt_irrefl _), if_neg (String.lt_irrefl _)]
    · have hlt : c.name < n.name := hc n hn
      rw [place, if_neg (String.lt_asymm hlt), if_pos hlt, ih hrest hn]

theorem Ordered.withChild_self (h : d.Ordered) (hn : d.child? name = some n) :
    d.withChild name (some n) = d := by
  cases d with
  | file => cases hn
  | dir m o cs =>
    have hsame : place n cs = cs := place_of_mem h.children.1 (List.mem_of_find?_eq_some hn)
    rw [Node.withChild, ← name_of_child? hn, rename_name, hsame]

theorem Ordered.graft_self (h : d.Ordered) (hn : d.get? (name :: rest) = some n) :
    Node.graft (some n) d name rest = .ok d := by
  induction rest generalizing d name with
  | nil =>
    rw [get?_singleton] at hn
    rw [Node.graft, if_pos (isDir_of_child? hn), h.withChild_self hn]
  | cons next rest ih =>
    rw [get?_cons] at hn
    obtain ⟨c, hc, hbelow⟩ := Option.bind_eq_some_iff.1 hn
    have hsame : Node.graft (some n) c next rest = .ok c := ih (h.child? hc) hbelow
    cases c with
    | file => cases hbelow
    | dir m o cs =>
      rw [Node.graft, hc]
      dsimp only
      rw [hsame]
      exact congrArg Except.ok (h.withChild_self hc)

end Same

end PuzzleShell.Node
