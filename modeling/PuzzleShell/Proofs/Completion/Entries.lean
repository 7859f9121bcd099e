import PuzzleShell.Proofs.Completion
import PuzzleShell.Proofs.Shell.Echoes
import PuzzleShell.Proofs.Shell.Moving

/-!
# Completed words and the entries they name

A candidate for a path was chosen because of an entry of a directory. Typed as a word of a command
it is resolved from the start, and it leads to that very entry: what is kept of the typed word leads
to the directory, and the name goes on from there. One name is lost on the way. Where nothing has
been typed yet an entry called `~` is offered by its bare name, and that means the home directory.
-/

namespace PuzzleShell

open PuzzleShell.Path (Canonical IsName)

namespace FileTree

variable {t : FileTree}

/-- Every name below the root can be a word of a line. -/
def Typeable (t : FileTree) : Prop :=
  ∀ e ∈ t.root.walk "/", ∀ c ∈ e.2.children, Text.IsWord c.name

instance : DecidablePred Typeable := fun t =>
  inferInstanceAs (Decidable (∀ e ∈ t.root.walk "/", ∀ c ∈ e.2.children, Text.IsWord c.name))

theorem Typeable.isWord {path : String} {d c : Node} (h : t.Typeable) (ht : t.WellFormed)
    (hd : t.lookup path = some d) (hc : c ∈ d.children) : Text.IsWord c.name := by
  have hroot : Canonical "/" := by decide
  have hmet : (Node.pathBelow "/" (Path.segments path), d) ∈ t.root.walk "/" :=
    (ht.wellNamed.mem_walk_iff hroot).2 ⟨_, hd, rfl⟩
  exact h _ hmet c hc

end FileTree

namespace Completion

section Word

variable {word kept stub : String} {e : Node}

theorem inked_fragment (line : String) : ∀ c ∈ (fragment line).toList, Text.isBlank c = false := by
  unfold fragment
  split
  · exact List.forall_mem_nil _
  · cases hlast : (Text.words line).getLast? with
    | none => exact List.forall_mem_nil _
    | some w => exact (Text.isWord_of_mem_words (List.mem_of_getLast? hlast)).inked

theorem Cut.inked (h : Cut word kept stub) (hword : ∀ c ∈ word.toList, Text.isBlank c = false) :
    ∀ c ∈ kept.toList, Text.isBlank c = false := by
  rw [h.eq_append, String.toList_append, List.forall_mem_append] at hword
  exact hword.1

theorem isWord_offer (hkept : ∀ c ∈ kept.toList, Text.isBlank c = false)
    (he : Text.IsWord e.name) : Text.IsWord (offer kept e) := by
  have hslash : Text.isBlank '/' = false := by decide
  refine he.surrounded hkept ?_
  cases e.isDir with
  | true => simpa using hslash
  | false => simp

theorem endsWith_offer (he : IsName e.name) : Text.endsWith '/' (offer kept e) = e.isDir := by
  cases hdir : e.isDir with
  | true =>
    rw [offer, hdir, if_pos rfl, Path.endsWith_append (by decide)]
    decide
  | false =>
    rw [offer, hdir, if_neg Bool.false_ne_true, String.append_empty, Path.endsWith_append he.1,
      he.endsWith_slash]

end Word

section Place

variable {s : State} {word kept stub : String} {e : Node}

theorem canonical_place (hcwd : Canonical s.cwd) (kept : String) : Canonical (place s kept) := by
  unfold place
  split
  · exact hcwd
  · exact Path.canonical_resolve kept s.cwd

theorem exists_of_mem_entries (he : e ∈ entries s kept) :
    ∃ d, s.tree.lookup (place s kept) = some d ∧ e ∈ d.children := by
  unfold entries at he
  cases hd : s.tree.lookup (place s kept) with
  | none => rw [hd] at he; cases he
  | some d =>
    rw [hd] at he
    exact ⟨d, rfl, he⟩

theorem resolve_offer_eq (he : IsName e.name) (cwd : String) :
    Path.resolve (offer kept e) cwd = Path.resolve (kept ++ e.name) cwd := by
  have hne : kept ++ e.name ≠ "" := fun hempty => he.1 (String.append_eq_empty_iff.1 hempty).2
  unfold offer
  split
  · exact Path.resolve_append_slash hne cwd
  · rw [String.append_empty]

theorem resolve_offer (hcut : Cut word kept stub) (hcwd : Canonical s.cwd) (he : IsName e.name)
    (hhome : kept = "" → e.name ≠ "~") :
    Path.resolve (offer kept e) s.cwd = Path.join (place s kept) e.name := by
  rw [resolve_offer_eq he, place]
  split
  · next hkept =>
    rw [hkept, String.empty_append, he.resolve_eq (hhome hkept) hcwd]
  · next hkept =>
    have hslash : Text.endsWith '/' kept = true := hcut.kept.resolve_left hkept
    have hjoin : Path.join kept e.name = kept ++ e.name := if_pos hslash
    rw [← hjoin, Path.resolve_join hkept he]

end Place

/-- Typed as a word, `c` names the entry `e` at the path. -/
structure Names (s : State) (path c : String) (e : Node) : Prop where
  resolve_eq : Path.resolve c s.cwd = path
  lookup_eq : s.tree.lookup path = some e
  endsWith_eq : Text.endsWith '/' c = e.isDir
  cd : e.isDir = true → ∀ context : Context,
    execute context s ("cd " ++ c) = { patch := { cwd := some path } }
  cat : ∀ name data, e = .file name data → ∀ context : Context,
    execute context s ("cat " ++ c) = .print (Shell.contentLines data.content)

theorem names_of_resolve {s : State} {path c : String} {e : Node} (hword : Text.IsWord c)
    (hresolve : Path.resolve c s.cwd = path) (hlookup : s.tree.lookup path = some e)
    (hslash : Text.endsWith '/' c = e.isDir) : Names s path c e where
  resolve_eq := hresolve
  lookup_eq := hlookup
  endsWith_eq := hslash
  cd hdir context := by
    have hline : Text.words ("cd" ++ " " ++ c) = ["cd", c] := hword.words_behind (by decide)
    have hthere : s.tree.hasDir (Path.resolve c s.cwd) = true :=
      FileTree.hasDir_eq_true_iff.2 ⟨e, hresolve ▸ hlookup, hdir⟩
    exact (execute_cd hline hthere).trans (by rw [hresolve])
  cat name data hfile context := by
    have hline : Text.words ("cat" ++ " " ++ c) = ["cat", c] := hword.words_behind (by decide)
    have hkeeps : s.Keeps s.cwd (Path.resolve c s.cwd) data.content :=
      ⟨rfl, name, data, by rw [hresolve, hlookup, hfile], rfl⟩
    exact execute_cat hkeeps hline

/-- The candidates for a path are offered because of the entries of one directory, and each of them
names its entry. Where nothing has been typed, an entry that is called like the home directory is
not named by what is offered for it. -/
theorem candidates_name {s : State} (hs : s.tree.WellFormed) (hnames : s.tree.Typeable)
    (hcwd : Canonical s.cwd) {line kept stub : String} (hpath : CompletesPath line)
    (htilde : fragment line ≠ "~") (hcut : Cut (fragment line) kept stub) :
    candidates s line = (offered stub (entries s kept)).map (offer kept) ∧
    Canonical (place s kept) ∧
    ∀ e ∈ offered stub (entries s kept), (kept = "" → e.name ≠ "~") →
      Names s (Path.join (place s kept) e.name) (offer kept e) e := by
  refine ⟨?_, canonical_place hcwd kept, fun e he hhome => ?_⟩
  · rw [candidates_of_path hpath, pathCandidates_of_cut hcut htilde]
  · have hmem : e ∈ entries s kept := (mem_offered.1 he).1
    have hname : IsName e.name := isName_of_mem_entries hs hmem
    obtain ⟨d, hd, hchild⟩ := exists_of_mem_entries hmem
    exact names_of_resolve
      (isWord_offer (hcut.inked (inked_fragment line)) (hnames.isWord hs hd hchild))
      (resolve_offer hcut hcwd hname hhome) (hs.lookup_child hd hchild) (endsWith_offer hname)

/-- With a dot and a slash in front an entry called `~` is named by what is offered. -/
theorem candidates_name_dotSlash :
    let tree := FileTree.base.write "/home/user/~" "hi\n"
    let s : State := { tree := tree.toOption.getD .base }
    candidates s "cat ./" = ["./~"] ∧ Path.resolve "./~" s.cwd = "/home/user/~" ∧
      execute {} s ("cat " ++ "./~") = .print ["hi"] := by
  intro tree s
  have hwrite : FileTree.base.write "/home/user/~" "hi\n" = .ok s.tree := rfl
  have hs : s.tree.WellFormed :=
    FileTree.base_wellFormed.edit (by decide +kernel) (.inl (.write _ hwrite))
  have hfragment : fragment "cat ./" = "./" := by decide +kernel
  have hpath : CompletesPath "cat ./" := .inl (by decide +kernel)
  have hcut : Cut (fragment "cat ./") "./" "" := by
    rw [hfragment]
    exact ⟨rfl, by decide, .inr (by decide)⟩
  obtain ⟨hcandidates, -, hoffered⟩ := candidates_name hs (by decide +kernel) Path.canonical_home
    hpath (by rw [hfragment]; decide) hcut
  have hentries : offered "" (entries s "./") = [.file "~" { content := "hi\n" }] := by
    decide +kernel
  rw [hentries] at hcandidates hoffered
  have hnames := hoffered _ (List.mem_singleton_self _) (fun hkept => absurd hkept (by decide))
  refine ⟨hcandidates.trans (by decide +kernel), ?_, ?_⟩
  · exact hnames.resolve_eq.trans (by decide +kernel)
  · exact (hnames.cat _ _ rfl {}).trans (by decide +kernel)

/-- Behind a blank the same entry is offered by its bare name, and that is a directory. -/
theorem candidates_name_home :
    let tree := FileTree.base.write "/home/user/~" "hi\n"
    let s : State := { tree := tree.toOption.getD .base }
    let e : Node := .file "~" { content := "hi\n" }
    s.tree.WellFormed ∧ s.tree.Typeable ∧ Canonical s.cwd ∧ s.tree.hasDir s.cwd = true ∧
      CompletesPath "cat " ∧ fragment "cat " ≠ "~" ∧ s.tree.lookup "/home/user/~" = some e ∧
      candidates s "cat " = [offer "" e] ∧ Path.resolve (offer "" e) s.cwd = "/home/user" ∧
      execute {} s ("cat " ++ offer "" e) = .fail "cat: ~: Is a directory" := by
  intro tree s e
  have hwrite : FileTree.base.write "/home/user/~" "hi\n" = .ok s.tree := rfl
  have hs : s.tree.WellFormed :=
    FileTree.base_wellFormed.edit (by decide +kernel) (.inl (.write _ hwrite))
  have hpath : CompletesPath "cat " := .inr (by decide +kernel)
  refine ⟨hs, by decide +kernel, Path.canonical_home, by decide +kernel, hpath, ?_⟩
  decide +kernel

end Completion

end PuzzleShell
