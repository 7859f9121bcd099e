import PuzzleShell.Completion
import PuzzleShell.Proofs.Path.Joining
import PuzzleShell.Proofs.Shell.Flags
import PuzzleShell.Proofs.Shell.Footprint
import PuzzleShell.Proofs.Text.Words
import PuzzleShell.Proofs.Tree.Traversal

/-!
# What is offered to complete a line

A line is its stem with the fragment behind it that is completed. Every candidate extends the
fragment, so a suggestion extends the line. For a path the candidates are the entries of one
directory, as the player typed it, that start with what stands behind the last slash; hidden ones
only when their dot is typed. Behind a slash these are the entries that a listing shows.
-/

namespace PuzzleShell.Completion

open PuzzleShell.Path (Canonical IsName)

section Line

/-- What is completed: the last word, or nothing yet behind a blank. -/
def fragment (line : String) : String :=
  if line.toList.getLast?.any Text.isBlank then "" else (Text.words line).getLast?.getD ""

def stem (line : String) : String := dropEnd (fragment line).length line

/-- The fragment is not the first word of the line. -/
def CompletesPath (line : String) : Prop :=
  1 < (Text.words line).length ∨ line.toList.getLast?.any Text.isBlank = true

theorem exists_append_fragment (line : String) : ∃ first, line = first ++ fragment line := by
  unfold fragment
  split
  · exact ⟨line, (String.append_empty).symm⟩
  · next hopen => exact Text.exists_append_getLast_words (by simpa using hopen)

theorem dropEnd_append (first last : String) : dropEnd last.length (first ++ last) = first := by
  rw [dropEnd, String.length_append, Nat.add_sub_cancel, String.toList_append, ← String.length_toList,
    List.take_left, String.ofList_toList]

theorem stem_append_fragment (line : String) : stem line ++ fragment line = line := by
  obtain ⟨first, hfirst⟩ := exists_append_fragment line
  have hstem := dropEnd_append first (fragment line)
  rw [← hfirst] at hstem
  rw [stem, hstem, ← hfirst]

variable {s : State} {line : String}

theorem analyse_of_path (h : CompletesPath line) :
    analyse s line = (stem line, pathCandidates s (fragment line)) := by
  have hcond : ¬ ((Text.words line).length ≤ 1 ∧
      (!line.toList.getLast?.any Text.isBlank) = true) := by
    rintro ⟨hlength, hopen⟩
    rcases h with h | h
    · exact Nat.not_le.2 h hlength
    · rw [h] at hopen
      cases hopen
  rw [analyse]
  dsimp only
  rw [if_neg hcond]
  rfl

theorem analyse_of_command (h : ¬ CompletesPath line) :
    analyse s line = (stem line, commandCandidates (fragment line)) := by
  obtain ⟨hlength, hopen⟩ := not_or.1 h
  have hlength := Nat.not_lt.1 hlength
  have hword : fragment line = (Text.words line).headD "" := by
    rw [fragment, if_neg hopen]
    match hwords : Text.words line, hlength with
    | [], _ => rfl
    | [word], _ => rfl
  rw [analyse]
  dsimp only
  rw [if_pos ⟨hlength, by simpa using hopen⟩, stem, hword]

theorem candidates_of_path (h : CompletesPath line) :
    candidates s line = pathCandidates s (fragment line) :=
  congrArg Prod.snd (analyse_of_path h)

theorem candidates_of_command (h : ¬ CompletesPath line) :
    candidates s line = commandCandidates (fragment line) :=
  congrArg Prod.snd (analyse_of_command h)

theorem analyse_eq (s : State) (line : String) : analyse s line = (stem line, candidates s line) := by
  by_cases h : CompletesPath line
  · rw [candidates_of_path h, analyse_of_path h]
  · rw [candidates_of_command h, analyse_of_command h]

end Line

section Path

/-- Where the entries are looked for, for a path that is typed up to a slash. -/
def place (s : State) (kept : String) : String :=
  if kept = "" then s.cwd else Path.resolve kept s.cwd

def entries (s : State) (kept : String) : List Node :=
  ((s.tree.lookup (place s kept)).map Node.children).getD []

/-- Of some entries those that are offered for what is typed of their names. -/
def offered (stub : String) (cs : List Node) : List Node :=
  cs.filter fun c => Text.startsWith stub c.name
    && (Text.startsWith "." stub || !Text.startsWith "." c.name)

def offer (kept : String) (c : Node) : String := kept ++ c.name ++ if c.isDir then "/" else ""

structure Cut (word kept stub : String) : Prop where
  eq_append : word = kept ++ stub
  stub : '/' ∉ stub.toList
  kept : kept = "" ∨ Text.endsWith '/' kept = true

theorem exists_cut (word : String) : ∃ kept stub, Cut word kept stub := by
  obtain ⟨front, rest, hword, hrest, hfront⟩ := Text.exists_cut_last (· == '/') word.toList
  refine ⟨String.ofList front, String.ofList rest, ?_, ?_, ?_⟩
  · rw [← String.ofList_append, ← hword, String.ofList_toList]
  · rw [String.toList_ofList]
    intro hslash
    simpa using hrest '/' hslash
  · rcases hfront with rfl | ⟨first, c, rfl, hc⟩
    · exact .inl rfl
    · right
      rw [Text.endsWith, String.toList_ofList, List.getLast?_concat]
      simpa using hc

variable {s : State} {word kept stub : String}

theorem Cut.dropEndWhile_eq (h : Cut word kept stub) :
    Text.dropEndWhile (· != '/') word.toList = kept.toList := by
  have hstub : ∀ c ∈ stub.toList, (c != '/') = true := by
    intro c hc
    simpa using fun he : c = '/' => h.stub (he ▸ hc)
  rw [h.eq_append, String.toList_append, Text.dropEndWhile_append_of_pos hstub]
  rcases h.kept with rfl | hslash
  · rfl
  · obtain ⟨first, rfl⟩ := Path.exists_append_slash hslash
    rw [String.toList_append]
    exact (Text.dropEndWhile_append_singleton _ _ '/').trans (if_neg (by simp))

theorem pathCandidates_of_cut (h : Cut word kept stub) (hword : word ≠ "~") :
    pathCandidates s word = (offered stub (entries s kept)).map (offer kept) := by
  have hstub : Text.drop kept.toList.length word = stub := by
    rw [Text.drop, h.eq_append, String.toList_append, List.drop_left, String.ofList_toList]
  have hplace : (if kept.toList.isEmpty then s.cwd else Path.resolve kept s.cwd) = place s kept := by
    unfold place
    simp only [List.isEmpty_iff, String.toList_eq_nil_iff]
  rw [pathCandidates, if_neg hword]
  dsimp only
  rw [h.dropEndWhile_eq, String.ofList_toList, hstub, hplace, entries]
  cases s.tree.lookup (place s kept) with
  | none => rfl
  | some n =>
    cases n with
    | file => rfl
    | dir => rfl

theorem sorted_entries (s : State) (kept : String) :
    (entries s kept).Pairwise (·.name < ·.name) := by
  unfold entries
  cases hd : s.tree.lookup (place s kept) with
  | none => exact .nil
  | some d => exact (s.tree.ordered.get? hd).children.1

theorem isName_of_mem_entries (hs : s.tree.WellFormed) {c : Node} (hc : c ∈ entries s kept) :
    IsName c.name := by
  unfold entries at hc
  cases hd : s.tree.lookup (place s kept) with
  | none => rw [hd] at hc; cases hc
  | some d =>
    rw [hd] at hc
    exact ((hs.wellNamed.get? hd).children c hc).1

theorem mem_offered {cs : List Node} {c : Node} : c ∈ offered stub cs ↔
    c ∈ cs ∧ Text.startsWith stub c.name = true ∧
      ¬ (Text.startsWith "." c.name = true ∧ Text.startsWith "." stub = false) := by
  rw [offered, List.mem_filter, Bool.and_eq_true]
  cases Text.startsWith "." stub <;> simp

theorem startsWith_offer {cs : List Node} {c : Node} (kept : String) (hc : c ∈ offered stub cs) :
    Text.startsWith (kept ++ stub) (offer kept c) = true := by
  obtain ⟨-, hname, -⟩ := mem_offered.1 hc
  refine Path.startsWith_append ?_ _
  rw [Text.startsWith, List.isPrefixOf_iff_prefix] at hname ⊢
  rw [String.toList_append, String.toList_append]
  exact (List.prefix_append_right_inj _).2 hname

/-- The slash behind a directory cannot be taken for a part of a name. -/
theorem name_eq_of_offer_eq {c e : Node} (hc : IsName c.name) (he : IsName e.name)
    (h : offer kept c = offer kept e) : c.name = e.name := by
  have htake {n : Node} (hn : IsName n.name) :
      (n.name.toList ++ (if n.isDir then "/" else "").toList).takeWhile (· != '/') =
        n.name.toList := by
    have hslash : ∀ c ∈ n.name.toList, (c != '/') = true := by
      intro c hmem
      simpa using fun hce : c = '/' => hn.2.1 (hce ▸ hmem)
    rw [List.takeWhile_append_of_pos hslash]
    cases n.isDir <;> simp
  have hlist := congrArg String.toList h
  simp only [offer, String.toList_append, List.append_assoc, List.append_cancel_left_eq] at hlist
  rw [← String.toList_inj, ← htake hc, hlist, htake he]

theorem startsWith_of_mem_pathCandidates {c : String} (hc : c ∈ pathCandidates s word) :
    Text.startsWith word c = true := by
  by_cases hword : word = "~"
  · rw [pathCandidates, if_pos hword, List.mem_singleton] at hc
    rw [hword, hc]
    decide
  · obtain ⟨kept, stub, hcut⟩ := exists_cut word
    rw [pathCandidates_of_cut hcut hword] at hc
    obtain ⟨n, hn, rfl⟩ := List.mem_map.1 hc
    rw [hcut.eq_append]
    exact startsWith_offer kept hn

theorem nodup_pathCandidates (hs : s.tree.WellFormed) (word : String) :
    (pathCandidates s word).Nodup := by
  by_cases hword : word = "~"
  · rw [pathCandidates, if_pos hword]
    exact List.pairwise_singleton _ _
  · obtain ⟨kept, stub, hcut⟩ := exists_cut word
    rw [pathCandidates_of_cut hcut hword]
    refine List.pairwise_map.2 (((sorted_entries s kept).filter _).imp_of_mem ?_)
    intro c e hc he hlt hsame
    have hname := name_eq_of_offer_eq (isName_of_mem_entries hs (List.mem_filter.1 hc).1)
      (isName_of_mem_entries hs (List.mem_filter.1 he).1) hsame
    rw [hname] at hlt
    exact String.lt_irrefl _ hlt

end Path

section Candidates

variable {s : State} {line : String}

theorem startsWith_of_mem_candidates {c : String} (hc : c ∈ candidates s line) :
    Text.startsWith (fragment line) c = true := by
  by_cases hpath : CompletesPath line
  · rw [candidates_of_path hpath] at hc
    exact startsWith_of_mem_pathCandidates hc
  · rw [candidates_of_command hpath, commandCandidates, List.mem_filter] at hc
    exact hc.2

theorem nodup_candidates (hs : s.tree.WellFormed) (line : String) : (candidates s line).Nodup := by
  by_cases hpath : CompletesPath line
  · rw [candidates_of_path hpath]
    exact nodup_pathCandidates hs _
  · have hnames : Command.names.Nodup := by
      refine Command.sorted_names.imp fun {a b} hlt hsame => ?_
      rw [hsame] at hlt
      exact String.lt_irrefl b hlt
    rw [candidates_of_command hpath, commandCandidates]
    exact hnames.filter _

/-- The completer is asked again with its last suggestion, in the same state. -/
def Continues (m : Memory) (mark : Nat) (line : String) : Prop :=
  ∃ c, m = some c ∧ line = c.suggestion ∧ mark = c.mark

theorem complete_of_not_continues {mark : Nat} {m : Memory} (h : ¬ Continues m mark line) :
    complete s mark line m = Cycle.start? s mark line := by
  cases m with
  | none => rfl
  | some c => exact if_neg fun hsame => h ⟨c, rfl, hsame⟩

theorem complete_cases {mark : Nat} {m : Memory} {c : Cycle}
    (h : complete s mark line m = some c) :
    (∃ d ∈ m, c = d.next) ∨ Cycle.start? s mark line = some c := by
  cases m with
  | none => exact .inr h
  | some d =>
    rw [complete] at h
    split at h
    · exact .inl ⟨d, rfl, (Option.some.inj h).symm⟩
    · exact .inr h

def Cycle.InRange (c : Cycle) : Prop := c.index < c.candidates.length

theorem Cycle.InRange.next {c : Cycle} (h : c.InRange) : c.next.InRange :=
  Nat.mod_lt _ (Nat.zero_lt_of_lt h)

theorem inRange_start? {mark : Nat} {c : Cycle} (h : Cycle.start? s mark line = some c) :
    c.InRange := by
  unfold Cycle.start? at h
  dsimp only at h
  split at h
  · cases h
  · next hne =>
    cases h
    exact List.length_pos_iff.2 fun hnil => hne (List.isEmpty_iff.2 hnil)

theorem inRange_complete {mark : Nat} {m : Memory} (h : ∀ c ∈ m, c.InRange) :
    ∀ c ∈ complete s mark line m, c.InRange := by
  intro c hc
  rcases complete_cases hc with ⟨d, hd, rfl⟩ | hstart
  · exact (h d hd).next
  · exact inRange_start? hstart

theorem suggestion?_start? (s : State) (mark : Nat) (line : String) :
    suggestion? (Cycle.start? s mark line) = (candidates s line).head?.map (stem line ++ ·) := by
  rw [Cycle.start?, analyse_eq]
  dsimp only
  cases candidates s line with
  | nil => rfl
  | cons first others => rfl

theorem startsWith_suggestion {mark : Nat} {text : String}
    (h : suggestion? (Cycle.start? s mark line) = some text) : Text.startsWith line text = true := by
  rw [suggestion?_start?] at h
  obtain ⟨c, hc, rfl⟩ := Option.map_eq_some_iff.1 h
  have hfragment := startsWith_of_mem_candidates (List.mem_of_head? hc)
  have hline : line.toList = (stem line).toList ++ (fragment line).toList := by
    rw [← String.toList_append, stem_append_fragment]
  rw [Text.startsWith, List.isPrefixOf_iff_prefix] at hfragment ⊢
  rw [hline, String.toList_append]
  exact (List.prefix_append_right_inj _).2 hfragment

end Candidates

section Listing

variable {s : State} {kept : String} {d : Node}

theorem offered_empty (cs : List Node) :
    offered "" cs = cs.filter (!Text.startsWith "." ·.name) := by
  refine List.filter_congr fun c _ => ?_
  have hdot : Text.startsWith "." "" = false := by decide
  rw [hdot, Bool.false_or]
  rfl

def listing (cs : List Node) : Outcome :=
  if cs = [] then {} else .print ["  ".intercalate (cs.map (·.name))]

theorem ls_eq_listing {r : Request} {ws : List String}
    (hflags : Flags.ofArgs r.args = { operands := ws })
    (hd : r.lookup (ws.headD r.cwd) = some d) (hdir : d.isDir = true) :
    Shell.ls r = listing (offered "" d.children) := by
  cases d with
  | file => cases hdir
  | dir name owner cs =>
    change _ = listing (offered "" cs)
    have hflag (flag : String) : (⟨[], ws⟩ : Flags).has flag = false := rfl
    simp only [Shell.ls, hflags, hd, hflag, Bool.false_or, Bool.false_eq_true, if_false,
      List.nil_append, ← offered_empty, listing]
    split
    · next hnil => rw [if_pos (List.map_eq_nil_iff.1 hnil)]
    · next hsome => rw [if_neg (mt List.map_eq_nil_iff.2 hsome)]

theorem ls_eq_offered (context : Context) (hcwd : Canonical s.cwd)
    (hdash : Text.startsWith "-" kept = false) (hd : s.tree.lookup (place s kept) = some d)
    (hdir : d.isDir = true) : Shell.ls ⟨"ls", if kept = "" then [] else [kept], s, context⟩ =
      listing (offered "" d.children) := by
  rw [place] at hd
  split
  · next hkept =>
    rw [if_pos hkept, ← hcwd.resolve_eq s.cwd] at hd
    exact ls_eq_listing rfl hd hdir
  · next hkept =>
    rw [if_neg hkept] at hd
    refine ls_eq_listing (Flags.ofArgs_of_operands fun w hw => ?_) hd hdir
    rw [List.mem_singleton.1 hw]
    exact Flags.ofArg?_of_startsWith hdash

end Listing

/-- The entries `cs` of the directory `d` are those that are offered behind `kept ++ stub`. -/
structure Offers (s : State) (kept stub : String) (d : Node) (cs : List Node) : Prop where
  mem_iff : ∀ c, c ∈ cs ↔ c ∈ d.children ∧ Text.startsWith stub c.name = true ∧
    ¬ (Text.startsWith "." c.name = true ∧ Text.startsWith "." stub = false)
  sorted : cs.Pairwise (·.name < ·.name)
  listed : stub = "" → Text.startsWith "-" kept = false → ∀ (context : Context) (line : String),
    Text.words line = "ls" :: (if kept = "" then [] else [kept]) →
      execute context s line = listing cs

/-- What is offered for a line, whatever the completer remembers. -/
structure Exact (s : State) (line : String) : Prop where
  nodup : (candidates s line).Nodup
  extends_fragment : ∀ c ∈ candidates s line, Text.startsWith (fragment line) c = true
  extends_line : ∀ (mark : Nat) (m : Memory) (text : String), ¬ Continues m mark line →
    suggestion? (complete s mark line m) = some text → Text.startsWith line text = true
  offers : CompletesPath line → fragment line ≠ "~" → ∀ (kept stub : String) (d : Node),
    Cut (fragment line) kept stub → s.tree.lookup (place s kept) = some d → d.isDir = true →
    ∃ cs, candidates s line = cs.map (offer kept) ∧ Offers s kept stub d cs

theorem exact_candidates {s : State} (hs : s.tree.WellFormed) (hcwd : Canonical s.cwd)
    (line : String) : Exact s line where
  nodup := nodup_candidates hs line
  extends_fragment _ := startsWith_of_mem_candidates
  extends_line mark m text hcontinues h := by
    rw [complete_of_not_continues hcontinues] at h
    exact startsWith_suggestion h
  offers hpath htilde kept stub d hcut hd hdir := by
    have hentries : entries s kept = d.children := by
      rw [entries, hd]
      rfl
    refine ⟨offered stub d.children, ?_, fun c => mem_offered, ?_, ?_⟩
    · rw [candidates_of_path hpath, pathCandidates_of_cut hcut htilde, hentries]
    · rw [← hentries]
      exact (sorted_entries s kept).filter _
    · rintro rfl hdash context line hline
      exact execute_of_run hline (Command.ofName?_name .ls)
        (congrArg Except.ok (ls_eq_offered context hcwd hdash hd hdir))

/-- Behind blanks of two kinds a path is spelled in a roundabout way: the line stays as it was
typed, and what is offered is what is listed. -/
theorem exact_candidates_home : ∃ cs : List Node,
    candidates {} "  cat\t~/../" = cs.map (offer "~/../") ∧
    execute {} {} "ls ~/../" = listing cs ∧
    suggestion? (complete {} 0 "  cat\t~/../" none) = some "  cat\t~/../user/" ∧
    Text.startsWith "  cat\t~/../" "  cat\t~/../user/" = true := by
  have hexact := exact_candidates (s := {}) FileTree.base_wellFormed Path.canonical_home
    "  cat\t~/../"
  have hfragment : fragment "  cat\t~/../" = "~/../" := by decide +kernel
  have hpath : CompletesPath "  cat\t~/../" := .inl (by decide +kernel)
  have hcut : Cut "~/../" "~/../" "" := ⟨rfl, by decide, .inr (by decide)⟩
  have hd : FileTree.base.lookup (Path.resolve "~/../" Path.home) =
      some (.dir "home" defaultOwner [.dir "user" defaultOwner []]) := by decide +kernel
  have hoffers := hexact.offers hpath
  rw [hfragment] at hoffers
  obtain ⟨cs, hcandidates, hcs⟩ := hoffers (by decide) _ _ _ hcut hd rfl
  have hsuggestion : suggestion? (complete {} 0 "  cat\t~/../" none) =
      some "  cat\t~/../user/" := by decide +kernel
  refine ⟨cs, hcandidates, hcs.listed rfl (by decide) {} "ls ~/../" (by decide +kernel),
    hsuggestion, ?_⟩
  exact hexact.extends_line 0 none _ (fun ⟨c, hc, _⟩ => by cases hc) hsuggestion

end PuzzleShell.Completion
