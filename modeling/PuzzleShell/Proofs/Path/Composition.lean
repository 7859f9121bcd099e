import PuzzleShell.Proofs.Path.Canonical

/-!
# Paths that go on from one another

An expression is fixed when it names the same place wherever one stands. Any other can be appended
to a path behind a slash: what the whole names is what the second part names for someone who
stands where the first part leads. Two dots are followed on the stack of segments, so enough of
them lead to the root from anywhere, and not beyond.
-/

namespace PuzzleShell.Path

section Segments

@[simp] theorem segments_append_slash (path rest : String) :
    segments (path ++ "/" ++ rest) = segments path ++ segments rest := by
  have hslash : "/".toList = ['/'] := rfl
  simp only [segments, Text.pieces, String.toList_append, hslash, List.append_assoc,
    List.singleton_append]
  rw [List.splitOnP_append_cons _ _ (by simp), List.filter_append, List.map_append]

theorem foldl_descend_of_isName {names : List String} (h : ∀ s ∈ names, IsName s)
    (stack : List String) : names.foldl descend stack = names.reverse ++ stack := by
  induction names generalizing stack with
  | nil => rfl
  | cons name names ih =>
    obtain ⟨hname, hnames⟩ := List.forall_mem_cons.1 h
    have hpush : descend stack name = name :: stack := by
      rw [descend, if_neg hname.2.2.1, if_neg hname.2.2.2]
    rw [List.foldl_cons, hpush, ih hnames, List.reverse_cons, List.append_assoc]
    rfl

theorem foldl_descend_replicate (m : Nat) (stack : List String) :
    (List.replicate m "..").foldl descend stack = stack.drop m := by
  induction m generalizing stack with
  | zero => rfl
  | succ m ih =>
    have hup : descend stack ".." = stack.tail := rfl
    rw [List.replicate_succ, List.foldl_cons, hup, ih, List.drop_tail]

/-- Dots may be followed in the first part before the second is appended. -/
theorem collapse_append {parts : List String} (h : ∀ s ∈ parts, s ≠ "" ∧ '/' ∉ s.toList)
    (others : List String) : collapse (collapse parts ++ others) = collapse (parts ++ others) := by
  have hstack : (collapse parts).foldl descend [] = parts.foldl descend [] := by
    rw [foldl_descend_of_isName (isName_of_mem_collapse h), List.append_nil, collapse,
      List.reverse_reverse]
  have happend (parts : List String) : collapse (parts ++ others) =
      (others.foldl descend (parts.foldl descend [])).reverse := by
    rw [collapse, List.foldl_append]
  rw [happend, happend, hstack]

theorem segments_normalize (path : String) :
    segments (normalize path) = collapse (segments path) :=
  segments_ofSegments fun s hs =>
    have hname := isName_of_mem_collapse (fun _ => ne_empty_of_mem_segments) s hs
    ⟨hname.1, hname.2.1⟩

theorem normalize_normalize_append (path rest : String) :
    normalize (normalize path ++ "/" ++ rest) = normalize (path ++ "/" ++ rest) := by
  rw [normalize, segments_append_slash, segments_normalize,
    collapse_append fun _ => ne_empty_of_mem_segments, ← segments_append_slash]
  rfl

end Segments

/-- The expression names the same place wherever one stands. -/
def IsFixed (expr : String) : Prop :=
  Text.startsWith "/" expr = true ∨ expr = "~" ∨ Text.startsWith "~/" expr = true

instance : DecidablePred IsFixed := fun expr =>
  inferInstanceAs (Decidable (Text.startsWith "/" expr = true ∨ expr = "~" ∨
    Text.startsWith "~/" expr = true))

section Resolve

variable {expr rest : String}

theorem IsFixed.resolve_eq (h : IsFixed expr) (cwd cwd' : String) :
    resolve expr cwd = resolve expr cwd' := by
  unfold resolve
  rcases h with hslash | hhome | hbelow
  · rw [if_pos hslash, if_pos hslash]
  · simp only [if_pos hhome]
  · simp only [if_pos hbelow]

theorem resolve_of_not_isFixed (h : ¬ IsFixed expr) (cwd : String) :
    resolve expr cwd = normalize (cwd ++ "/" ++ expr) := by
  obtain ⟨hslash, hhome, hbelow⟩ : ¬ Text.startsWith "/" expr = true ∧ expr ≠ "~" ∧
      ¬ Text.startsWith "~/" expr = true := by
    simpa only [IsFixed, not_or] using h
  rw [resolve, if_neg hslash, if_neg hhome, if_neg hbelow]

theorem resolve_of_below_home (h : Text.startsWith "~/" expr = true) (cwd : String) :
    resolve expr cwd = normalize (home ++ Text.drop 1 expr) := by
  obtain ⟨cs, hcs⟩ := List.isPrefixOf_iff_prefix.1 h
  have hslash : ¬ Text.startsWith "/" expr = true := by simp [Text.startsWith, ← hcs]
  have hhome : expr ≠ "~" := by
    rintro rfl
    cases hcs
  rw [resolve, if_neg hslash, if_neg hhome, if_pos h]

theorem startsWith_append {pattern : String} (h : Text.startsWith pattern expr = true)
    (rest : String) : Text.startsWith pattern (expr ++ rest) = true := by
  rw [Text.startsWith, List.isPrefixOf_iff_prefix] at h ⊢
  rw [String.toList_append]
  exact h.trans (List.prefix_append _ _)

theorem exists_cons_of_ne_empty (hne : expr ≠ "") : ∃ c cs, expr.toList = c :: cs :=
  List.exists_cons_of_ne_nil fun hnil => hne (String.toList_eq_nil_iff.1 hnil)

theorem drop_one_append (hne : expr ≠ "") (rest : String) :
    Text.drop 1 (expr ++ rest) = Text.drop 1 expr ++ rest := by
  obtain ⟨c, cs, hexpr⟩ := exists_cons_of_ne_empty hne
  simp [Text.drop, hexpr]

/-- Whether an expression is fixed is decided before its first slash. -/
theorem isFixed_of_append (hne : expr ≠ "") (h : IsFixed (expr ++ "/" ++ rest)) :
    IsFixed expr := by
  obtain ⟨c, cs, hexpr⟩ := exists_cons_of_ne_empty hne
  have hchars : (expr ++ "/" ++ rest).toList = c :: (cs ++ '/' :: rest.toList) := by
    simp [hexpr]
  rcases h with hslash | hhome | hbelow
  · left
    rw [Text.startsWith, hchars] at hslash
    rw [Text.startsWith, hexpr]
    simpa [List.isPrefixOf] using hslash
  · rw [hhome] at hchars
    simp at hchars
  · rw [Text.startsWith, hchars] at hbelow
    right
    cases cs with
    | nil =>
      left
      have hc : '~' = c := by simpa [List.isPrefixOf] using hbelow
      rw [← String.ofList_toList (s := expr), hexpr, ← hc]
    | cons d ds =>
      right
      rw [Text.startsWith, hexpr]
      simpa [List.isPrefixOf] using hbelow

theorem resolve_append_eq_normalize (hne : expr ≠ "") (rest cwd : String) :
    resolve (expr ++ "/" ++ rest) cwd = normalize (resolve expr cwd ++ "/" ++ rest) := by
  by_cases hfixed : IsFixed expr
  · rcases hfixed with hslash | rfl | hbelow
    · have hslash' := startsWith_append (startsWith_append hslash "/") rest
      rw [resolve, if_pos hslash', resolve, if_pos hslash, normalize_normalize_append]
    · have hbelow : Text.startsWith "~/" ("~" ++ "/" ++ rest) = true :=
        startsWith_append (by decide) rest
      have hhome : resolve "~" cwd = home := rfl
      have hdrop : Text.drop 1 ("~" ++ "/") = "/" := by decide
      rw [resolve_of_below_home hbelow, drop_one_append (by decide), hdrop, hhome,
        String.append_assoc]
    · have hbelow' := startsWith_append (startsWith_append hbelow "/") rest
      rw [resolve_of_below_home hbelow', resolve_of_below_home hbelow,
        normalize_normalize_append, String.append_assoc, drop_one_append hne]
      simp only [String.append_assoc]
  · rw [resolve_of_not_isFixed fun h => hfixed (isFixed_of_append hne h),
      resolve_of_not_isFixed hfixed, normalize_normalize_append, ← String.append_assoc,
      ← String.append_assoc]

/-- One can stop on the way: what is appended to an expression is resolved from where it leads. -/
theorem resolve_append (hne : expr ≠ "") (hrest : ¬ IsFixed rest) (cwd : String) :
    resolve (expr ++ "/" ++ rest) cwd = resolve rest (resolve expr cwd) := by
  rw [resolve_append_eq_normalize hne, resolve_of_not_isFixed hrest]

end Resolve

section Climb

/-- The expression that starts where one stands, leads up `m` times and goes on with `rest`. -/
def upwards (m : Nat) (rest : String) : String :=
  "./" ++ String.join (List.replicate m "../") ++ rest

theorem upwards_eq_append (m : Nat) (rest : String) :
    upwards m rest = "." ++ "/" ++ (String.join (List.replicate m "../") ++ rest) :=
  String.append_assoc

theorem segments_upwards (m : Nat) (rest : String) :
    segments (upwards m rest) = "." :: (List.replicate m ".." ++ segments rest) := by
  have hdots : segments (String.join (List.replicate m "../") ++ rest) =
      List.replicate m ".." ++ segments rest := by
    induction m with
    | zero => simp [String.join]
    | succ m ih =>
      rw [List.replicate_succ, List.replicate_succ]
      have hsplit : String.join ("../" :: List.replicate m "../") ++ rest =
          ".." ++ "/" ++ (String.join (List.replicate m "../") ++ rest) := by
        simp [String.append_assoc]
      have hup : segments ".." = [".."] := by decide +kernel
      rw [hsplit, segments_append_slash, hup, ih]
      rfl
  have hhere : segments "." = ["."] := by decide +kernel
  rw [upwards_eq_append, segments_append_slash, hhere, hdots]
  rfl

theorem not_isFixed_upwards (m : Nat) (rest : String) : ¬ IsFixed (upwards m rest) := by
  intro h
  rw [upwards_eq_append] at h
  exact absurd (isFixed_of_append (by decide) h) (by decide)

theorem Canonical.segments_drop_one {path : String} (h : Canonical path) :
    Path.segments (Text.drop 1 path) = Path.segments path := by
  obtain ⟨parts, -, rfl⟩ := h
  have hslash : Text.drop 1 "/" = "" := by decide
  have hdrop : Text.drop 1 (ofSegments parts) = "/".intercalate parts := by
    rw [ofSegments, drop_one_append (by decide), hslash, String.empty_append]
  have hpath : ofSegments parts = "" ++ "/" ++ "/".intercalate parts := by
    rw [String.empty_append]
    rfl
  have hnone : Path.segments "" = [] := by decide +kernel
  rw [hdrop, hpath, segments_append_slash, hnone, List.nil_append]

/-- From any place with at most `m` segments one gets to the root by going up `m` times, and from
there to every path. -/
theorem resolve_upwards {cwd path : String} (hcwd : Canonical cwd) (hpath : Canonical path)
    {m : Nat} (hm : (segments cwd).length ≤ m) : resolve (upwards m (Text.drop 1 path)) cwd = path := by
  have htop : (segments cwd).reverse.drop m = [] :=
    List.drop_eq_nil_of_le (by rwa [List.length_reverse])
  have hcollapse : collapse (segments cwd ++ segments (upwards m (Text.drop 1 path))) =
      segments path := by
    have hdot (stack : List String) : descend stack "." = stack := rfl
    rw [segments_upwards, hpath.segments_drop_one, collapse, List.foldl_append, List.foldl_cons,
      List.foldl_append, foldl_descend_of_isName hcwd.segments, List.append_nil, hdot,
      foldl_descend_replicate, htop, foldl_descend_of_isName hpath.segments, List.append_nil,
      List.reverse_reverse]
  rw [resolve_of_not_isFixed (not_isFixed_upwards _ _), normalize, segments_append_slash, hcollapse,
    hpath.ofSegments_segments]

end Climb

end PuzzleShell.Path
