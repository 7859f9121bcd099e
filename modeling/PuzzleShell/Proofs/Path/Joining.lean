import PuzzleShell.Proofs.Path.NormalForm

/-!
# A name behind a path

A name can be joined to any text that stands for a path, with a slash between the two unless there
is one already. The segments of both are then those of the whole. So where the text leads to a
place, the whole leads to the entry of that name there, and joined to a canonical path a name makes
the canonical path of the entry.
-/

namespace PuzzleShell.Path

section Segments

variable {base name : String}

theorem segments_eq_singleton (hne : name ≠ "") (hslash : '/' ∉ name.toList) :
    segments name = [name] := by
  have hsingle : name.toList.splitOnP (· == '/') = [name.toList] :=
    List.splitOnP_eq_singleton fun c hc => by
      simpa using fun he : c = '/' => hslash (he ▸ hc)
  rw [segments, Text.pieces, hsingle]
  simp [hne]

theorem IsName.segments_eq (h : IsName name) : segments name = [name] :=
  segments_eq_singleton h.1 h.2.1

theorem exists_append_slash (h : Text.endsWith '/' base = true) : ∃ first, base = first ++ "/" := by
  obtain ⟨cs, hcs⟩ := List.getLast?_eq_some_iff.1 (beq_iff_eq.1 h)
  refine ⟨String.ofList cs, String.toList_inj.1 ?_⟩
  rw [hcs, String.toList_append, String.toList_ofList]
  rfl

theorem segments_empty : segments "" = [] := by decide +kernel

theorem segments_append_slash_empty (first : String) : segments (first ++ "/") = segments first := by
  have hsplit := segments_append_slash first ""
  rwa [String.append_empty, segments_empty, List.append_nil] at hsplit

theorem segments_join (base name : String) :
    segments (join base name) = segments base ++ segments name := by
  unfold join
  split
  · next hend =>
    obtain ⟨first, rfl⟩ := exists_append_slash hend
    rw [segments_append_slash, segments_append_slash_empty]
  · exact segments_append_slash base name

/-- A name that is empty adds nothing to a path, and one with slashes adds its own segments. -/
theorem segments_ofSegments_eq_flatMap (parts : List String) :
    segments (ofSegments parts) = parts.flatMap segments := by
  have hroot (rest : String) : segments ("/" ++ rest) = segments rest := by
    have hsplit := segments_append_slash "" rest
    rwa [String.empty_append, segments_empty, List.nil_append] at hsplit
  rw [ofSegments, hroot]
  induction parts with
  | nil => exact segments_empty
  | cons first rest ih =>
    cases rest with
    | nil => rw [String.intercalate_singleton, List.flatMap_singleton]
    | cons second rest =>
      rw [String.intercalate_cons_cons, segments_append_slash, ih]
      rfl

end Segments

section Canonical

variable {base name : String} {names : List String}

theorem endsWith_append {s t : String} (ht : t ≠ "") (c : Char) :
    Text.endsWith c (s ++ t) = Text.endsWith c t := by
  obtain ⟨d, hd⟩ : ∃ d, t.toList.getLast? = some d :=
    ⟨_, List.getLast?_eq_some_getLast fun hnil => ht (String.toList_eq_nil_iff.1 hnil)⟩
  rw [Text.endsWith, Text.endsWith, String.toList_append, List.getLast?_append, hd, Option.some_or]

theorem IsName.endsWith_slash (h : IsName name) : Text.endsWith '/' name = false := by
  rw [Text.endsWith, beq_eq_false_iff_ne]
  exact fun hlast => h.2.1 (List.mem_of_getLast? hlast)

theorem ofSegments_append_singleton (hne : names ≠ []) (name : String) :
    ofSegments (names ++ [name]) = ofSegments names ++ "/" ++ name := by
  rw [ofSegments, ofSegments, String.intercalate_append_of_ne_nil hne (List.cons_ne_nil _ _),
    String.intercalate_singleton, ← String.append_assoc, ← String.append_assoc]

theorem endsWith_slash_ofSegments (hne : names ≠ []) (h : ∀ s ∈ names, IsName s) :
    Text.endsWith '/' (ofSegments names) = false := by
  obtain ⟨first, last, rfl⟩ : ∃ first last, names = first ++ [last] :=
    ⟨_, _, (List.dropLast_concat_getLast hne).symm⟩
  have hlast : IsName last := h last (by simp)
  have hends : ∃ before, ofSegments (first ++ [last]) = before ++ last := by
    by_cases hfirst : first = []
    · subst hfirst
      exact ⟨"/", by rw [List.nil_append, ofSegments, String.intercalate_singleton]⟩
    · exact ⟨_, ofSegments_append_singleton hfirst last⟩
  obtain ⟨before, hbefore⟩ := hends
  rw [hbefore, endsWith_append hlast.1, hlast.endsWith_slash]

theorem join_ofSegments (h : ∀ s ∈ names, IsName s) (name : String) :
    join (ofSegments names) name = ofSegments (names ++ [name]) := by
  by_cases hne : names = []
  · subst hne
    rw [List.nil_append, ofSegments, ofSegments, String.intercalate_singleton]
    exact if_pos (by decide)
  · rw [join, if_neg (by simp [endsWith_slash_ofSegments hne h]), ofSegments_append_singleton hne]

theorem Canonical.join_eq (h : Canonical base) (name : String) :
    Path.join base name = ofSegments (Path.segments base ++ [name]) := by
  rw [← join_ofSegments h.segments, h.ofSegments_segments]

theorem Canonical.join (h : Canonical base) (hname : IsName name) :
    Canonical (Path.join base name) := by
  have hnames : ∀ s ∈ Path.segments base ++ [name], IsName s := fun s hs =>
    (List.mem_append.1 hs).elim (h.segments s) fun hs => List.mem_singleton.1 hs ▸ hname
  exact ⟨Path.segments base ++ [name], hnames, h.join_eq name⟩

end Canonical

section Resolve

variable {expr name : String}

theorem collapse_append_singleton (h : IsName name) (parts : List String) :
    collapse (parts ++ [name]) = collapse parts ++ [name] := by
  have hname : ∀ s ∈ [name], IsName s := fun s hs => List.mem_singleton.1 hs ▸ h
  rw [collapse, List.foldl_append, foldl_descend_of_isName hname, List.reverse_append,
    List.reverse_reverse]
  rfl

theorem IsName.not_isFixed (h : IsName name) (hhome : name ≠ "~") : ¬ IsFixed name := by
  have hslash {pattern : String} (hpattern : '/' ∈ pattern.toList) :
      ¬ Text.startsWith pattern name = true := fun hprefix =>
    h.2.1 ((List.isPrefixOf_iff_prefix.1 hprefix).subset hpattern)
  rintro (habsolute | hsame | hbelow)
  · exact hslash (by decide) habsolute
  · exact hhome hsame
  · exact hslash (by decide) hbelow

theorem IsName.resolve_eq {cwd : String} (h : IsName name) (hhome : name ≠ "~")
    (hcwd : Canonical cwd) : resolve name cwd = join cwd name := by
  rw [resolve_of_not_isFixed (h.not_isFixed hhome), normalize, segments_append_slash, h.segments_eq,
    collapse_append_singleton h, collapse_of_isName hcwd.segments, hcwd.join_eq]

theorem startsWith_join {pattern : String} (h : Text.startsWith pattern expr = true)
    (name : String) : Text.startsWith pattern (join expr name) = true := by
  unfold join
  split
  · exact startsWith_append h name
  · exact startsWith_append (startsWith_append h "/") name

theorem resolve_append_slash (hne : expr ≠ "") (cwd : String) :
    resolve (expr ++ "/") cwd = resolve expr cwd := by
  have happend := resolve_append_eq_normalize hne "" cwd
  rw [String.append_empty, normalize, segments_append_slash, segments_empty, List.append_nil]
    at happend
  exact happend.trans (canonical_resolve expr cwd).normalize_eq

/-- Joined to an expression, a name leads to the entry of that name where the expression leads. -/
theorem resolve_join (hne : expr ≠ "") (hname : IsName name) (cwd : String) :
    resolve (join expr name) cwd = join (resolve expr cwd) name := by
  rw [(canonical_resolve expr cwd).join_eq]
  have hbelow (base : String) : collapse (segments (base ++ "/" ++ name)) =
      collapse (segments base) ++ [name] := by
    rw [segments_append_slash, hname.segments_eq, collapse_append_singleton hname]
  by_cases hslash : Text.startsWith "/" expr = true
  · rw [resolve, if_pos (startsWith_join hslash name), resolve, if_pos hslash, segments_normalize,
      normalize, segments_join, hname.segments_eq, collapse_append_singleton hname]
  · unfold join
    split
    · next hend =>
      obtain ⟨first, rfl⟩ := exists_append_slash hend
      have hfirst : first ≠ "" := by
        rintro rfl
        exact hslash (by decide)
      rw [resolve_append_eq_normalize hfirst, resolve_append_slash hfirst, normalize, hbelow,
        collapse_of_isName (canonical_resolve first cwd).segments]
    · rw [resolve_append_eq_normalize hne, normalize, hbelow,
        collapse_of_isName (canonical_resolve expr cwd).segments]

end Resolve

end PuzzleShell.Path
