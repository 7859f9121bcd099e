import PuzzleShell.Input

/-!
# Flags and operands

Each argument is a flag or an operand by itself: `ofArgs_eq` says which part of the arguments is
which. So the arguments can be sorted part by part, the flags may stand in any order, and a cluster
may be taken apart into its letters. Only a word that starts with a dash is a flag.
-/

namespace PuzzleShell.Flags

variable {w : String}

theorem ofArg?_of_startsWith (hw : Text.startsWith "-" w = false) : ofArg? w = none := by
  unfold ofArg?
  split
  · next hchars => simp [Text.startsWith, hchars] at hw
  · next hchars => simp [Text.startsWith, hchars] at hw
  · rfl

theorem ofArgs_eq (args : List String) : ofArgs args =
    ⟨(args.filterMap ofArg?).flatten, args.filter fun arg => (ofArg? arg).isNone⟩ := by
  induction args with
  | nil => rfl
  | cons arg rest ih =>
    rw [ofArgs, ih]
    cases harg : ofArg? arg with
    | none => simp [harg]
    | some given => simp [harg]

theorem operands_subset (args : List String) : (ofArgs args).operands ⊆ args := by
  rw [ofArgs_eq]
  exact List.filter_sublist.subset

theorem ofArgs_of_operands {ws : List String} (h : ∀ w ∈ ws, ofArg? w = none) :
    ofArgs ws = { operands := ws } := by
  have hgiven : ws.filterMap ofArg? = [] := List.filterMap_eq_nil_iff.2 h
  have hoperands : ws.filter (fun w => (ofArg? w).isNone) = ws :=
    List.filter_eq_self.2 fun w hw => by rw [h w hw]; rfl
  rw [ofArgs_eq, hgiven, hoperands, List.flatten_nil]

theorem ofArgs_of_flags {flags : List String} (h : ∀ f ∈ flags, (ofArg? f).isSome = true) :
    ofArgs flags = { given := (flags.filterMap ofArg?).flatten } := by
  have hoperands : flags.filter (fun f => (ofArg? f).isNone) = [] :=
    List.filter_eq_nil_iff.2 fun f hf => by simp [Option.isSome_iff_ne_none.1 (h f hf)]
  rw [ofArgs_eq, hoperands]

theorem ofArgs_append (args others : List String) : ofArgs (args ++ others) =
    ⟨(ofArgs args).given ++ (ofArgs others).given,
      (ofArgs args).operands ++ (ofArgs others).operands⟩ := by
  simp only [ofArgs_eq, List.filterMap_append, List.flatten_append, List.filter_append]

theorem ofArgs_append_cons (hw : Text.startsWith "-" w = false) (before after : List String) :
    ofArgs (before ++ w :: after) = ⟨(ofArgs before).given ++ (ofArgs after).given,
      (ofArgs before).operands ++ w :: (ofArgs after).operands⟩ := by
  rw [ofArgs_append, ofArgs, ofArg?_of_startsWith hw]

section Order

theorem mem_given_iff {args : List String} {flag : String} : flag ∈ (ofArgs args).given ↔
    ∃ arg ∈ args, ∃ given, ofArg? arg = some given ∧ flag ∈ given := by
  simp only [ofArgs_eq, List.mem_flatten, List.mem_filterMap]
  constructor
  · rintro ⟨given, ⟨arg, harg, hgiven⟩, hflag⟩
    exact ⟨arg, harg, given, hgiven, hflag⟩
  · rintro ⟨arg, harg, given, hgiven, hflag⟩
    exact ⟨given, ⟨arg, harg, hgiven⟩, hflag⟩

theorem has_congr {args others : List String} (h : ∀ arg, arg ∈ args ↔ arg ∈ others) :
    (ofArgs args).has = (ofArgs others).has := by
  funext flag
  rw [has, has, Bool.eq_iff_iff, List.contains_iff_mem, List.contains_iff_mem, mem_given_iff,
    mem_given_iff]
  simp only [h]

end Order

section Clusters

variable {c : Char} {rest : List Char}

theorem ofArg?_of_letters (h : w.toList = '-' :: c :: rest) (hshort : c = '-' → rest = []) :
    ofArg? w = some ((c :: rest).map String.singleton) := by
  unfold ofArg?
  rw [h]
  split
  · next hchars =>
    obtain ⟨hc, hrest⟩ := List.cons_eq_cons.1 (List.cons_eq_cons.1 hchars).2
    rw [hshort hc] at hrest
    cases hrest
  · next hchars =>
    obtain ⟨rfl, rfl⟩ := List.cons_eq_cons.1 (List.cons_eq_cons.1 hchars).2
    rfl
  · next hnone => exact absurd rfl (hnone c rest)

/-- The argument that gives a single letter. -/
def ofLetter (c : Char) : String := String.ofList ['-', c]

theorem ofArg?_ofLetter (c : Char) : ofArg? (ofLetter c) = some [String.singleton c] :=
  ofArg?_of_letters (by rw [ofLetter, String.toList_ofList]) fun _ => rfl

/-- A cluster gives the same flags as its letters one by one. -/
theorem ofArgs_cluster (h : w.toList = '-' :: c :: rest) (hshort : c ≠ '-') :
    ofArgs [w] = ofArgs ((c :: rest).map ofLetter) := by
  have hletters : ∀ f ∈ (c :: rest).map ofLetter, (ofArg? f).isSome = true := by
    intro f hf
    obtain ⟨d, -, rfl⟩ := List.mem_map.1 hf
    rw [ofArg?_ofLetter]
    rfl
  have hsome : ofArg? ∘ ofLetter = some ∘ fun d => [String.singleton d] := funext ofArg?_ofLetter
  have hcluster : ofArg? w = some ((c :: rest).map String.singleton) :=
    ofArg?_of_letters h fun hc => absurd hc hshort
  have hflag : ∀ f ∈ [w], (ofArg? f).isSome = true := by simp [hcluster]
  rw [ofArgs_of_flags hflag, ofArgs_of_flags hletters, List.filterMap_map, hsome,
    List.filterMap_eq_map, ← List.flatMap_def, ← List.map_eq_flatMap,
    List.filterMap_cons_some hcluster, List.filterMap_nil, List.flatten_singleton]

end Clusters

end PuzzleShell.Flags
