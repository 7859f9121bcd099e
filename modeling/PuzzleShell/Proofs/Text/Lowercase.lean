import PuzzleShell.Text.Lowercase
import PuzzleShell.Text.Occurrence

/-!
# Lower case in parts

The lower case form of a text is made of the forms of its parts, each taken between what stands
around it. Only a capital sigma looks at its surroundings. So a text that occurs in another is
found there when both are in lower case, unless a capital sigma takes its final form in one of the
two places and not in the other.
-/

namespace PuzzleShell.Text

section Parts

variable {before before' after after' cs : List Char}

/-- The lower case form of `cs` between `before`, which is read outwards, and `after`. -/
def lowerBetween (before after : List Char) : List Char → List Char
  | [] => []
  | c :: rest =>
    (if c = 'Σ' then [lowerSigma before (rest ++ after)] else lowerChar c) ++
      lowerBetween (c :: before) after rest

theorem lowerAfter_append (before cs after : List Char) : lowerAfter before (cs ++ after) =
    lowerBetween before after cs ++ lowerAfter (cs.reverse ++ before) after := by
  induction cs generalizing before with
  | nil => rfl
  | cons c rest ih =>
    rw [List.cons_append, lowerAfter, ih, lowerBetween, List.append_assoc, List.reverse_cons,
      List.append_assoc, List.singleton_append]

theorem lowerAfter_eq_lowerBetween (before cs : List Char) :
    lowerAfter before cs = lowerBetween before [] cs := by
  have happend := lowerAfter_append before cs []
  rwa [List.append_nil, lowerAfter, List.append_nil] at happend

theorem lowerBetween_congr (h : ∀ front back, cs = front ++ 'Σ' :: back →
    lowerSigma (front.reverse ++ before) (back ++ after) =
      lowerSigma (front.reverse ++ before') (back ++ after')) :
    lowerBetween before after cs = lowerBetween before' after' cs := by
  induction cs generalizing before before' with
  | nil => rfl
  | cons c rest ih =>
    have hrest : lowerBetween (c :: before) after rest = lowerBetween (c :: before') after' rest :=
      ih fun front back hcs => by simpa using h (c :: front) back (congrArg (c :: ·) hcs)
    rw [lowerBetween, lowerBetween, hrest]
    by_cases hc : c = 'Σ'
    · subst hc
      have hsigma := h [] rest rfl
      rw [if_pos rfl, if_pos rfl]
      exact congrArg (· :: _) hsigma
    · rw [if_neg hc, if_neg hc]

theorem lowerChar_ne_nil (c : Char) : lowerChar c ≠ [] := by
  unfold lowerChar
  split
  · exact List.cons_ne_nil _ _
  · split
    · exact List.cons_ne_nil _ _
    · split <;> exact List.cons_ne_nil _ _

theorem lowerAfter_ne_nil (hne : cs ≠ []) (before : List Char) : lowerAfter before cs ≠ [] := by
  obtain ⟨c, rest, rfl⟩ := List.exists_cons_of_ne_nil hne
  rw [lowerAfter]
  split
  · exact List.cons_ne_nil _ _
  · exact List.append_ne_nil_of_left_ne_nil (lowerChar_ne_nil c) _

end Parts

variable {pattern line : String}

/-- The pattern occurs in the line, and there its capital sigmas have the lower case forms that
they have in the pattern alone. -/
def StandsIn (pattern line : String) : Prop :=
  ∃ left right : String, line = left ++ pattern ++ right ∧
    ∀ front back, pattern.toList = front ++ 'Σ' :: back →
      lowerSigma (front.reverse ++ left.toList.reverse) (back ++ right.toList) =
        lowerSigma front.reverse back

theorem contains_lower_of_standsIn (h : StandsIn pattern line) :
    contains (lower pattern) (lower line) = true := by
  obtain ⟨left, right, rfl, hsigmas⟩ := h
  have hpattern : lowerBetween left.toList.reverse right.toList pattern.toList =
      lowerAfter [] pattern.toList := by
    rw [lowerAfter_eq_lowerBetween]
    exact lowerBetween_congr fun front back hcs => by simpa using hsigmas front back hcs
  rw [contains_iff, lower, lower, String.toList_ofList, String.toList_ofList, String.toList_append,
    String.toList_append, List.append_assoc, lowerAfter_append, List.append_nil, lowerAfter_append,
    hpattern, ← List.append_assoc]
  exact List.infix_append _ _ _

theorem standsIn_iff_contains (hsigma : 'Σ' ∉ pattern.toList) :
    StandsIn pattern line ↔ contains pattern line = true := by
  rw [contains_iff]
  constructor
  · rintro ⟨left, right, rfl, -⟩
    rw [String.toList_append, String.toList_append]
    exact List.infix_append _ _ _
  · rintro ⟨left, right, hline⟩
    refine ⟨String.ofList left, String.ofList right, ?_, fun front back hcs => ?_⟩
    · rw [← String.toList_inj, ← hline]
      simp
    · exact absurd (hcs ▸ List.mem_append_right front List.mem_cons_self) hsigma

theorem contains_lower_empty (hne : pattern ≠ "") :
    contains (lower pattern) (lower "") = false := by
  have hlower : lowerAfter [] pattern.toList ≠ [] :=
    lowerAfter_ne_nil (fun hnil => hne (String.toList_eq_nil_iff.1 hnil)) []
  rw [contains, lower, lower, String.toList_ofList, String.toList_ofList, occursIn.eq_def]
  simpa [lowerAfter] using hlower

end PuzzleShell.Text
