import PuzzleShell.Text.Blank
import PuzzleShell.Text.Quotes

/-!
# Outer quotes undone

Two quotes of a text are outer ones: a quote that is its first character, and a quote that has
nothing behind it but maybe one line feed. `stripQuotes` deletes these and nothing else. So it
leaves of a text between two quotes that text itself, whatever quotes stand at its own ends.
-/

namespace PuzzleShell.Text

def quoted (a : Char) (t : String) (b : Char) : String :=
  String.singleton a ++ t ++ String.singleton b

/-- The characters at the positions at which `p` does not hold, in their order. -/
def without (p : Nat → Prop) [DecidablePred p] (cs : List Char) : List Char :=
  (cs.zipIdx.filter fun x => ¬ p x.2).map (·.1)

def Opens (cs : List Char) (i : Nat) : Prop := i = 0 ∧ cs[i]?.any isQuote = true

/-- At this position stands a quote, and behind it nothing or one line feed. -/
def Closes (cs : List Char) (i : Nat) : Prop :=
  cs[i]?.any isQuote = true ∧ (cs.drop (i + 1) = [] ∨ cs.drop (i + 1) = ['\n'])

instance (cs : List Char) : DecidablePred (Opens cs) := fun _ =>
  inferInstanceAs (Decidable (_ ∧ _))

instance (cs : List Char) : DecidablePred (Closes cs) := fun _ =>
  inferInstanceAs (Decidable (_ ∧ _))

section Positions

variable {c : Char} {cs : List Char} {i j : Nat}

theorem without_cons (p : Nat → Prop) [DecidablePred p] (c : Char) (cs : List Char) :
    without p (c :: cs) =
      if p 0 then without (fun i => p (i + 1)) cs else c :: without (fun i => p (i + 1)) cs := by
  have hrest : ((cs.zipIdx.map (Prod.map id (· + 1))).filter fun x => ¬ p x.2).map (·.1) =
      without (fun i => p (i + 1)) cs := by
    rw [List.filter_map, List.map_map]
    rfl
  rw [without, List.zipIdx_cons']
  by_cases hp : p 0
  · rw [List.filter_cons_of_neg (by simpa using hp), if_pos hp, hrest]
  · rw [List.filter_cons_of_pos (by simpa using hp), if_neg hp, List.map_cons, hrest]

theorem without_sublist (p : Nat → Prop) [DecidablePred p] (cs : List Char) :
    (without p cs).Sublist cs := by
  have hsub : (without p cs).Sublist (cs.zipIdx.map (·.1)) := List.filter_sublist.map _
  rwa [List.zipIdx_map_fst] at hsub

theorem opens_zero : Opens (c :: cs) 0 ↔ isQuote c = true := by
  simp [Opens]

theorem not_opens_succ : ¬ Opens cs (i + 1) := fun h => Nat.succ_ne_zero i h.1

theorem closes_zero : Closes (c :: cs) 0 ↔ isQuote c = true ∧ (cs = [] ∨ cs = ['\n']) := Iff.rfl

theorem closes_succ : Closes (c :: cs) (i + 1) ↔ Closes cs i := Iff.rfl

theorem not_closes_nil (i : Nat) : ¬ Closes [] i := by
  rintro ⟨hquote, -⟩
  simp at hquote

theorem not_closes_feed (i : Nat) : ¬ Closes ['\n'] i := by
  cases i with
  | zero => decide
  | succ i => exact not_closes_nil i

theorem Closes.not_closes_succ (h : Closes (c :: cs) 0) : ¬ Closes (c :: cs) (i + 1) := by
  rcases (closes_zero.1 h).2 with rfl | rfl
  · exact not_closes_nil i
  · exact not_closes_feed i

theorem Closes.unique (hi : Closes cs i) (hj : Closes cs j) : i = j := by
  induction cs generalizing i j with
  | nil => exact absurd hi (not_closes_nil i)
  | cons c cs ih =>
    cases i with
    | zero =>
      cases j with
      | zero => rfl
      | succ j => exact absurd hj hi.not_closes_succ
    | succ i =>
      cases j with
      | zero => exact absurd hi hj.not_closes_succ
      | succ j => rw [ih hi hj]

end Positions

theorem dropLastQuote_cons (c : Char) (cs : List Char) : dropLastQuote (c :: cs) =
    if Closes (c :: cs) 0 then dropLastQuote cs else c :: dropLastQuote cs := by
  -- A rest of nothing or a line feed is left as it is, so both branches agree with the definition.
  by_cases hend : cs = [] ∨ cs = ['\n']
  · simp only [closes_zero, and_iff_left hend]
    rcases hend with rfl | rfl <;> rfl
  · rw [if_neg fun h => hend h.2, dropLastQuote.eq_4 _ _ (hend <| .inl ·) (hend <| .inr ·)]

theorem dropLastQuote_eq_without (cs : List Char) : dropLastQuote cs = without (Closes cs) cs := by
  induction cs with
  | nil => rfl
  | cons c cs ih =>
    rw [dropLastQuote_cons, without_cons, ih]
    rfl

/-- Only at the first position can both kinds meet: a lone quote opens and closes, and is deleted
once. -/
theorem stripQuotes_eq_without (s : String) : (stripQuotes s).toList =
    without (fun i => Opens s.toList i ∨ Closes s.toList i) s.toList := by
  rw [stripQuotes, String.toList_ofList]
  cases s.toList with
  | nil => rfl
  | cons c cs =>
    have hrest : without (fun i => Opens (c :: cs) (i + 1) ∨ Closes (c :: cs) (i + 1)) cs =
        dropLastQuote cs := by
      simp only [not_opens_succ, closes_succ, false_or, dropLastQuote_eq_without]
    rw [without_cons, hrest, dropFirstQuote]
    by_cases hc : isQuote c = true
    · rw [if_pos hc, if_pos (.inl (opens_zero.2 hc))]
    · have hopen : ¬ Opens (c :: cs) 0 := mt opens_zero.1 hc
      have hclose : ¬ Closes (c :: cs) 0 := fun h => hc h.1
      rw [if_neg hc, if_neg (not_or_intro hopen hclose), dropLastQuote_cons, if_neg hclose]

theorem stripQuotes_subset (s : String) : (stripQuotes s).toList ⊆ s.toList := by
  rw [stripQuotes_eq_without]
  exact (without_sublist _ s.toList).subset

section Quoted

variable {b : Char} (hb : isQuote b = true)
include hb

theorem isBlank_of_isQuote : isBlank b = false := by
  rw [isQuote, Bool.or_eq_true, decide_eq_true_eq, decide_eq_true_eq] at hb
  rcases hb with rfl | rfl <;> decide

theorem inked_quote : ∀ c ∈ (String.singleton b).toList, isBlank c = false := by
  rw [String.toList_singleton, List.forall_mem_singleton]
  exact isBlank_of_isQuote hb

theorem closes_append_quote (cs : List Char) : Closes (cs ++ [b]) cs.length :=
  ⟨by simp [hb], .inl (by simp)⟩

/-- The quote put at the end is the closing one, so those before it are kept. -/
theorem dropLastQuote_append_quote (cs : List Char) : dropLastQuote (cs ++ [b]) = cs := by
  induction cs with
  | nil => exact if_pos hb
  | cons c cs ih =>
    have hkept : ¬ Closes (c :: cs ++ [b]) 0 := fun hclose =>
      absurd (hclose.unique (closes_append_quote hb (c :: cs))) (Nat.zero_ne_add_one _)
    rw [List.cons_append] at hkept ⊢
    rw [dropLastQuote_cons, if_neg hkept, ih]

end Quoted

theorem stripQuotes_quoted {a b : Char} (ha : isQuote a = true) (hb : isQuote b = true)
    (t : String) : stripQuotes (quoted a t b) = t := by
  rw [stripQuotes, quoted, String.toList_append, String.toList_append, String.toList_singleton,
    String.toList_singleton, List.singleton_append, List.cons_append, dropFirstQuote, if_pos ha,
    dropLastQuote_append_quote hb, String.ofList_toList]

end PuzzleShell.Text
