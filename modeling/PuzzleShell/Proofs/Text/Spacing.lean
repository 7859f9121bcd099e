import PuzzleShell.Proofs.Text.Words

/-!
# Words spaced out

A text is a spacing of some words if it is these words in their order, with blanks between any two
of them and maybe around. The words of a text are the only ones that it is a spacing of. The first
of them stands where the stripped text starts, and a blank or nothing stands behind it.
-/

namespace PuzzleShell

namespace Text

/-- The characters are the words with blanks between them and maybe around. -/
inductive Spaced : List Char → List String → Prop where
  | nil : Spaced [] []
  | blank {c : Char} {cs : List Char} {ws : List String} (hc : isBlank c = true) :
      Spaced cs ws → Spaced (c :: cs) ws
  | last {w : String} (hw : IsWord w) : Spaced w.toList [w]
  | word {w : String} {c : Char} {cs : List Char} {ws : List String} (hw : IsWord w)
      (hc : isBlank c = true) : Spaced cs ws → Spaced (w.toList ++ c :: cs) (w :: ws)

namespace Spaced

variable {cs : List Char} {ws : List String}

theorem words_eq (h : Spaced cs ws) : words (String.ofList cs) = ws := by
  induction h with
  | nil => rfl
  | blank hc _ ih =>
    rw [← ih]
    exact words_append_blank hc [] _
  | last hw => rw [String.ofList_toList, hw.words_eq]
  | word hw hc _ ih =>
    rw [words_append_blank hc, ih, String.ofList_toList, hw.words_eq]
    rfl

theorem isWord (h : Spaced cs ws) : ∀ w ∈ ws, IsWord w := by
  induction h with
  | nil => exact List.forall_mem_nil _
  | blank _ _ ih => exact ih
  | last hw => exact List.forall_mem_singleton.2 hw
  | word hw _ _ ih => exact List.forall_mem_cons.2 ⟨hw, ih⟩

theorem nil_iff : Spaced cs [] ↔ ∀ c ∈ cs, isBlank c = true := by
  constructor
  · intro h
    generalize hws : ([] : List String) = ws at h
    induction h with
    | nil => exact List.forall_mem_nil _
    | blank hc _ ih => exact List.forall_mem_cons.2 ⟨hc, ih hws⟩
    | last => cases hws
    | word => cases hws
  · intro h
    induction cs with
    | nil => exact .nil
    | cons c cs ih =>
      obtain ⟨hc, hcs⟩ := List.forall_mem_cons.1 h
      exact .blank hc (ih hcs)

theorem exists_append {w : String} (h : Spaced cs (w :: ws))
    (hfirst : ∀ c ∈ cs.head?, isBlank c = false) :
    ∃ rest, cs = w.toList ++ rest ∧ ∀ c ∈ rest.head?, isBlank c = true := by
  cases h with
  | blank hc _ =>
    rw [hfirst _ rfl] at hc
    cases hc
  | last => exact ⟨[], (List.append_nil _).symm, nofun⟩
  | word _ hc _ =>
    refine ⟨_, rfl, fun d hd => ?_⟩
    rwa [← Option.some.inj hd]

end Spaced

theorem spaced_words (cs : List Char) : Spaced cs (words (String.ofList cs)) := by
  let w := cs.takeWhile (!isBlank ·)
  have hsplit : w ++ cs.dropWhile (!isBlank ·) = cs := List.takeWhile_append_dropWhile
  have hinked : ∀ c ∈ w, isBlank c = false := by
    simpa using List.all_eq_true.1 (List.all_takeWhile (p := (!isBlank ·)) (l := cs))
  have hword (hne : w ≠ []) : IsWord (String.ofList w) :=
    ⟨by simpa using hne, by simpa using hinked⟩
  cases hrest : cs.dropWhile (!isBlank ·) with
  | nil =>
    rw [hrest, List.append_nil] at hsplit
    by_cases hne : w = []
    · rw [← hsplit, hne]
      exact .nil
    · have hlast := Spaced.last (hword hne)
      rw [← hsplit, (hword hne).words_eq]
      rwa [String.toList_ofList] at hlast
  | cons c tail =>
    have hc : isBlank c = true := by
      have hhead := List.head?_dropWhile_not (!isBlank ·) cs
      rw [hrest] at hhead
      simpa using hhead
    have hshorter : tail.length < cs.length := by
      rw [← hsplit, hrest, List.length_append, List.length_cons]
      omega
    have htail := spaced_words tail
    rw [← hsplit, hrest, words_append_blank hc]
    by_cases hne : w = []
    · rw [hne]
      exact .blank hc htail
    · have hlonger := Spaced.word (hword hne) hc htail
      rw [(hword hne).words_eq]
      rwa [String.toList_ofList] at hlonger
termination_by cs.length

theorem words_eq_iff {s : String} {ws : List String} : words s = ws ↔ Spaced s.toList ws := by
  constructor
  · rintro rfl
    have hwords := spaced_words s.toList
    rwa [String.ofList_toList] at hwords
  · intro h
    rw [← h.words_eq, String.ofList_toList]

theorem words_eq_nil_iff {s : String} : words s = [] ↔ Blank s :=
  words_eq_iff.trans Spaced.nil_iff

end Text

end PuzzleShell
