import PuzzleShell.Proofs.Shell.Footprint
import PuzzleShell.Proofs.Text.Spacing

/-!
# Lines spaced in another way

A line is read as its words, and all spacings of the same words are executed alike. An input is
read back from its plainest spelling, which differs from the line in the blanks alone. Whether a
script is called can be seen from the line as well as from its first word.
-/

namespace PuzzleShell

namespace Text

theorem not_blank_head_strip (s : String) : ∀ c ∈ (strip s).toList.head?, isBlank c = false := by
  have hhead := List.head?_dropWhile_not isBlank s.toList
  rw [strip, String.toList_ofList]
  cases hs : s.toList.dropWhile isBlank with
  | nil =>
    intro c hc
    cases hc
  | cons d ds =>
    rw [hs] at hhead
    rw [dropEndWhile_cons_of_neg hhead]
    intro c hc
    rwa [← Option.some.inj hc]

/-- What stands behind a blank does not help a text to start with a pattern without one. -/
theorem prefix_append_iff {pattern cs rest : List Char} (hpattern : ∀ c ∈ pattern, isBlank c = false)
    (hrest : ∀ c ∈ rest.head?, isBlank c = true) : pattern <+: cs ++ rest ↔ pattern <+: cs := by
  refine ⟨fun h => ?_, fun h => h.trans (List.prefix_append cs rest)⟩
  rcases List.prefix_or_prefix_of_prefix h (List.prefix_append cs rest) with h' | ⟨more, rfl⟩
  · exact h'
  · cases more with
    | nil => simp
    | cons c more =>
      have hinked := hpattern c (by simp)
      have hmore : c :: more <+: rest := (List.prefix_append_right_inj cs).1 h
      obtain ⟨others, rfl⟩ := hmore
      rw [hrest c (by simp)] at hinked
      cases hinked

end Text

namespace Input

variable {line : String} {i : Input}

theorem ofLine?_eq_none_iff : ofLine? line = none ↔ Text.Blank line := by
  rw [← Text.words_eq_nil_iff, ofLine?]
  cases Text.words line with
  | nil => simp
  | cons name args => simp

theorem spaced (h : ofLine? line = some i) : Text.Spaced line.toList (i.name :: i.args) :=
  Text.words_eq_iff.1 (ofLine?_eq_some h).1

theorem ofLine?_text (h : ofLine? line = some i) :
    ofLine? i.text = some { i with raw := i.text } := by
  have hwords : Text.words i.text = i.name :: i.args := Text.words_spaced (spaced h).isWord
  have hstrip : Text.strip i.text = i.text := Text.strip_spaced (spaced h).isWord
  rw [ofLine?, hwords]
  dsimp only
  rw [hstrip]

theorem startsWith_raw {pattern : String} (h : ofLine? line = some i)
    (hpattern : ∀ c ∈ pattern.toList, Text.isBlank c = false) :
    Text.startsWith pattern i.raw = Text.startsWith pattern i.name := by
  obtain ⟨hwords, hraw⟩ := ofLine?_eq_some h
  rw [← Text.words_strip, ← hraw] at hwords
  have hfirst := Text.not_blank_head_strip line
  rw [← hraw] at hfirst
  obtain ⟨rest, htyped, hrest⟩ := (Text.words_eq_iff.1 hwords).exists_append hfirst
  rw [Text.startsWith, Text.startsWith, Bool.eq_iff_iff, List.isPrefixOf_iff_prefix,
    List.isPrefixOf_iff_prefix, htyped]
  exact Text.prefix_append_iff hpattern hrest

end Input

section Execution

variable (context : Context) (s : State)

theorem execute_eq_of_spaced {line other : String} {ws : List String}
    (h : Text.Spaced line.toList ws) (h' : Text.Spaced other.toList ws) :
    execute context s line = execute context s other := by
  have hline := Text.words_eq_iff.2 h
  have hother := Text.words_eq_iff.2 h'
  rw [execute, execute, Input.ofLine?, Input.ofLine?, hline, hother]
  cases ws with
  | nil => rfl
  | cons name args => rfl

/-- A line is executed as its words with single spaces between them, and what is read of it is
what is read of that text. -/
theorem execute_respaced (line : String) :
    execute context s line = execute context s (" ".intercalate (Text.words line)) ∧
      (Input.ofLine? line = none ↔ Text.Blank line) ∧
      ∀ i, Input.ofLine? line = some i →
        Text.Spaced line.toList (i.name :: i.args) ∧ (∀ w ∈ i.name :: i.args, Text.IsWord w) ∧
        Text.startsWith "./" i.raw = Text.startsWith "./" i.name ∧
        ∃ j, Input.ofLine? i.text = some j ∧ j.name = i.name ∧ j.args = i.args ∧
          j.command? = i.command? ∧ j.raw = i.text := by
  have hspaced : Text.Spaced line.toList (Text.words line) := Text.words_eq_iff.1 rfl
  have hplain : Text.Spaced (" ".intercalate (Text.words line)).toList (Text.words line) :=
    Text.words_eq_iff.1 (Text.words_spaced hspaced.isWord)
  have hprefix : Text.IsWord "./" := by decide +kernel
  refine ⟨execute_eq_of_spaced context s hspaced hplain, Input.ofLine?_eq_none_iff,
    fun i hi => ⟨Input.spaced hi, (Input.spaced hi).isWord, ?_, ?_⟩⟩
  · exact Input.startsWith_raw hi hprefix.inked
  · exact ⟨_, Input.ofLine?_text hi, rfl, rfl, rfl, rfl⟩

/-- Blanks of several kinds, at both ends and between the words. -/
theorem execute_respaced_mixed : execute {} {} "\u3000ls \u00a0-a\t/\n" = execute {} {} "ls -a /" := by
  have hwords : " ".intercalate (Text.words "\u3000ls \u00a0-a\t/\n") = "ls -a /" := by
    decide +kernel
  rw [(execute_respaced {} {} "\u3000ls \u00a0-a\t/\n").1, hwords]

end Execution

end PuzzleShell
