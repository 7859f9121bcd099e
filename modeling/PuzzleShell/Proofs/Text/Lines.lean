import PuzzleShell.Proofs.Text.Quotes
import PuzzleShell.Proofs.Text.Words
import PuzzleShell.Shell.Reading
import PuzzleShell.Shell.Writing
import PuzzleShell.Text.Blank

/-!
# Lines written and read

A file is written line by line, each text with a line feed behind it, and read by cutting what it
holds at the line feeds. The one undoes the other for texts that fit on a line, as all the texts
do that `echo` prints, but for a file of a single line with nothing on it: that one is read as
empty.
-/

namespace PuzzleShell

namespace Text

def FitsLine (s : String) : Prop := '\n' ∉ s.toList

theorem fitsLine_stripQuotes {s : String} (h : FitsLine s) : FitsLine (stripQuotes s) :=
  fun hfeed => h (stripQuotes_subset s hfeed)

theorem fitsLine_spaced {texts : List String} (h : ∀ s ∈ texts, FitsLine s) :
    FitsLine (" ".intercalate texts) := by
  induction texts with
  | nil => simp [FitsLine]
  | cons text texts ih =>
    obtain ⟨htext, htexts⟩ := List.forall_mem_cons.1 h
    cases texts with
    | nil => rwa [String.intercalate_singleton]
    | cons next texts =>
      have hrest := ih htexts
      unfold FitsLine at htext hrest ⊢
      rw [String.intercalate_cons_cons]
      simp only [String.toList_append, List.mem_append, not_or]
      exact ⟨⟨htext, by decide⟩, hrest⟩

theorem cuts_intercalate {texts : List String} (hne : texts ≠ [])
    (h : ∀ s ∈ texts, FitsLine s) : cuts '\n' ("\n".intercalate texts) = texts := by
  have hsplit : (['\n'].intercalate (texts.map String.toList)).splitOn '\n' =
      texts.map String.toList := by
    refine List.splitOn_intercalate '\n' (fun l hl => ?_) (by simpa using hne)
    obtain ⟨s, hs, rfl⟩ := List.mem_map.1 hl
    exact h s hs
  have hsep : "\n".toList = ['\n'] := rfl
  rw [cuts, String.toList_intercalate, hsep, hsplit, List.map_map]
  simp [Function.comp_def]

def written (texts : List String) : String := String.join (texts.map (· ++ "\n"))

theorem written_append (texts others : List String) :
    written (texts ++ others) = written texts ++ written others := by
  rw [written, List.map_append, String.join_append]
  rfl

theorem written_singleton (text : String) : written [text] = text ++ "\n" := by
  simp [written]

theorem written_eq_intercalate {texts : List String} (hne : texts ≠ []) :
    written texts = "\n".intercalate texts ++ "\n" := by
  induction texts with
  | nil => exact absurd rfl hne
  | cons text texts ih =>
    cases texts with
    | nil => rw [written_singleton, String.intercalate_singleton]
    | cons next texts =>
      rw [← List.singleton_append, written_append, written_singleton, ih (List.cons_ne_nil _ _),
        List.singleton_append, String.intercalate_cons_cons]
      exact String.append_assoc.symm

/-- The lines of a content between its line feeds; one at the end closes the last line. -/
def feedLines (content : String) : List String :=
  if content = "" then []
  else cuts '\n' (if endsWith '\n' content then String.ofList content.toList.dropLast else content)

theorem intercalate_eq_empty_iff {texts : List String} (hne : texts ≠ []) :
    "\n".intercalate texts = "" ↔ texts = [""] := by
  obtain ⟨text, texts, rfl⟩ := List.exists_cons_of_ne_nil hne
  cases texts with
  | nil => simp
  | cons next texts => simp

end Text

namespace Shell

open Text (FitsLine written)

theorem fitsLine_echoText {line : String} {words : List String}
    (h : words ⊆ Text.words line) : FitsLine (echoText words) := by
  refine Text.fitsLine_stripQuotes (Text.fitsLine_spaced fun w hw hfeed => ?_)
  have hblank := Text.isBlank_eq_false_of_mem_words (h hw) hfeed
  exact absurd hblank (by decide)

/-- Reading passes over the line of a content that is a line feed and nothing else. -/
theorem contentLines_eq_feedLines {content : String} (h : content ≠ "\n") :
    contentLines content = Text.feedLines content := by
  rw [contentLines, Text.feedLines]
  by_cases hend : Text.endsWith '\n' content = true
  · obtain ⟨front, hfront⟩ := List.getLast?_eq_some_iff.1 (beq_iff_eq.1 hend)
    have hne : content ≠ "" := fun hempty => by simp [hempty] at hfront
    have hbody : String.ofList content.toList.dropLast ≠ "" := fun hempty => h <| by
      have hnil : front = [] := by simpa [hfront] using hempty
      rw [← String.toList_inj, hfront, hnil]
      rfl
    simp only [if_pos hend, if_neg hbody, if_neg hne]
  · simp only [if_neg hend]

/-- Reading gives back what was written line by line, unless that was one line without a text. -/
theorem contentLines_written {texts : List String} (h : ∀ s ∈ texts, FitsLine s) :
    contentLines (written texts) = if texts = [""] then [] else texts := by
  by_cases hne : texts = []
  · subst hne
    rfl
  · have hend : Text.endsWith '\n' (written texts) = true := by
      simp [Text.endsWith, Text.written_eq_intercalate hne]
    have hbody : String.ofList (written texts).toList.dropLast = "\n".intercalate texts := by
      rw [Text.written_eq_intercalate hne, String.toList_append]
      exact (congrArg String.ofList (List.dropLast_concat ..)).trans String.ofList_toList
    rw [contentLines, if_pos hend, hbody]
    simp only [Text.intercalate_eq_empty_iff hne, Text.cuts_intercalate hne h]

end Shell

end PuzzleShell
