import PuzzleShell.Proofs.Shell.Echoes
import PuzzleShell.Proofs.Text.Quotes

/-!
# Quoted texts

A line is taken apart into words before anyone looks for quotes, so those around a text of several
words end up at two different words. `echo` puts the words together again and drops the two quotes:
what it prints of a quoted text is the text.
-/

namespace PuzzleShell

open Text (IsWord isQuote quoted stripQuotes)

theorem intercalate_concat_append (sep : String) (ts : List String) (t u : String) :
    sep.intercalate (ts ++ [t ++ u]) = sep.intercalate (ts ++ [t]) ++ u := by
  by_cases hts : ts = []
  · subst hts
    rw [List.nil_append, List.nil_append, String.intercalate_singleton,
      String.intercalate_singleton]
  · rw [String.intercalate_append_of_ne_nil hts (List.cons_ne_nil _ _),
      String.intercalate_append_of_ne_nil hts (List.cons_ne_nil _ _),
      String.intercalate_singleton, String.intercalate_singleton, ← String.append_assoc]

namespace Shell

section Attached

variable {c : Char} (hc : isQuote c = true)
include hc

theorem plain_of_quote {w : String} (hmem : c ∈ w.toList)
    (hinked : ∀ d ∈ w.toList, Text.isBlank d = false) : IsWord w ∧ w ≠ ">" ∧ w ≠ ">>" := by
  have hother {s : String} (hnone : s.toList.any isQuote = false) : w ≠ s := by
    rintro rfl
    exact List.any_eq_false.1 hnone c hmem hc
  exact ⟨⟨hother (by decide), hinked⟩, hother (by decide), hother (by decide)⟩

variable {ws : List String} (hws : ∀ w ∈ ws, IsWord w ∧ w ≠ ">" ∧ w ≠ ">>")
include hws

/-- A quote in front of the words joins the first of them, or is one itself. -/
theorem exists_spaced_quote_append : ∃ vs ≠ [], (∀ v ∈ vs, IsWord v ∧ v ≠ ">" ∧ v ≠ ">>") ∧
    " ".intercalate vs = String.singleton c ++ " ".intercalate ws := by
  cases ws with
  | nil =>
    have hquote := plain_of_quote hc (by simp) (Text.inked_quote hc)
    exact ⟨[String.singleton c], List.cons_ne_nil _ _, List.forall_mem_singleton.2 hquote, by simp⟩
  | cons w ws =>
    obtain ⟨hw, hws⟩ := List.forall_mem_cons.1 hws
    have hfirst : ∀ d ∈ (String.singleton c ++ w).toList, Text.isBlank d = false := by
      rw [String.toList_append, List.forall_mem_append]
      exact ⟨Text.inked_quote hc, hw.1.inked⟩
    have hplain := plain_of_quote hc (by simp) hfirst
    exact ⟨(String.singleton c ++ w) :: ws, List.cons_ne_nil _ _,
      List.forall_mem_cons.2 ⟨hplain, hws⟩, String.intercalate_cons_append⟩

theorem exists_spaced_append_quote (hne : ws ≠ []) :
    ∃ vs, (∀ v ∈ vs, IsWord v ∧ v ≠ ">" ∧ v ≠ ">>") ∧
      " ".intercalate vs = " ".intercalate ws ++ String.singleton c := by
  obtain ⟨init, w, rfl⟩ := (List.eq_nil_or_concat ws).resolve_left hne
  rw [List.concat_eq_append, List.forall_mem_append, List.forall_mem_singleton] at hws
  obtain ⟨hinit, hw⟩ := hws
  have hlast : ∀ d ∈ (w ++ String.singleton c).toList, Text.isBlank d = false := by
    rw [String.toList_append, List.forall_mem_append]
    exact ⟨hw.1.inked, Text.inked_quote hc⟩
  have hplain := plain_of_quote hc (by simp) hlast
  refine ⟨init ++ [w ++ String.singleton c], ?_, ?_⟩
  · exact List.forall_mem_append.2 ⟨hinit, List.forall_mem_singleton.2 hplain⟩
  · rw [intercalate_concat_append, List.concat_eq_append]

end Attached

end Shell

section Quoted

variable {a b : Char} (ha : isQuote a = true) (hb : isQuote b = true) {ws : List String}
  (hws : ∀ w ∈ ws, IsWord w ∧ w ≠ ">" ∧ w ≠ ">>")
include ha hb hws

theorem exists_spaced_quoted : ∃ vs, (∀ v ∈ vs, IsWord v ∧ v ≠ ">" ∧ v ≠ ">>") ∧
    " ".intercalate vs = quoted a (" ".intercalate ws) b := by
  obtain ⟨us, hne, hus, hfront⟩ := Shell.exists_spaced_quote_append ha hws
  obtain ⟨vs, hvs, hspaced⟩ := Shell.exists_spaced_append_quote hb hus hne
  exact ⟨vs, hvs, by rw [hspaced, hfront, quoted]⟩

theorem execute_echo_quoted (context : Context) (s : State) :
    execute context s ("echo " ++ quoted a (" ".intercalate ws) b) =
      .print [" ".intercalate ws] := by
  obtain ⟨vs, hvs, hspaced⟩ := exists_spaced_quoted ha hb hws
  have hecho : IsWord "echo" := by decide +kernel
  have hname : "echo " = "echo" ++ " " := rfl
  have hline : Text.words ("echo " ++ quoted a (" ".intercalate ws) b) = "echo" :: vs := by
    rw [hname, Text.words_append_space, hecho.words_eq, ← hspaced,
      Text.words_spaced fun v hv => (hvs v hv).1]
    rfl
  rw [execute_echo (fun v hv => (hvs v hv).2) hline, Shell.echoText, hspaced,
    Text.stripQuotes_quoted ha hb]

end Quoted

open Text (without Opens Closes)

/-- Quoting is undone exactly once. Of any text the quotes that open or close it are deleted, at
most one of either kind, and nothing else, so a text between two quotes comes out as it went in,
with the quotes that it has itself. Hence `echo` prints words between two quotes as they are. -/
theorem undoes_quoting :
    (∀ a b t, isQuote a = true → isQuote b = true → stripQuotes (quoted a t b) = t) ∧
    (∀ s : String, (stripQuotes s).toList =
        without (fun i => Opens s.toList i ∨ Closes s.toList i) s.toList ∧
      ∀ i j, Closes s.toList i → Closes s.toList j → i = j) ∧
    ∀ context state a b ws, isQuote a = true → isQuote b = true →
      (∀ w ∈ ws, IsWord w ∧ w ≠ ">" ∧ w ≠ ">>") →
      execute context state ("echo " ++ quoted a (" ".intercalate ws) b) =
        .print [" ".intercalate ws] := by
  refine ⟨?_, ?_, ?_⟩
  · intro a b t ha hb
    exact Text.stripQuotes_quoted ha hb t
  · intro s
    exact ⟨Text.stripQuotes_eq_without s, fun i j => Text.Closes.unique⟩
  · intro context state a b ws ha hb hws
    exact execute_echo_quoted ha hb hws context state

/-- Texts with quotes and line feeds at their ends, and words that a quote stands in or that look
like a redirection. -/
theorem undoes_quoting_nested :
    stripQuotes (quoted '"' "'it's'\"\n" '\'') = "'it's'\"\n" ∧
    (stripQuotes "''x'\"\n" = "'x'\n" ∧ ∀ j, Closes "''x'\"\n".toList j → 4 = j) ∧
    execute {} {} "echo '\"a>b it's >>>\"" = .print ["\"a>b it's >>>"] := by
  obtain ⟨honce, houter, hecho⟩ := undoes_quoting
  obtain ⟨hstripped, hunique⟩ := houter "''x'\"\n"
  have hkept : without (fun i => Opens "''x'\"\n".toList i ∨ Closes "''x'\"\n".toList i)
      "''x'\"\n".toList = "'x'\n".toList := by decide +kernel
  have hwords : ∀ w ∈ ["\"a>b", "it's", ">>>"], IsWord w ∧ w ≠ ">" ∧ w ≠ ">>" := by
    decide +kernel
  have htext : " ".intercalate ["\"a>b", "it's", ">>>"] = "\"a>b it's >>>" := by decide +kernel
  have hline : "echo " ++ quoted '\'' "\"a>b it's >>>" '"' = "echo '\"a>b it's >>>\"" := by
    decide +kernel
  have hprinted := hecho {} {} '\'' '"' _ (by decide) (by decide) hwords
  rw [htext, hline] at hprinted
  refine ⟨honce '"' '\'' _ (by decide) (by decide), ⟨?_, ?_⟩, hprinted⟩
  · rw [← String.toList_inj, hstripped, hkept]
  · exact fun j => hunique 4 j (by decide +kernel)

end PuzzleShell
