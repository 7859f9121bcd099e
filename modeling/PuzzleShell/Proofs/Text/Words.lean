import PuzzleShell.Input
import PuzzleShell.Proofs.Path.Canonical

/-!
# Words of a line

Stripping the blanks at the two ends of a line leaves its words as they are, so a line and the
stripped line are read as the same input. Words with single spaces between them are read back from
the text that they make, whatever blanks stand around it.
-/

namespace PuzzleShell

namespace Text

theorem pieces_ofList (sep : Char → Bool) (cs : List Char) :
    pieces sep (String.ofList cs) = ((cs.splitOnP sep).filter (!·.isEmpty)).map String.ofList := by
  rw [pieces, String.toList_ofList]

theorem filter_splitOnP_dropWhile (p : Char → Bool) (cs : List Char) :
    ((cs.dropWhile p).splitOnP p).filter (!·.isEmpty) =
      (cs.splitOnP p).filter (!·.isEmpty) := by
  induction cs with
  | nil => rfl
  | cons c cs ih =>
    by_cases hc : p c = true
    · rw [List.dropWhile_cons_of_pos hc, ih, List.splitOnP_cons_eq_if_modifyHead, if_pos hc,
        List.filter_cons_of_neg (by simp)]
    · rw [List.dropWhile_cons_of_neg hc]

theorem dropEndWhile_append_singleton (p : Char → Bool) (cs : List Char) (c : Char) :
    dropEndWhile p (cs ++ [c]) = if p c = true then dropEndWhile p cs else cs ++ [c] := by
  unfold dropEndWhile
  rw [List.reverse_append, List.reverse_singleton, List.singleton_append]
  by_cases hc : p c = true
  · rw [List.dropWhile_cons_of_pos hc, if_pos hc]
  · rw [List.dropWhile_cons_of_neg hc, if_neg hc, List.reverse_cons, List.reverse_reverse]

theorem filter_splitOnP_dropEndWhile (p : Char → Bool) (cs : List Char) :
    ((dropEndWhile p cs).splitOnP p).filter (!·.isEmpty) =
      (cs.splitOnP p).filter (!·.isEmpty) := by
  -- from the last character to the first, the way in which they are dropped
  rw [← List.reverse_reverse cs]
  induction cs.reverse with
  | nil => rfl
  | cons c rest ih =>
    rw [List.reverse_cons, dropEndWhile_append_singleton]
    split
    · next hc =>
      rw [ih, List.splitOnP_append_cons _ _ hc, List.splitOnP_nil, List.filter_append,
        List.filter_cons_of_neg (by simp), List.filter_nil, List.append_nil]
    · rfl

/-- A cut behind the last separator, or at the start if there is none. -/
theorem exists_cut_last (p : Char → Bool) (cs : List Char) : ∃ front rest, cs = front ++ rest ∧
    (∀ c ∈ rest, p c = false) ∧ (front = [] ∨ ∃ first c, front = first ++ [c] ∧ p c = true) := by
  induction cs with
  | nil => exact ⟨[], [], rfl, List.forall_mem_nil _, .inl rfl⟩
  | cons d cs ih =>
    obtain ⟨front, rest, rfl, hrest, hnil | ⟨first, c, rfl, hc⟩⟩ := ih
    · subst hnil
      cases hd : p d with
      | false => exact ⟨[], d :: rest, rfl, List.forall_mem_cons.2 ⟨hd, hrest⟩, .inl rfl⟩
      | true => exact ⟨[d], rest, rfl, hrest, .inr ⟨[], d, rfl, hd⟩⟩
    · exact ⟨d :: first ++ [c], rest, rfl, hrest, .inr ⟨d :: first, c, rfl, hc⟩⟩

theorem getLast?_splitOnP_append {p : Char → Bool} {front rest : List Char}
    (hrest : ∀ c ∈ rest, p c = false)
    (hfront : front = [] ∨ ∃ first c, front = first ++ [c] ∧ p c = true) :
    ((front ++ rest).splitOnP p).getLast? = some rest := by
  rcases hfront with rfl | ⟨first, c, rfl, hc⟩
  · rw [List.nil_append, List.splitOnP_eq_singleton hrest]
    rfl
  · rw [List.append_assoc, List.singleton_append, List.splitOnP_append_cons _ _ hc,
      List.splitOnP_eq_singleton hrest, List.getLast?_concat]

theorem getLast?_splitOnP_append_singleton {p : Char → Bool} {c : Char} (hc : p c = false)
    (cs : List Char) : ∃ l, ((cs ++ [c]).splitOnP p).getLast? = some (l ++ [c]) := by
  obtain ⟨front, rest, rfl, hrest, hfront⟩ := exists_cut_last p cs
  have hlast : ∀ d ∈ rest ++ [c], p d = false :=
    List.forall_mem_append.2 ⟨hrest, List.forall_mem_singleton.2 hc⟩
  exact ⟨rest, by rw [List.append_assoc, getLast?_splitOnP_append hlast hfront]⟩

theorem getLast?_splitOnP_suffix (p : Char → Bool) (cs : List Char) :
    (cs.splitOnP p).getLast?.getD [] <:+ cs := by
  obtain ⟨front, rest, rfl, hrest, hfront⟩ := exists_cut_last p cs
  rw [getLast?_splitOnP_append hrest hfront]
  exact List.suffix_append front rest

theorem getLast?_filter_splitOnP (p : Char → Bool) (cs : List Char) :
    ((cs.splitOnP p).filter (!·.isEmpty)).getLast?.getD [] =
      ((dropEndWhile p cs).splitOnP p).getLast?.getD [] := by
  rw [← filter_splitOnP_dropEndWhile]
  rw [← List.reverse_reverse cs]
  induction cs.reverse with
  | nil => rfl
  | cons c rest ih =>
    rw [List.reverse_cons, dropEndWhile_append_singleton]
    split
    · exact ih
    · next hc =>
      obtain ⟨l, hl⟩ := getLast?_splitOnP_append_singleton (by simpa using hc) rest.reverse
      obtain ⟨before, hsplit⟩ := List.getLast?_eq_some_iff.1 hl
      rw [hsplit, List.filter_append, List.filter_cons_of_pos (by simp), List.filter_nil,
        List.getLast?_concat, List.getLast?_concat]

theorem exists_append_getLast_words {s : String} (h : s.toList.getLast?.any isBlank = false) :
    ∃ first, s = first ++ (words s).getLast?.getD "" := by
  have hkept : dropEndWhile isBlank s.toList = s.toList := by
    rcases List.eq_nil_or_concat s.toList with hnil | ⟨cs, c, hcs⟩
    · rw [hnil]
      rfl
    · rw [hcs, List.concat_eq_append] at h ⊢
      rw [List.getLast?_concat, Option.any_some] at h
      rw [dropEndWhile_append_singleton, if_neg (by simp [h])]
  have hlast : ((words s).getLast?.getD "").toList = (s.toList.splitOnP isBlank).getLast?.getD [] := by
    rw [← hkept, ← getLast?_filter_splitOnP, words, pieces, List.getLast?_map]
    cases ((s.toList.splitOnP isBlank).filter (!·.isEmpty)).getLast? with
    | none => rfl
    | some w => exact String.toList_ofList
  obtain ⟨first, hfirst⟩ := getLast?_splitOnP_suffix isBlank s.toList
  refine ⟨String.ofList first, String.toList_inj.1 ?_⟩
  rw [String.toList_append, String.toList_ofList, hlast, hfirst]

theorem words_strip (s : String) : words (strip s) = words s := by
  rw [words, strip, pieces_ofList, filter_splitOnP_dropEndWhile, filter_splitOnP_dropWhile]
  rfl

def Blank (s : String) : Prop := ∀ c ∈ s.toList, isBlank c = true

instance : DecidablePred Blank := fun _ => decidable_of_iff _ List.all_eq_true

/-- What can be a word of a line. -/
structure IsWord (w : String) : Prop where
  ne_empty : w ≠ ""
  inked : ∀ c ∈ w.toList, isBlank c = false

instance : DecidablePred IsWord := fun w =>
  decidable_of_iff (w ≠ "" ∧ w.toList.all (!isBlank ·) = true) <| by
    rw [List.all_eq_true]
    exact ⟨fun h => ⟨h.1, by simpa using h.2⟩, fun h => ⟨h.1, by simpa using h.inked⟩⟩

theorem isBlank_eq_false_of_mem_words {s w : String} (hw : w ∈ words s) {c : Char}
    (hc : c ∈ w.toList) : isBlank c = false := by
  obtain ⟨l, hl, rfl⟩ := List.mem_map.1 hw
  rw [String.toList_ofList] at hc
  exact Path.forall_mem_splitOnP isBlank s.toList l (List.mem_filter.1 hl).1 c hc

theorem isWord_of_mem_words {s w : String} (hw : w ∈ words s) : IsWord w := by
  refine ⟨?_, fun c => isBlank_eq_false_of_mem_words hw⟩
  rintro rfl
  obtain ⟨l, hl, he⟩ := List.mem_map.1 hw
  obtain rfl : l = [] := by simpa using congrArg String.toList he
  simp at hl

section Ends

variable {p : Char → Bool} {cs ds : List Char}

theorem dropEndWhile_append_of_pos (h : ∀ c ∈ ds, p c = true) :
    dropEndWhile p (cs ++ ds) = dropEndWhile p cs := by
  unfold dropEndWhile
  rw [List.reverse_append, List.dropWhile_append_of_pos fun c hc => h c (List.mem_reverse.1 hc)]

theorem dropWhile_append_of_neg (hne : cs ≠ []) (h : ∀ c ∈ cs, p c = false) :
    (cs ++ ds).dropWhile p = cs ++ ds := by
  obtain ⟨c, cs, rfl⟩ := List.exists_cons_of_ne_nil hne
  rw [List.cons_append, List.dropWhile_cons_of_neg (by simp [h c List.mem_cons_self])]

theorem dropEndWhile_append_of_neg (hne : ds ≠ []) (h : ∀ c ∈ ds, p c = false) :
    dropEndWhile p (cs ++ ds) = cs ++ ds := by
  unfold dropEndWhile
  rw [List.reverse_append, dropWhile_append_of_neg (by simpa using hne)
    fun c hc => h c (List.mem_reverse.1 hc), ← List.reverse_append, List.reverse_reverse]

theorem dropEndWhile_cons_of_neg {c : Char} (hc : p c = false) :
    dropEndWhile p (c :: cs) = c :: dropEndWhile p cs := by
  unfold dropEndWhile
  rw [List.reverse_cons, List.dropWhile_append]
  split
  · next hnone =>
    rw [List.dropWhile_cons_of_neg (by simp [hc]), List.isEmpty_iff.1 hnone]
    rfl
  · rw [List.reverse_append]
    rfl

end Ends

section Start

variable {c : Char} (hc : isBlank c = false) (cs : List Char)
include hc

theorem toList_strip_cons :
    (strip (String.ofList (c :: cs))).toList = c :: dropEndWhile isBlank cs := by
  rw [strip, String.toList_ofList, String.toList_ofList, List.dropWhile_cons_of_neg (by simp [hc]),
    dropEndWhile_cons_of_neg hc]

theorem head?_words_cons :
    ∃ w, (words (String.ofList (c :: cs))).head? = some (String.ofList (c :: w)) := by
  rw [words, pieces_ofList, List.splitOnP_cons_eq_if_modifyHead, if_neg (by simp [hc])]
  cases hs : cs.splitOnP isBlank with
  | nil => exact absurd hs (List.splitOnP_ne_nil isBlank cs)
  | cons w others => exact ⟨w, by simp⟩

end Start

section Spaced

variable {before after : String}

theorem blank_empty : Blank "" := fun c hc => by cases hc

theorem strip_surrounded (hbefore : Blank before) (hafter : Blank after) (s : String) :
    strip (before ++ s ++ after) = strip s := by
  unfold strip
  rw [String.toList_append, String.toList_append, List.append_assoc,
    List.dropWhile_append_of_pos hbefore, List.dropWhile_append]
  split
  · next hnone =>
    have hgone : after.toList.dropWhile isBlank = [] := by
      have hdrop : (after.toList ++ []).dropWhile isBlank = [] :=
        List.dropWhile_append_of_pos hafter
      rwa [List.append_nil] at hdrop
    rw [hgone, List.isEmpty_iff.1 hnone]
  · rw [dropEndWhile_append_of_pos hafter]

theorem words_surrounded (hbefore : Blank before) (hafter : Blank after) (s : String) :
    words (before ++ s ++ after) = words s := by
  rw [← words_strip, strip_surrounded hbefore hafter, words_strip]

/-- A blank parts the words before it from those behind it. -/
theorem words_append_blank {c : Char} (hc : isBlank c = true) (cs ds : List Char) :
    words (String.ofList (cs ++ c :: ds)) =
      words (String.ofList cs) ++ words (String.ofList ds) := by
  rw [words, words, words, pieces_ofList, pieces_ofList, pieces_ofList,
    List.splitOnP_append_cons _ _ hc, List.filter_append, List.map_append]

theorem words_append_space (s t : String) : words (s ++ " " ++ t) = words s ++ words t := by
  have htext : s ++ " " ++ t = String.ofList (s.toList ++ ' ' :: t.toList) := by
    rw [← String.toList_inj]
    simp
  rw [htext, words_append_blank (by decide), String.ofList_toList, String.ofList_toList]

namespace IsWord

variable {w : String} (h : IsWord w)
include h

theorem toList_ne_nil : w.toList ≠ [] :=
  fun hnil => h.ne_empty (String.toList_eq_nil_iff.1 hnil)

theorem words_eq : words w = [w] := by
  rw [words, pieces, List.splitOnP_eq_singleton h.inked]
  simp [h.toList_ne_nil]

theorem words_behind {name : String} (hname : IsWord name) :
    words (name ++ " " ++ w) = [name, w] := by
  rw [words_append_space, words_eq hname, h.words_eq]
  rfl

theorem surrounded (hbefore : ∀ c ∈ before.toList, isBlank c = false)
    (hafter : ∀ c ∈ after.toList, isBlank c = false) : IsWord (before ++ w ++ after) := by
  refine ⟨fun hempty => ?_, ?_⟩
  · obtain ⟨hfirst, -⟩ := String.append_eq_empty_iff.1 hempty
    exact h.ne_empty (String.append_eq_empty_iff.1 hfirst).2
  · rw [String.toList_append, String.toList_append, List.forall_mem_append, List.forall_mem_append]
    exact ⟨⟨hbefore, h.inked⟩, hafter⟩

end IsWord

variable {ws : List String} (h : ∀ w ∈ ws, IsWord w)
include h

theorem words_spaced : words (" ".intercalate ws) = ws := by
  induction ws with
  | nil => rfl
  | cons w ws ih =>
    obtain ⟨hw, hws⟩ := List.forall_mem_cons.1 h
    cases ws with
    | nil => rw [String.intercalate_singleton, hw.words_eq]
    | cons v ws =>
      rw [String.intercalate_cons_cons, words_append_space, hw.words_eq, ih hws]
      rfl

theorem exists_word_append (hne : ws ≠ []) :
    ∃ w rest, IsWord w ∧ " ".intercalate ws = w ++ rest := by
  obtain ⟨w, ws, rfl⟩ := List.exists_cons_of_ne_nil hne
  have hw := h w List.mem_cons_self
  cases ws with
  | nil => exact ⟨w, "", hw, by simp⟩
  | cons v ws =>
    refine ⟨w, " " ++ " ".intercalate (v :: ws), hw, ?_⟩
    rw [String.intercalate_cons_cons, String.append_assoc]

theorem exists_append_word (hne : ws ≠ []) :
    ∃ first w, IsWord w ∧ " ".intercalate ws = first ++ w := by
  induction ws with
  | nil => exact absurd rfl hne
  | cons w ws ih =>
    obtain ⟨hw, hws⟩ := List.forall_mem_cons.1 h
    cases ws with
    | nil => exact ⟨"", w, hw, by simp⟩
    | cons v ws =>
      obtain ⟨first, u, hu, hspaced⟩ := ih hws (List.cons_ne_nil v ws)
      refine ⟨w ++ " " ++ first, u, hu, ?_⟩
      rw [String.intercalate_cons_cons, hspaced, ← String.append_assoc]

theorem strip_spaced : strip (" ".intercalate ws) = " ".intercalate ws := by
  by_cases hne : ws = []
  · subst hne
    rfl
  · obtain ⟨w, rest, hw, hstart⟩ := exists_word_append h hne
    obtain ⟨first, u, hu, hend⟩ := exists_append_word h hne
    have hkept : (" ".intercalate ws).toList.dropWhile isBlank = (" ".intercalate ws).toList := by
      rw [hstart, String.toList_append, dropWhile_append_of_neg hw.toList_ne_nil hw.inked]
    rw [strip, hkept, hend, String.toList_append,
      dropEndWhile_append_of_neg hu.toList_ne_nil hu.inked, ← String.toList_append,
      String.ofList_toList]

end Spaced

end Text

theorem Input.ofLine?_strip (line : String) : Input.ofLine? (Text.strip line) =
    (Input.ofLine? line).map fun i => { i with raw := Text.strip i.raw } := by
  unfold Input.ofLine?
  rw [Text.words_strip]
  split <;> rfl

end PuzzleShell
