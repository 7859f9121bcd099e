import Mathlib.Tactic.ByContra
import PuzzleShell.Path

/-!
# Canonical paths

A name is a text that can stand between two slashes and is not one of the dots. A path is
canonical when it is a slash followed by names with single slashes between them. Normalizing any
text, and so resolving any expression, gives a canonical path, and so does going up from one.
-/

namespace PuzzleShell.Path

def IsName (s : String) : Prop := s ≠ "" ∧ '/' ∉ s.toList ∧ s ≠ "." ∧ s ≠ ".."

instance : DecidablePred IsName := fun s =>
  inferInstanceAs (Decidable (s ≠ "" ∧ '/' ∉ s.toList ∧ s ≠ "." ∧ s ≠ ".."))

def Canonical (path : String) : Prop := ∃ parts, (∀ s ∈ parts, IsName s) ∧ path = ofSegments parts

theorem forall_mem_splitOnP {α : Type} (p : α → Bool) (xs : List α) :
    ∀ l ∈ xs.splitOnP p, ∀ x ∈ l, p x = false := by
  induction xs with
  | nil => simp
  | cons x xs ih =>
    rw [List.splitOnP_cons_eq_if_modifyHead]
    split
    · simpa using ih
    · next hx =>
      cases hs : xs.splitOnP p with
      | nil => simp
      | cons l ls =>
        rw [hs] at ih
        intro m hm y hy
        rcases List.mem_cons.1 hm with rfl | hm
        · rcases List.mem_cons.1 hy with rfl | hy
          · simpa using hx
          · exact ih l (by simp) y hy
        · exact ih m (by simp [hm]) y hy

theorem ne_empty_of_mem_segments {path s : String} (h : s ∈ segments path) :
    s ≠ "" ∧ '/' ∉ s.toList := by
  obtain ⟨l, hl, rfl⟩ := List.mem_map.1 h
  obtain ⟨hmem, hne⟩ := List.mem_filter.1 hl
  refine ⟨?_, fun hslash => ?_⟩
  · intro he
    have hnil : l = [] := by simpa using congrArg String.toList he
    simp [hnil] at hne
  · have hmark := forall_mem_splitOnP (· == '/') path.toList l hmem '/' (by simpa using hslash)
    simp at hmark

theorem segments_ofSegments_of_subset {path : String} {parts : List String}
    (h : parts ⊆ segments path) : segments (ofSegments parts) = parts :=
  segments_ofSegments fun _ hs => ne_empty_of_mem_segments (h hs)

@[simp] theorem segments_parent (path : String) :
    segments (parent path) = (segments path).dropLast :=
  segments_ofSegments_of_subset (List.dropLast_subset _)

theorem name_eq_empty_iff {path : String} : name path = "" ↔ segments path = [] := by
  unfold name
  constructor
  · intro h
    by_contra hne
    rw [List.getLast?_eq_some_getLast hne, Option.getD_some] at h
    exact (ne_empty_of_mem_segments (List.getLast_mem hne)).1 h
  · intro h
    simp [h]

theorem segments_parent_append_name {path : String} (h : segments path ≠ []) :
    segments (parent path) ++ [name path] = segments path := by
  rw [segments_parent, name, List.getLast?_eq_some_getLast h, Option.getD_some,
    List.dropLast_concat_getLast]

/-- The first path is the second one or leads to it from above. -/
def Covers (path other : String) : Prop := segments path <+: segments other

instance (path other : String) : Decidable (Covers path other) :=
  inferInstanceAs (Decidable (segments path <+: segments other))

theorem covers_of_segments_eq {path other : String} (h : segments path = segments other) :
    Covers path other :=
  ⟨[], by rw [List.append_nil, h]⟩

theorem covers_parent {path above : String} (hover : Covers above path)
    (hproper : ¬ Covers path above) : Covers above (parent path) := by
  have hs : segments path ≠ [] := by
    intro hs
    rw [Covers, hs] at hproper
    exact hproper List.nil_prefix
  rw [Covers, ← segments_parent_append_name hs, List.prefix_concat_iff] at hover
  rcases hover with heq | hprefix
  · rw [segments_parent_append_name hs] at heq
    exact absurd (covers_of_segments_eq heq.symm) hproper
  · exact hprefix

theorem not_covers_parent {path : String} (hs : segments path ≠ []) :
    ¬ Covers path (parent path) := by
  intro hback
  have hlength := hback.length_le
  have hpos := List.length_pos_iff.2 hs
  rw [segments_parent, List.length_dropLast] at hlength
  omega

theorem Canonical.segments {path : String} (h : Canonical path) : ∀ s ∈ segments path, IsName s := by
  obtain ⟨parts, hparts, rfl⟩ := h
  rwa [segments_ofSegments fun s hs => ⟨(hparts s hs).1, (hparts s hs).2.1⟩]

theorem Canonical.ofSegments_segments {path : String} (h : Canonical path) :
    ofSegments (Path.segments path) = path := by
  obtain ⟨parts, hparts, rfl⟩ := h
  rw [segments_ofSegments fun s hs => ⟨(hparts s hs).1, (hparts s hs).2.1⟩]

theorem canonical_iff {path : String} :
    Canonical path ↔ ofSegments (segments path) = path ∧ ∀ s ∈ segments path, IsName s :=
  ⟨fun h => ⟨h.ofSegments_segments, h.segments⟩, fun h => ⟨segments path, h.2, h.1.symm⟩⟩

instance : DecidablePred Canonical := fun _ => decidable_of_iff' _ canonical_iff

theorem Canonical.parent {path : String} (h : Canonical path) : Canonical (parent path) :=
  ⟨(Path.segments path).dropLast, fun s hs => h.segments s (List.dropLast_subset _ hs), rfl⟩

theorem isName_of_mem_foldl_descend {parts stack : List String}
    (hparts : ∀ s ∈ parts, s ≠ "" ∧ '/' ∉ s.toList) (hstack : ∀ s ∈ stack, IsName s) :
    ∀ s ∈ parts.foldl descend stack, IsName s := by
  induction parts generalizing stack with
  | nil => exact hstack
  | cons part parts ih =>
    refine ih (fun s hs => hparts s (List.mem_cons_of_mem _ hs)) ?_
    obtain ⟨hne, hslash⟩ := hparts part List.mem_cons_self
    intro s hs
    unfold descend at hs
    split at hs
    · exact hstack s hs
    · next hdot =>
      split at hs
      · exact hstack s (List.mem_of_mem_tail hs)
      · next hdots =>
        rcases List.mem_cons.1 hs with rfl | hs
        · exact ⟨hne, hslash, hdot, hdots⟩
        · exact hstack s hs

theorem isName_of_mem_collapse {parts : List String}
    (hparts : ∀ s ∈ parts, s ≠ "" ∧ '/' ∉ s.toList) : ∀ s ∈ collapse parts, IsName s := by
  intro s hs
  exact isName_of_mem_foldl_descend hparts (by simp) s (List.mem_reverse.1 hs)

theorem canonical_normalize (path : String) : Canonical (normalize path) :=
  ⟨collapse (segments path), isName_of_mem_collapse fun _ => ne_empty_of_mem_segments, rfl⟩

theorem canonical_home : Canonical home := by decide

theorem canonical_resolve (expr cwd : String) : Canonical (resolve expr cwd) := by
  unfold resolve
  split
  · exact canonical_normalize _
  · split
    · exact canonical_home
    · split
      · exact canonical_normalize _
      · exact canonical_normalize _

end PuzzleShell.Path
