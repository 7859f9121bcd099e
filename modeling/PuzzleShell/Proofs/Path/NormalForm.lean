import PuzzleShell.Proofs.Path.Composition

/-!
# The normal form of a path

Normalizing brings every text into canonical form and leaves alone what has it already. So a place
has one path, which may be resolved again from anywhere, and dots may be followed in a part of a
text before the rest of it is appended.
-/

namespace PuzzleShell.Path

theorem collapse_of_isName {names : List String} (h : ∀ s ∈ names, IsName s) :
    collapse names = names := by
  rw [collapse, foldl_descend_of_isName h, List.append_nil, List.reverse_reverse]

section Canonical

variable {path : String}

theorem Canonical.normalize_eq (h : Canonical path) : normalize path = path := by
  rw [normalize, collapse_of_isName h.segments, h.ofSegments_segments]

theorem normalize_eq_self_iff : normalize path = path ↔ Canonical path := by
  constructor
  · intro h
    rw [← h]
    exact canonical_normalize path
  · exact Canonical.normalize_eq

theorem Canonical.startsWith_slash (h : Canonical path) : Text.startsWith "/" path = true := by
  rw [← h.ofSegments_segments]
  exact startsWith_append (by decide) _

theorem Canonical.resolve_eq (h : Canonical path) (cwd : String) : resolve path cwd = path := by
  rw [resolve, if_pos h.startsWith_slash, h.normalize_eq]

end Canonical

/-- Normalizing gives a canonical path, and the canonical paths are the texts that it leaves alone.
It may be done early in the first part of a text. What an expression is resolved to is canonical
wherever one stands, and is the same from everywhere. -/
theorem normalForm :
    (∀ path, Canonical (normalize path)) ∧
    (∀ path, normalize path = path ↔ Canonical path) ∧
    (∀ path, normalize (normalize path) = normalize path) ∧
    (∀ path rest, normalize (path ++ "/" ++ rest) = normalize (normalize path ++ "/" ++ rest)) ∧
    ∀ expr cwd, Canonical (resolve expr cwd) ∧
      ∀ dir, resolve (resolve expr cwd) dir = resolve expr cwd := by
  refine ⟨canonical_normalize, fun _ => normalize_eq_self_iff, fun path => ?_, fun path rest => ?_,
    fun expr cwd => ⟨canonical_resolve expr cwd, fun dir => ?_⟩⟩
  · exact (canonical_normalize path).normalize_eq
  · exact (normalize_normalize_append path rest).symm
  · exact (canonical_resolve expr cwd).resolve_eq dir

theorem resolve_dotSlash {expr : String} (h : ¬ IsFixed expr) (cwd : String) :
    resolve ("./" ++ expr) cwd = resolve expr cwd := by
  have hdots : "./" ++ expr = upwards 0 expr := by simp [upwards]
  have hdot (stack : List String) : descend stack "." = stack := rfl
  have hsame : collapse (segments cwd ++ segments (upwards 0 expr)) =
      collapse (segments cwd ++ segments expr) := by
    rw [segments_upwards, List.replicate_zero, List.nil_append, collapse, collapse,
      List.foldl_append, List.foldl_append, List.foldl_cons, hdot]
  rw [hdots, resolve_of_not_isFixed (not_isFixed_upwards 0 expr), resolve_of_not_isFixed h,
    normalize, normalize, segments_append_slash, segments_append_slash, hsame]

end PuzzleShell.Path
