import PuzzleShell.Text.Occurrence
import PuzzleShell.Text.Pieces

/-!
# Paths

A path is a text whose segments are the non-empty pieces between slashes. `normalize` brings any
text into canonical form: a slash, then segments joined by single slashes, none of them `.` or
`..`. Nothing here looks at a tree.
-/

namespace PuzzleShell.Path

def home : String := "/home/user"

def segments (path : String) : List String := Text.pieces (· == '/') path

def ofSegments (parts : List String) : String := "/" ++ "/".intercalate parts

/-- Names without a slash are the segments of the path made of them. -/
theorem segments_ofSegments {parts : List String}
    (h : ∀ s ∈ parts, s ≠ "" ∧ '/' ∉ s.toList) : segments (ofSegments parts) = parts := by
  have hs : (ofSegments parts).toList = '/' :: ['/'].intercalate (parts.map String.toList) := by
    simp [ofSegments, String.toList_intercalate]
  unfold segments Text.pieces
  rw [hs, List.splitOnP_cons_eq_if_modifyHead]
  cases parts with
  | nil => simp
  | cons p ps =>
    have hsplit : (['/'].intercalate ((p :: ps).map String.toList)).splitOn '/' =
        (p :: ps).map String.toList := by
      refine List.splitOn_intercalate '/' (fun l hl => ?_) (by simp)
      obtain ⟨s, hs, rfl⟩ := List.mem_map.1 hl
      exact (h s hs).2
    simp only [List.splitOn] at hsplit
    simp only [beq_self_eq_true, if_true, hsplit]
    rw [List.filter_cons_of_neg (by simp), List.filter_eq_self.2]
    · simp [Function.comp_def]
    · intro l hl
      obtain ⟨s, hs, rfl⟩ := List.mem_map.1 hl
      simpa using (h s hs).1

/-- One step down from the place that `stack` names, innermost segment first. Two dots lead up,
and at the root they lead nowhere. -/
def descend (stack : List String) (segment : String) : List String :=
  if segment = "." then stack
  else if segment = ".." then stack.tail
  else segment :: stack

/-- The segments that are left when dots are followed. -/
def collapse (parts : List String) : List String := (parts.foldl descend []).reverse

def normalize (path : String) : String := ofSegments (collapse (segments path))

/-- The place that a typed expression names for someone who stands at `cwd`. -/
def resolve (expr cwd : String) : String :=
  if Text.startsWith "/" expr then normalize expr
  else if expr = "~" then home
  else if Text.startsWith "~/" expr then normalize (home ++ Text.drop 1 expr)
  else normalize (cwd ++ "/" ++ expr)

/-- The path without its last segment; the root is its own parent. -/
def parent (path : String) : String := ofSegments (segments path).dropLast

/-- The last segment, empty for the root. -/
def name (path : String) : String := (segments path).getLast?.getD ""

def join (base child : String) : String :=
  if Text.endsWith '/' base then base ++ child else base ++ "/" ++ child

end PuzzleShell.Path
