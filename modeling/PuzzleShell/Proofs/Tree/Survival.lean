import PuzzleShell.Proofs.Tree.Success
import PuzzleShell.Shell.Removing
import PuzzleShell.Tree.Base

/-!
# The nearest place that is left

The climb from a path goes up as long as nothing is found. Each step takes one segment away, and
at the root there is always something, so it ends within as many steps as the path has segments,
at the longest path above where something is found. On a tree that has lost entries a climb passes
through the place where it ended before, so it may be taken up from there.
-/

namespace PuzzleShell.FileTree

open PuzzleShell.Path (Covers)

variable {t t' : FileTree} {path near other : String} {n m : Nat}

/-- Going up from `path` for as long as nothing is found ends at `near`, after `n` steps. -/
inductive Climbs (t : FileTree) : (path near : String) → (n : Nat) → Prop
  | here {path : String} (hfound : (t.lookup path).isSome = true) : Climbs t path path 0
  | up {path near : String} {n : Nat} (hmissing : t.lookup path = none)
      (rest : Climbs t (Path.parent path) near n) : Climbs t path near (n + 1)

namespace Climbs

theorem unique (h : t.Climbs path near n) (h' : t.Climbs path other m) : other = near ∧ m = n := by
  induction h generalizing m with
  | here hfound =>
    cases h' with
    | here => exact ⟨rfl, rfl⟩
    | up hmissing => simp [hmissing] at hfound
  | up hmissing _ ih =>
    cases h' with
    | here hfound => simp [hmissing] at hfound
    | up _ rest =>
      obtain ⟨hnear, hsteps⟩ := ih rest
      exact ⟨hnear, congrArg (· + 1) hsteps⟩

theorem found (h : t.Climbs path near n) : (t.lookup near).isSome = true := by
  induction h with
  | here hfound => exact hfound
  | up _ _ ih => exact ih

theorem preserves {P : String → Prop} (hparent : ∀ path, P path → P (Path.parent path))
    (h : t.Climbs path near n) (hp : P path) : P near := by
  induction h with
  | here => exact hp
  | up _ _ ih => exact ih (hparent _ hp)

theorem covers (h : t.Climbs path near n) : Covers near path := by
  induction h with
  | here => exact List.prefix_refl _
  | @up path near _ _ _ ih =>
    have hparent : Covers (Path.parent path) path := by
      rw [Covers, Path.segments_parent]
      exact List.dropLast_prefix _
    exact List.IsPrefix.trans ih hparent

theorem covers_of_found (h : t.Climbs path near n) (hcovers : Covers other path)
    (hfound : (t.lookup other).isSome = true) : Covers other near := by
  induction h with
  | here => exact hcovers
  | @up path _ _ hmissing _ ih =>
    refine ih (Path.covers_parent hcovers fun hback => ?_)
    have hsame : Path.segments path = Path.segments other :=
      hback.eq_of_length_le hcovers.length_le
    rw [lookup, ← hsame, ← lookup, hmissing] at hfound
    cases hfound

/-- On a tree that has lost entries the climb goes on from where it ended before. -/
theorem resume (hloses : ∀ place, (t'.lookup place).isSome = true → (t.lookup place).isSome = true)
    (h : t.Climbs path near n) (h' : t'.Climbs path other m) :
    ∃ k, t'.Climbs near other k ∧ m = n + k := by
  induction h generalizing m with
  | here => exact ⟨m, h', (Nat.zero_add m).symm⟩
  | @up path _ n hmissing _ ih =>
    cases h' with
    | here hfound =>
      have hbefore := hloses _ hfound
      simp [hmissing] at hbefore
    | up _ rest =>
      obtain ⟨k, hk, rfl⟩ := ih rest
      exact ⟨k, hk, Nat.add_right_comm n k 1⟩

end Climbs

theorem climbs_climb {fuel : Nat} (h : (Path.segments path).length ≤ fuel) :
    ∃ n ≤ (Path.segments path).length, t.Climbs path (t.climb fuel path) n := by
  induction fuel generalizing path with
  | zero =>
    have hs : Path.segments path = [] := List.length_eq_zero_iff.1 (Nat.le_zero.1 h)
    have hfound : (t.lookup path).isSome = true := by
      rw [lookup, hs]
      rfl
    exact ⟨0, Nat.zero_le _, .here hfound⟩
  | succ fuel ih =>
    rw [climb]
    split
    · next hfound => exact ⟨0, Nat.zero_le _, .here hfound⟩
    · next hmissing =>
      have hpos := List.length_pos_iff.2 (segments_ne_nil_of_missing hmissing)
      have hlength : (Path.segments (Path.parent path)).length + 1 =
          (Path.segments path).length := by
        rw [Path.segments_parent, List.length_dropLast]
        omega
      have hfits : (Path.segments (Path.parent path)).length ≤ fuel := by omega
      obtain ⟨n, hn, hclimb⟩ := ih hfits
      exact ⟨n + 1, by omega, .up (Option.not_isSome_iff_eq_none.1 hmissing) hclimb⟩

theorem climbs_surviving (t : FileTree) (path : String) :
    ∃ n ≤ (Path.segments path).length, t.Climbs path (t.surviving path) n :=
  climbs_climb (Nat.le_refl _)

theorem Climbs.surviving_eq (h : t.Climbs path near n) : t.surviving path = near := by
  obtain ⟨_, -, hclimb⟩ := t.climbs_surviving path
  exact (h.unique hclimb).1

theorem surviving_of_isSome (h : (t.lookup path).isSome = true) : t.surviving path = path :=
  (Climbs.here h).surviving_eq

theorem surviving_covers (t : FileTree) (path : String) :
    Covers (t.surviving path) path ∧ (t.lookup (t.surviving path)).isSome = true := by
  obtain ⟨_, -, hclimb⟩ := t.climbs_surviving path
  exact ⟨hclimb.covers, hclimb.found⟩

theorem covers_surviving (hcovers : Covers other path) (hfound : (t.lookup other).isSome = true) :
    Covers other (t.surviving path) := by
  obtain ⟨_, -, hclimb⟩ := t.climbs_surviving path
  exact hclimb.covers_of_found hcovers hfound

theorem canonical_surviving (h : Path.Canonical path) : Path.Canonical (t.surviving path) := by
  obtain ⟨_, -, hclimb⟩ := t.climbs_surviving path
  exact hclimb.preserves (fun _ => Path.Canonical.parent) h

theorem surviving_surviving
    (hloses : ∀ place, (t'.lookup place).isSome = true → (t.lookup place).isSome = true)
    (path : String) : t'.surviving (t.surviving path) = t'.surviving path := by
  obtain ⟨_, -, hbefore⟩ := t.climbs_surviving path
  obtain ⟨_, -, hafter⟩ := t'.climbs_surviving path
  obtain ⟨_, hclimb, -⟩ := hbefore.resume hloses hafter
  exact hclimb.surviving_eq

/-- `near` is the longest path properly above `path` where something is found, written with single
slashes. -/
structure ClosestAbove (t : FileTree) (path near : String) : Prop where
  above : Covers near path
  proper : ¬ Covers path near
  found : (t.lookup near).isSome = true
  longest : ∀ other, Covers other path → ¬ Covers path other → (t.lookup other).isSome = true →
    Covers other near
  slashed : Path.ofSegments (Path.segments near) = near

theorem ClosestAbove.unique (h : t.ClosestAbove path near) (h' : t.ClosestAbove path other) :
    near = other := by
  have hover : Covers near other := h'.longest near h.above h.proper h.found
  have hunder : Covers other near := h.longest other h'.above h'.proper h'.found
  have hsame : Path.segments near = Path.segments other :=
    hover.eq_of_length_le hunder.length_le
  rw [← h.slashed, hsame, h'.slashed]

theorem Climbs.closestAbove (h : t.Climbs path near n) (hmissing : t.lookup path = none) :
    t.ClosestAbove path near := by
  have hs : Path.segments path ≠ [] :=
    segments_ne_nil_of_missing (Option.not_isSome_iff_eq_none.2 hmissing)
  cases h with
  | here hfound => simp [hmissing] at hfound
  | up _ rest =>
    have hslash (path : String) : Path.ofSegments (Path.segments (Path.parent path)) =
        Path.parent path := by
      rw [Path.segments_parent, Path.parent]
    refine ⟨(Climbs.up hmissing rest).covers, fun hback => ?_, rest.found, ?_, ?_⟩
    · exact Path.not_covers_parent hs (List.IsPrefix.trans hback rest.covers)
    · exact fun other hcovers _ => (Climbs.up hmissing rest).covers_of_found hcovers
    · exact rest.preserves (P := fun path => Path.ofSegments (Path.segments path) = path)
        (fun path _ => hslash path) (hslash path)

/-- The climb ends within as many steps as the path has segments and in one way only: at the path
itself where something is found there, and else at the closest path above. It may be made in
stages while the tree loses entries. -/
theorem surviving_closest (t : FileTree) (path : String) :
    (∃ n ≤ (Path.segments path).length, ∀ near m,
      t.Climbs path near m ↔ near = t.surviving path ∧ m = n) ∧
    ((t.lookup path).isSome = true → t.surviving path = path) ∧
    (t.lookup path = none → ∀ near, t.surviving path = near ↔ t.ClosestAbove path near) ∧
    ∀ t' : FileTree,
      (∀ place, (t'.lookup place).isSome = true → (t.lookup place).isSome = true) →
      t'.surviving (t.surviving path) = t'.surviving path := by
  obtain ⟨n, hn, hclimb⟩ := t.climbs_surviving path
  refine ⟨⟨n, hn, fun near m => ?_⟩, surviving_of_isSome, fun hmissing near => ?_, ?_⟩
  · constructor
    · exact hclimb.unique
    · rintro ⟨rfl, rfl⟩
      exact hclimb
  · have hclosest := hclimb.closestAbove hmissing
    constructor
    · rintro rfl
      exact hclosest
    · exact hclosest.unique
  · exact fun t' hloses => surviving_surviving hloses path

/-- The dots are names to the climb, which ends at the home directory, and at the root when all else
is gone; a path that is found stays as it is written. -/
theorem surviving_closest_unnormalized :
    (base.lookup "//home//user/a/../b/" = none ∧
      base.ClosestAbove "//home//user/a/../b/" "/home/user") ∧
    (base.surviving "//home//user/" = "//home//user/") ∧
    (emptyDir "/").surviving (base.surviving "//home//user/a/../b/") = "/" := by
  have hmissing : base.lookup "//home//user/a/../b/" = none := by decide +kernel
  have hfound : (base.lookup "//home//user/").isSome = true := by decide +kernel
  have hloses (place : String) (hplace : ((emptyDir "/").lookup place).isSome = true) :
      (base.lookup place).isSome = true := by
    cases hs : Path.segments place with
    | nil =>
      rw [lookup, hs]
      rfl
    | cons => simp [lookup, hs, emptyDir, Node.get?, Node.child?, Node.children] at hplace
  obtain ⟨-, -, hclosest, hstages⟩ := surviving_closest base "//home//user/a/../b/"
  refine ⟨⟨hmissing, (hclosest hmissing "/home/user").1 (by decide +kernel)⟩,
    (surviving_closest base "//home//user/").2.1 hfound, ?_⟩
  rw [hstages (emptyDir "/") hloses]
  decide +kernel

end PuzzleShell.FileTree
