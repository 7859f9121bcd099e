import Mathlib.Data.Rat.Floor
import PuzzleShell.Proofs.Size.Rounding
import PuzzleShell.Tree.Node

/-!
# Blocks

The number of blocks is the size divided by that of a block, rounded up, and up to 2 ^ 53 this is the
number that is reported. Each part of a sum is rounded on its own, by less than a block; so the
rounded sum falls short of the sum of the rounded parts by less than a block for each part.
-/

namespace PuzzleShell.Size

theorem blocks_eq_ceil (n : Nat) : blocks n = ⌈(n : ℚ) / 1024⌉₊ := by
  have hceil : ((⌈(n : ℚ) / 1024⌉₊ : Nat) : ℤ) = -(-(n : ℤ) / 1024) := by
    rw [Int.natCast_ceil_eq_ceil (by positivity)]
    exact_mod_cast Rat.ceil_natCast_div_natCast n 1024
  rw [blocks]
  omega

theorem reportedBlocks_of_le {n : Nat} (h : n ≤ 2 ^ 53) : reportedBlocks n = .ok (blocks n) := by
  have hlimit : n < doubleLimit * 1024 :=
    (lt_doubleLimit h).trans_le (Nat.le_mul_of_pos_right _ (by decide))
  rw [reportedBlocks, toDouble_of_le h]
  exact if_pos hlimit

theorem sum_le_mul_sum_blocks (ns : List Nat) : ns.sum ≤ 1024 * (ns.map blocks).sum := by
  induction ns with
  | nil => exact Nat.le_refl _
  | cons n ns ih =>
    have hn : n ≤ 1024 * blocks n := by
      rw [blocks]
      omega
    rw [List.map_cons, List.sum_cons, List.sum_cons, Nat.mul_add]
    exact Nat.add_le_add hn ih

theorem mul_sum_blocks_le (ns : List Nat) :
    1024 * (ns.map blocks).sum ≤ ns.sum + 1023 * ns.length := by
  induction ns with
  | nil => exact Nat.le_refl _
  | cons n ns ih =>
    have hn : 1024 * blocks n ≤ n + 1023 := by
      rw [blocks]
      omega
    rw [List.map_cons, List.sum_cons, List.sum_cons, List.length_cons]
    omega

theorem blocks_dirSize_add (n : Nat) : blocks (Node.dirSize + n) = 4 + blocks n := by
  rw [blocks, blocks, Node.dirSize]
  omega

theorem blocks_sum_le (ns : List Nat) : blocks ns.sum ≤ (ns.map blocks).sum := by
  have hsum := sum_le_mul_sum_blocks ns
  rw [blocks]
  omega

theorem sum_blocks_le {ns : List Nat} (hne : ns ≠ []) :
    (ns.map blocks).sum ≤ blocks ns.sum + (ns.length - 1) := by
  have hlength := List.length_pos_iff.2 hne
  have hsum := mul_sum_blocks_le ns
  rw [blocks]
  omega

end PuzzleShell.Size
