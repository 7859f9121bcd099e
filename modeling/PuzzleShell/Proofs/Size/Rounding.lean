import Mathlib.Algebra.GroupWithZero.Nat
import Mathlib.Tactic.ByContra
import PuzzleShell.Size

/-!
# Rounding

A quotient is rounded to the nearest whole number, a half to the even one. All that is used of the
rounding is this: it keeps the order of quotients, and a quotient that is whole stays as it is.
Among the sizes the doubles have gaps only from 2 ^ 53 on, so a size up to there is its own double.
-/

namespace PuzzleShell

/-- `r` is the whole number nearest to `n / d`, and the even one if two are equally near. -/
structure NearestEven (n d r : Nat) : Prop where
  le : 2 * n ≤ 2 * (r * d) + d
  ge : 2 * (r * d) ≤ 2 * n + d
  even : 2 * n = 2 * (r * d) + d ∨ 2 * (r * d) = 2 * n + d → r % 2 = 0

section Nearest

variable {m n d k r s : Nat} (hd : 0 < d)
include hd

theorem nearestEven_divRoundEven (n : Nat) : NearestEven n d (divRoundEven n d) := by
  have hdivmod : n / d * d + n % d = n := Nat.div_add_mod' n d
  have hmod : n % d < d := Nat.mod_lt n hd
  unfold divRoundEven
  dsimp only
  split
  · exact ⟨by omega, by omega, by omega⟩
  · refine ⟨?_, ?_, ?_⟩ <;> rw [Nat.add_mul, Nat.one_mul] <;> omega

namespace NearestEven

theorem mul (k : Nat) : NearestEven (k * d) d k := ⟨by omega, by omega, by omega⟩

theorem mono (h : NearestEven m d r) (h' : NearestEven n d s) (hmn : m ≤ n) : r ≤ s := by
  by_contra hlt
  -- Only one half lies between neighbours, and of the two numbers one is odd.
  have hstep : (s + 1) * d ≤ r * d := Nat.mul_le_mul_right d (by omega)
  rw [Nat.add_mul, Nat.one_mul] at hstep
  have hle := h'.le
  have hge := h.ge
  have hnext : r * d = (s + 1) * d := by
    rw [Nat.add_mul, Nat.one_mul]
    omega
  have hsucc : r = s + 1 := Nat.eq_of_mul_eq_mul_right hd hnext
  have hr := h.even (.inr (by omega))
  have hs := h'.even (.inl (by omega))
  omega

end NearestEven

theorem divRoundEven_mono (h : m ≤ n) : divRoundEven m d ≤ divRoundEven n d :=
  (nearestEven_divRoundEven hd m).mono hd (nearestEven_divRoundEven hd n) h

theorem le_divRoundEven (h : k * d ≤ n) : k ≤ divRoundEven n d :=
  (NearestEven.mul hd k).mono hd (nearestEven_divRoundEven hd n) h

theorem divRoundEven_le_of_le (h : n ≤ k * d) : divRoundEven n d ≤ k :=
  (nearestEven_divRoundEven hd n).mono hd (NearestEven.mul hd k) h

theorem divRoundEven_mul (k : Nat) : divRoundEven (k * d) d = k :=
  Nat.le_antisymm (divRoundEven_le_of_le hd (Nat.le_refl _)) (le_divRoundEven hd (Nat.le_refl _))

end Nearest

namespace Size

theorem toDouble_of_le {n : Nat} (h : n ≤ 2 ^ 53) : toDouble n = n := by
  rcases Nat.lt_or_eq_of_le h with hlt | rfl
  · have hdropped : n.log2 + 1 - 53 = 0 := by
      by_cases hn : n = 0
      · subst hn
        rfl
      · have hlog := (Nat.log2_lt hn).2 hlt
        omega
    have hround : divRoundEven (n * 1) 1 = n := divRoundEven_mul Nat.one_pos n
    rw [toDouble, hdropped]
    simpa using hround
  · decide +kernel

theorem le_toDouble {n : Nat} (h : 2 ^ 53 ≤ n) : 2 ^ 53 ≤ toDouble n := by
  have hn : n ≠ 0 := by omega
  have hlog : 53 ≤ n.log2 := (Nat.le_log2 hn).2 h
  generalize hdropped : n.log2 + 1 - 53 = dropped
  have hpow : 2 ^ 52 * 2 ^ dropped = 2 ^ n.log2 := by
    rw [← Nat.pow_add]
    congr 1
    omega
  have hround : 2 ^ 52 ≤ divRoundEven n (2 ^ dropped) := by
    refine le_divRoundEven (Nat.two_pow_pos dropped) ?_
    rw [hpow]
    exact Nat.log2_self_le hn
  rw [toDouble, hdropped, Nat.one_shiftLeft, Nat.shiftLeft_eq]
  calc 2 ^ 53 ≤ 2 ^ n.log2 := Nat.pow_le_pow_right (by decide) hlog
    _ = 2 ^ 52 * 2 ^ dropped := hpow.symm
    _ ≤ divRoundEven n (2 ^ dropped) * 2 ^ dropped := Nat.mul_le_mul_right _ hround

theorem lt_doubleLimit {n : Nat} (h : n ≤ 2 ^ 53) : n < doubleLimit := by
  have hlimit : 2 ^ 53 < doubleLimit := by decide +kernel
  omega

end Size

end PuzzleShell
