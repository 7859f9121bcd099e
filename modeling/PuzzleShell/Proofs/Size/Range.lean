import PuzzleShell.Shell.Reading

/-!
# The range of sizes that can be shown

A size is rounded to a double before it is shown. Every size below `rangeBound` rounds to a number
within the range of doubles, so it can be shown.
-/

namespace PuzzleShell

theorem divRoundEven_le (n d : Nat) : divRoundEven n d ≤ n / d + 1 := by
  unfold divRoundEven
  dsimp only
  split <;> omega

theorem divRoundEven_of_lt {n d : Nat} (h : 2 * (n % d) < d) : divRoundEven n d = n / d := by
  unfold divRoundEven
  rw [if_pos (.inl h)]

namespace Size

/-- Halfway between the largest double and the first power of two beyond the doubles. -/
def rangeBound : Nat := 1 <<< 1024 - 1 <<< 970

/-- A number that does not reach the last half step below a power of two is not rounded up to it. -/
theorem divRoundEven_le_of_lt {n k : Nat} (h : n < 1 <<< 54 * k - k) :
    divRoundEven n (2 * k) < 1 <<< 53 := by
  have hk : 0 < 2 * k := by omega
  have hdivmod : 2 * k * (n / (2 * k)) + n % (2 * k) = n := Nat.div_add_mod n (2 * k)
  have hq : n / (2 * k) < 2 ^ 53 := by
    rw [Nat.div_lt_iff_lt_mul hk]
    omega
  by_cases htop : n / (2 * k) = 2 ^ 53 - 1
  · have hhalf : 2 * (n % (2 * k)) < 2 * k := by
      rw [htop] at hdivmod
      omega
    rw [divRoundEven_of_lt hhalf]
    omega
  · have hround := divRoundEven_le n (2 * k)
    omega

theorem toDouble_lt {n e : Nat} (h : n < 1 <<< (54 + e) - 1 <<< e) :
    toDouble n < 1 <<< (54 + e) := by
  have hpos : 0 < 2 ^ e := Nat.two_pow_pos e
  rw [Nat.one_shiftLeft, Nat.one_shiftLeft, Nat.pow_add] at h
  rw [toDouble, Nat.one_shiftLeft, Nat.one_shiftLeft, Nat.shiftLeft_eq, Nat.pow_add]
  generalize hd : n.log2 + 1 - 53 = d
  -- With at most `e` bits dropped there is room to round up; with one more there is just enough.
  by_cases hsmall : d ≤ e
  · have hn : n < 2 ^ d * 2 ^ 53 := by
      rw [← Nat.pow_add]
      exact Nat.lt_of_lt_of_le Nat.lt_log2_self (Nat.pow_le_pow_right (by decide) (by omega))
    have hq : n / 2 ^ d < 2 ^ 53 := Nat.div_lt_of_lt_mul hn
    have hround := divRoundEven_le n (2 ^ d)
    calc divRoundEven n (2 ^ d) * 2 ^ d
        ≤ 2 ^ 53 * 2 ^ e := Nat.mul_le_mul (by omega) (Nat.pow_le_pow_right (by decide) hsmall)
      _ < 2 ^ 54 * 2 ^ e := Nat.mul_lt_mul_of_pos_right (by decide) hpos
  · have hlast : d = e + 1 := by
      have hn : n ≠ 0 := by
        rintro rfl
        rw [Nat.log2_zero] at hd
        omega
      have hlog : n.log2 < 54 + e := by
        rw [Nat.log2_lt hn, Nat.pow_add]
        omega
      omega
    have hround := divRoundEven_le_of_lt h
    rw [hlast, Nat.pow_succ']
    calc divRoundEven n (2 * 2 ^ e) * (2 * 2 ^ e)
        ≤ (2 ^ 53 - 1) * (2 * 2 ^ e) := Nat.mul_le_mul_right _ (Nat.le_sub_one_of_lt hround)
      _ < 2 ^ 54 * 2 ^ e := by omega

theorem exists_format {n : Nat} (h : n < rangeBound) : ∃ text, format n = .ok text := by
  unfold format shown
  split
  · exact ⟨_, rfl⟩
  · dsimp only
    have hdouble : toDouble n < doubleLimit := toDouble_lt (e := 970) h
    rw [Int.toNat_natCast, if_pos hdouble]
    exact ⟨_, rfl⟩

theorem exists_reportedBlocks {n : Nat} (h : n < rangeBound) :
    ∃ count, reportedBlocks n = .ok count := by
  have hdouble : toDouble n < doubleLimit := toDouble_lt (e := 970) h
  have hquotient : toDouble n < doubleLimit * 1024 :=
    Nat.lt_of_lt_of_le hdouble (Nat.le_mul_of_pos_right _ (by decide))
  exact ⟨_, if_pos hquotient⟩

end Size

theorem Shell.exists_usageText (human : Bool) {n : Nat} (h : n < Size.rangeBound) :
    ∃ text, usageText human n = .ok text := by
  cases human with
  | false =>
    obtain ⟨count, hcount⟩ := Size.exists_reportedBlocks h
    rw [usageText, if_neg Bool.false_ne_true, hcount]
    exact ⟨toString count, rfl⟩
  | true =>
    obtain ⟨text, htext⟩ := Size.exists_format h
    rw [usageText, if_pos rfl, htext]
    exact ⟨text, rfl⟩

end PuzzleShell
