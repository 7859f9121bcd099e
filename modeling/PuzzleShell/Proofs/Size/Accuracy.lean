import Mathlib.Tactic.Ring
import PuzzleShell.Proofs.Size.Quantity
import PuzzleShell.Proofs.Size.Rounding

/-!
# What is shown of a size

Up to 2 ^ 53 a size is shown in full or in tenths of a unit, to within half a tenth, and a larger
size is never shown as a smaller amount. The unit is chosen for the size and not for what is shown
of it: a size just below a unit is shown as 1024.0 of the unit before.
-/

namespace PuzzleShell.Size

namespace Scale

theorem le_bytes (scale : Scale) : 1024 ≤ scale.bytes := by cases scale <;> decide

theorem bytes_pos (scale : Scale) : 0 < scale.bytes := Nat.lt_of_lt_of_le (by decide) scale.le_bytes

variable {m n : Nat}

theorem of_cases (n : Nat) : n < 1024 ^ 2 ∧ Scale.of n = kilo ∨
    1024 ^ 2 ≤ n ∧ n < 1024 ^ 3 ∧ Scale.of n = mega ∨ 1024 ^ 3 ≤ n ∧ Scale.of n = giga := by
  unfold Scale.of
  by_cases hmega : n < mega.bytes
  · exact .inl ⟨hmega, if_pos hmega⟩
  · by_cases hgiga : n < giga.bytes
    · exact .inr (.inl ⟨Nat.le_of_not_lt hmega, hgiga, by rw [if_neg hmega, if_pos hgiga]⟩)
    · exact .inr (.inr ⟨Nat.le_of_not_lt hgiga, by rw [if_neg hmega, if_neg hgiga]⟩)

theorem bytes_of_le (h : 1024 ≤ n) : (Scale.of n).bytes ≤ n := by
  rcases of_cases n with ⟨_, hs⟩ | ⟨_, _, hs⟩ | ⟨_, hs⟩ <;> simp only [hs, bytes] <;> omega

theorem lt_of_ne_giga (h : Scale.of n ≠ giga) : n < 1024 * (Scale.of n).bytes := by
  rcases of_cases n with ⟨_, hs⟩ | ⟨_, _, hs⟩ | ⟨_, hs⟩
  · simp only [hs, bytes]
    omega
  · simp only [hs, bytes]
    omega
  · exact absurd hs h

theorem of_eq_or_le (h : m ≤ n) : Scale.of m = Scale.of n ∨
    Scale.of m ≠ giga ∧ 1024 * (Scale.of m).bytes ≤ (Scale.of n).bytes := by
  rcases of_cases m with ⟨_, hm⟩ | ⟨_, _, hm⟩ | ⟨_, hm⟩ <;>
    rcases of_cases n with ⟨_, hn⟩ | ⟨_, _, hn⟩ | ⟨_, hn⟩ <;>
      simp [hm, hn, bytes] <;> omega

end Scale

def roundedTenths (n : Nat) : Nat := divRoundEven (n * 10) (Scale.of n).bytes

section Tenths

variable {m n : Nat}

theorem nearestEven_roundedTenths (n : Nat) :
    NearestEven (n * 10) (Scale.of n).bytes (roundedTenths n) :=
  nearestEven_divRoundEven (Scale.of n).bytes_pos (n * 10)

theorem ten_le_roundedTenths (h : 1024 ≤ n) : 10 ≤ roundedTenths n := by
  refine le_divRoundEven (Scale.of n).bytes_pos ?_
  have hbytes := Scale.bytes_of_le h
  omega

theorem roundedTenths_le (h : Scale.of n ≠ .giga) : roundedTenths n ≤ 10240 := by
  refine divRoundEven_le_of_le (Scale.of n).bytes_pos ?_
  have hbytes := Scale.lt_of_ne_giga h
  omega

theorem roundedTenths_lt (hgiga : Scale.of n ≠ .giga)
    (h : 20 * n + (Scale.of n).bytes < 20 * (1024 * (Scale.of n).bytes)) :
    roundedTenths n < 10240 := by
  have hle := roundedTenths_le hgiga
  have hge := (nearestEven_roundedTenths n).ge
  by_contra hnot
  have hcarried : roundedTenths n = 10240 := by omega
  rw [hcarried] at hge
  omega

/-- Of two sizes in different units neither is shown on the wrong side of the larger unit. -/
theorem roundedTenths_mul_bytes_mono (hm : 1024 ≤ m) (hmn : m ≤ n) :
    roundedTenths m * (Scale.of m).bytes ≤ roundedTenths n * (Scale.of n).bytes := by
  rcases Scale.of_eq_or_le hmn with hsame | ⟨hgiga, hlarger⟩
  · have hround : roundedTenths m ≤ roundedTenths n := by
      unfold roundedTenths
      rw [hsame]
      exact divRoundEven_mono (Scale.of n).bytes_pos (Nat.mul_le_mul_right 10 hmn)
    rw [hsame]
    exact Nat.mul_le_mul_right _ hround
  · calc roundedTenths m * (Scale.of m).bytes
        ≤ 10240 * (Scale.of m).bytes := Nat.mul_le_mul_right _ (roundedTenths_le hgiga)
      _ ≤ 10 * (Scale.of n).bytes := by omega
      _ ≤ roundedTenths n * (Scale.of n).bytes :=
          Nat.mul_le_mul_right _ (ten_le_roundedTenths (Nat.le_trans hm hmn))

end Tenths

/-- The text is the size in tenths of a unit, rounded to the nearest, and to an even digit if two
are equally near. -/
def InTenths (text : String) (size : ℤ) (letter : String) (unit : ℕ) : Prop :=
  ∃ n : ℕ, text = toString (n / 10) ++ "." ++ toString (n % 10) ++ letter ∧
    |(n / 10 : ℚ) * unit - size| ≤ unit / 20 ∧
    (|(n / 10 : ℚ) * unit - size| = unit / 20 → n % 2 = 0)

/-- The text is the size in full below 1024, and above in tenths of the largest unit that does not
exceed it. -/
structure Shows (text : String) (size : ℤ) : Prop where
  bytes : size < 1024 → text = toString size ++ "B"
  kilo : 1024 ≤ size → size < 1024 ^ 2 → InTenths text size "K" 1024
  mega : 1024 ^ 2 ≤ size → size < 1024 ^ 3 → InTenths text size "M" (1024 ^ 2)
  giga : 1024 ^ 3 ≤ size → InTenths text size "G" (1024 ^ 3)

theorem inTenths_of_nearestEven {n unit r : Nat} {letter : String}
    (h : NearestEven (n * 10) unit r) :
    InTenths (toString (r / 10) ++ "." ++ toString (r % 10) ++ letter) n letter unit := by
  have hle : (2 * (n * 10) : ℚ) ≤ 2 * (r * unit) + unit := by exact_mod_cast h.le
  have hge : (2 * (r * unit) : ℚ) ≤ 2 * (n * 10) + unit := by exact_mod_cast h.ge
  refine ⟨r, rfl, ?_, fun htie => h.even ?_⟩
  · rw [abs_le]
    push_cast
    constructor <;> linarith
  · rcases abs_cases ((r / 10 : ℚ) * unit - (n : ℤ)) with ⟨habs, -⟩ | ⟨habs, -⟩
    · right
      rw [habs] at htie
      push_cast at htie
      have hcast : (2 * (r * unit) : ℚ) = 2 * (n * 10) + unit := by linarith
      exact_mod_cast hcast
    · left
      rw [habs] at htie
      push_cast at htie
      have hcast : (2 * (n * 10) : ℚ) = 2 * (r * unit) + unit := by linarith
      exact_mod_cast hcast

def Shown.ofNat (n : Nat) : Shown :=
  if n < 1024 then .bytes n else .tenths (roundedTenths n) (.of n)

theorem shows_tenths {n : Nat} (h : 1024 ≤ n) :
    Shows (Shown.text (.tenths (roundedTenths n) (.of n))) n := by
  have hround : InTenths (Shown.text (.tenths (roundedTenths n) (.of n))) n (Scale.of n).letter
      (Scale.of n).bytes := inTenths_of_nearestEven (nearestEven_roundedTenths n)
  rcases Scale.of_cases n with ⟨_, hs⟩ | ⟨_, _, hs⟩ | ⟨_, hs⟩ <;> rw [hs] at hround ⊢
  · exact ⟨by omega, fun _ _ => hround, by omega, by omega⟩
  · exact ⟨by omega, by omega, fun _ _ => hround, by omega⟩
  · exact ⟨by omega, by omega, by omega, fun _ => hround⟩

theorem shows_ofNat (n : Nat) : Shows (Shown.ofNat n).text n := by
  unfold Shown.ofNat
  split
  · exact ⟨fun _ => rfl, by omega, by omega, by omega⟩
  · next hbytes => exact shows_tenths (Nat.le_of_not_lt hbytes)

theorem shown_eq_ok {n : Nat} (h : toDouble n < doubleLimit) (hle : 1024 ≤ n) :
    shown n = .ok (.tenths (roundedTenths (toDouble n)) (.of (toDouble n))) := by
  rw [shown, if_neg (by omega), Int.toNat_natCast, if_pos h, roundedTenths]

theorem format_of_le {n : Nat} (h : n ≤ 2 ^ 53) : format n = .ok (Shown.ofNat n).text := by
  unfold Shown.ofNat
  split
  · rw [format, shown, if_pos (by omega)]
    rfl
  · next hbytes =>
    have hdouble : toDouble n = n := toDouble_of_le h
    have hlimit : toDouble n < doubleLimit := by
      rw [hdouble]
      exact lt_doubleLimit h
    rw [format, shown_eq_ok hlimit (Nat.le_of_not_lt hbytes), hdouble]
    rfl

def tenfold (n : Nat) : Nat := if n < 1024 then 10 * n else roundedTenths n * (Scale.of n).bytes

theorem tenfold_mono {m n : Nat} (h : m ≤ n) : tenfold m ≤ tenfold n := by
  unfold tenfold
  by_cases hn : n < 1024
  · rw [if_pos hn, if_pos (Nat.lt_of_le_of_lt h hn)]
    exact Nat.mul_le_mul_left 10 h
  · rw [if_neg hn]
    have hle := Nat.le_of_not_lt hn
    by_cases hm : m < 1024
    · rw [if_pos hm]
      calc 10 * m ≤ 10 * 1024 := Nat.mul_le_mul_left 10 (Nat.le_of_lt hm)
        _ ≤ roundedTenths n * (Scale.of n).bytes :=
            Nat.mul_le_mul (ten_le_roundedTenths hle) (Scale.le_bytes _)
    · rw [if_neg hm]
      exact roundedTenths_mul_bytes_mono (Nat.le_of_not_lt hm) h

theorem ofText?_ofNat (n : Nat) : ∃ q, Quantity.ofText? (Shown.ofNat n).text = some q ∧
    q.amount = tenfold n / 10 := by
  unfold Shown.ofNat tenfold
  split
  · refine ⟨_, Quantity.ofText?_bytes n, ?_⟩
    rw [Quantity.amount]
    push_cast
    ring
  · refine ⟨_, Quantity.ofText?_tenths _ _, ?_⟩
    rw [Quantity.amount]
    push_cast
    ring

/-- Sizes are shown to within half a tenth of their unit, and in their order. -/
theorem format_accurate {s t : ℤ} (hs : 0 ≤ s) (hst : s ≤ t) (ht : t ≤ 2 ^ 53) :
    ∃ x y : String, format s = .ok x ∧ format t = .ok y ∧ Shows x s ∧ Shows y t ∧
      ∃ p q, Quantity.ofText? x = some p ∧ Quantity.ofText? y = some q ∧ p.amount ≤ q.amount := by
  lift t to ℕ using hs.trans hst
  lift s to ℕ using hs
  norm_cast at hst ht
  obtain ⟨p, hp, hps⟩ := ofText?_ofNat s
  obtain ⟨q, hq, hqt⟩ := ofText?_ofNat t
  refine ⟨_, _, format_of_le (hst.trans ht), format_of_le ht, shows_ofNat s, shows_ofNat t,
    p, q, hp, hq, ?_⟩
  have hmono : (tenfold s : ℚ) ≤ tenfold t := by exact_mod_cast tenfold_mono hst
  rw [hps, hqt]
  exact div_le_div_of_nonneg_right hmono (by norm_num)

/-- A tie, and the largest size in kilobytes. -/
theorem format_accurate_tie : ∃ x y : String, x = "1.2K" ∧ y = "1024.0K" ∧
    Shows x 1280 ∧ Shows y 1048575 ∧ ∃ p q, Quantity.ofText? x = some p ∧
      Quantity.ofText? y = some q ∧ p.amount ≤ q.amount := by
  obtain ⟨x, y, hx, hy, hrest⟩ :=
    format_accurate (s := 1280) (t := 1048575) (by decide) (by decide) (by decide)
  have hxshown : format 1280 = .ok "1.2K" := by decide +kernel
  have hyshown : format 1048575 = .ok "1024.0K" := by decide +kernel
  rw [hx] at hxshown
  rw [hy] at hyshown
  exact ⟨x, y, Except.ok.inj hxshown, Except.ok.inj hyshown, hrest⟩

theorem text_of_format {n : Nat} {text : String} (hle : 1024 ≤ n) (h : format n = .ok text) :
    text = Shown.text (.tenths (roundedTenths (toDouble n)) (.of (toDouble n))) := by
  have hlimit : toDouble n < doubleLimit := by
    by_contra hbeyond
    rw [format, shown, if_neg (by omega), Int.toNat_natCast, if_neg hbeyond] at h
    cases h
  rw [format, shown_eq_ok hlimit hle] at h
  exact (Except.ok.inj h).symm

/-- Below a gigabyte there is room between the sizes and the doubles. -/
theorem toDouble_of_ne_giga {n : Nat} (h : Scale.of (toDouble n) ≠ .giga) : toDouble n = n := by
  refine toDouble_of_le (Nat.le_of_not_lt fun hlarge => ?_)
  have hdouble := le_toDouble (Nat.le_of_lt hlarge)
  rcases Scale.of_cases (toDouble n) with ⟨hlt, _⟩ | ⟨_, hlt, _⟩ | ⟨_, hs⟩
  · omega
  · omega
  · exact h hs

/-- The number shown is at least one and at most that of the next unit. It reaches that one only if
the size falls short of the unit by half a tenth or less. -/
theorem format_fits {size : ℤ} {text : String} (hsize : 1024 ≤ size)
    (hformat : format size = .ok text) : ∃ q, Quantity.ofText? text = some q ∧
      (q.unit = 1024 ∨ q.unit = 1024 ^ 2 → 1 ≤ q.number ∧ q.number ≤ 1024 ∧
        ((size : ℚ) + q.unit / 20 < 1024 * q.unit → q.number < 1024)) := by
  lift size to ℕ using by omega
  have hle : 1024 ≤ size := by omega
  rw [text_of_format hle hformat]
  refine ⟨_, Quantity.ofText?_tenths _ _, fun hunit => ?_⟩
  dsimp only at hunit ⊢
  have hscale : Scale.of (toDouble size) ≠ .giga := by
    intro hscale
    rw [hscale] at hunit
    exact absurd hunit (by decide)
  have hgiga : Scale.of size ≠ .giga := by rwa [toDouble_of_ne_giga hscale] at hscale
  rw [toDouble_of_ne_giga hscale]
  have hlow : (10 : ℚ) ≤ roundedTenths size := by exact_mod_cast ten_le_roundedTenths hle
  have hhigh : (roundedTenths size : ℚ) ≤ 10240 := by exact_mod_cast roundedTenths_le hgiga
  refine ⟨by linarith, by linarith, fun hclear => ?_⟩
  have hclear' : (20 * size + (Scale.of size).bytes : ℚ) <
      20 * (1024 * (Scale.of size).bytes) := by
    push_cast at hclear
    linarith
  have hlt : (roundedTenths size : ℚ) < 10240 := by
    exact_mod_cast roundedTenths_lt hgiga (by exact_mod_cast hclear')
  linarith

/-- The last size that is not shown as 1024.0 kilobytes. -/
theorem format_fits_kilo : ∃ q, Quantity.ofText? "1023.9K" = some q ∧ q.number < 1024 := by
  have hshown : format 1048524 = .ok "1023.9K" := by decide +kernel
  have hread : Quantity.ofText? "1023.9K" = some ⟨10239 / 10, 1024⟩ := by decide +kernel
  obtain ⟨q, hq, hfits⟩ := format_fits (by decide) hshown
  have hquantity : q = ⟨10239 / 10, 1024⟩ := Option.some.inj (hq.symm.trans hread)
  refine ⟨q, hq, (hfits (.inl (by rw [hquantity]))).2.2 ?_⟩
  rw [hquantity]
  norm_num

/-- The next size is, and so is the last one before a gigabyte in its own unit. -/
theorem format_fits_carried :
    format 1048525 = .ok "1024.0K" ∧ Quantity.ofText? "1024.0K" = some ⟨1024, 1024⟩ ∧
      format 1073741823 = .ok "1024.0M" ∧ Quantity.ofText? "1024.0M" = some ⟨1024, 1024 ^ 2⟩ := by
  decide +kernel

end PuzzleShell.Size
