import Mathlib.Data.Rat.Floor
import Mathlib.Tactic.ByContra
import Mathlib.Tactic.Linarith
import PuzzleShell.Size

/-!
# What a shown size says

A shown size is a number in decimal digits and the letter of a unit. `Quantity.ofText?` reads such
a text, whoever wrote it, and reads back the number and the unit that `Shown.text` writes.
-/

namespace PuzzleShell.Size

structure Quantity where
  number : ℚ
  unit : Nat
deriving DecidableEq

namespace Quantity

def amount (q : Quantity) : ℚ := q.number * q.unit

def units : List (Char × Nat) := [('B', 1), ('K', 1024), ('M', 1024 ^ 2), ('G', 1024 ^ 3)]

def digits? (cs : List Char) : Option Nat :=
  if cs ≠ [] ∧ cs.all Char.isDigit then some (Nat.ofDigitChars 10 cs 0) else none

/-- The number that decimal digits write, with a point among them or without. -/
def number? (cs : List Char) : Option ℚ :=
  match cs.splitOn '.' with
  | [whole] => do
    let n ← digits? whole
    return n
  | [whole, part] => do
    let n ← digits? whole
    let p ← digits? part
    return n + p / 10 ^ part.length
  | _ => none

/-- What a text says whose last character is the letter of a unit. -/
def ofText? (text : String) : Option Quantity := do
  let letter ← text.toList.getLast?
  let unit ← units.lookup letter
  let number ← number? text.toList.dropLast
  return ⟨number, unit⟩

theorem digits?_toDigits (n : Nat) : digits? (Nat.toDigits 10 n) = some n := by
  have hdigits : (Nat.toDigits 10 n).all Char.isDigit = true := by
    rw [List.all_eq_true]
    exact fun c hc => Nat.isDigit_of_mem_toDigits (by decide) (by decide) hc
  rw [digits?, if_pos ⟨Nat.toDigits_ne_nil, hdigits⟩, Nat.ofDigitChars_ten_toDigits]

theorem not_point_of_mem_toDigits (n : Nat) : ∀ c ∈ Nat.toDigits 10 n, (c == '.') = false := by
  intro c hc
  have hdigit := Nat.isDigit_of_mem_toDigits (by decide) (by decide) hc
  by_contra hpoint
  rw [Bool.not_eq_false, beq_iff_eq] at hpoint
  subst hpoint
  exact absurd hdigit (by decide)

theorem number?_whole (n : Nat) : number? (Nat.toDigits 10 n) = some (n : ℚ) := by
  rw [number?, List.splitOn, List.splitOnP_eq_singleton (not_point_of_mem_toDigits n)]
  simp [digits?_toDigits]

theorem number?_tenths (n : Nat) :
    number? (Nat.toDigits 10 (n / 10) ++ '.' :: Nat.toDigits 10 (n % 10)) = some (n / 10 : ℚ) := by
  have hlength : (Nat.toDigits 10 (n % 10)).length = 1 := by
    rw [Nat.toDigits_of_lt_base (Nat.mod_lt n (by decide)), List.length_singleton]
  have hsum : ((n / 10 : ℕ) : ℚ) + ((n % 10 : ℕ) : ℚ) / 10 = n / 10 := by
    have hdivmod : ((10 * (n / 10) + n % 10 : ℕ) : ℚ) = n := by rw [Nat.div_add_mod]
    push_cast at hdivmod
    linarith
  rw [number?, List.splitOn, List.splitOnP_append_cons _ _ (by decide),
    List.splitOnP_eq_singleton (not_point_of_mem_toDigits _),
    List.splitOnP_eq_singleton (not_point_of_mem_toDigits _)]
  simp [digits?_toDigits, hlength, hsum]

theorem ofText?_append {text : String} {letter : Char} {unit : Nat} {number : ℚ}
    (hunit : units.lookup letter = some unit) (hnumber : number? text.toList = some number) :
    ofText? (text ++ String.singleton letter) = some ⟨number, unit⟩ := by
  simp [ofText?, hunit, hnumber]

theorem ofText?_bytes (n : Nat) : ofText? (Shown.text (.bytes n)) = some ⟨n, 1⟩ := by
  have htext : Shown.text (.bytes n) = toString n ++ String.singleton 'B' := rfl
  rw [htext]
  refine ofText?_append rfl ?_
  rw [Nat.toString_eq_ofList_toDigits, String.toList_ofList, number?_whole]

theorem ofText?_tenths (n : Nat) (scale : Scale) :
    ofText? (Shown.text (.tenths n scale)) = some ⟨n / 10, scale.bytes⟩ := by
  have hscale : ∃ letter, scale.letter = String.singleton letter ∧
      units.lookup letter = some scale.bytes := by
    cases scale with
    | kilo => exact ⟨'K', rfl, rfl⟩
    | mega => exact ⟨'M', rfl, rfl⟩
    | giga => exact ⟨'G', rfl, rfl⟩
  obtain ⟨letter, hletter, hunit⟩ := hscale
  rw [Shown.text, hletter]
  refine ofText?_append hunit ?_
  simp only [String.toList_append, Nat.toString_eq_ofList_toDigits, String.toList_ofList,
    List.append_assoc]
  exact number?_tenths n

end Quantity

end PuzzleShell.Size
