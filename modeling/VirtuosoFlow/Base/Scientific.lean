import Mathlib.Algebra.Order.Ring.Abs
import Mathlib.Data.Int.Log
import Mathlib.Data.Rat.Floor
import Mathlib.Tactic.Positivity
import Mathlib.Tactic.Ring

/-!
# Rounding to significant digits

A rational number in scientific form: its first digits, as one number, and the exponent of ten of the first.
The form is exact just for the numbers that have no more digits.
-/

namespace Base

/-- The nearest natural number; of two, the even one. -/
def halfEven (q : ℚ) : ℕ :=
  if q - ⌊q⌋₊ < 1 / 2 then ⌊q⌋₊
  else if 1 / 2 < q - ⌊q⌋₊ then ⌊q⌋₊ + 1
  else if ⌊q⌋₊ % 2 = 0 then ⌊q⌋₊ else ⌊q⌋₊ + 1

/-- The `p + 1` first digits of the absolute value, and the exponent of the first. -/
def scientific (p : ℕ) (x : ℚ) : ℕ × ℤ :=
  let e := Int.log 10 |x|
  let m := halfEven (|x| / 10 ^ (e - p))
  if m = 10 ^ (p + 1) then (10 ^ p, e + 1) else (m, e)

/-- The number that a scientific form stands for. -/
def ofScientific (p : ℕ) (form : ℕ × ℤ) : ℚ := form.1 * 10 ^ (form.2 - p)

variable {p n : ℕ} {q x : ℚ}

/-- A whole number is rounded to itself. -/
@[simp] theorem halfEven_natCast (n : ℕ) : halfEven n = n := by
  simp [halfEven]

/-- Rounding does not pass a whole number from below. -/
theorem halfEven_le (h : q < n) (hn : 0 < n) : halfEven q ≤ n := by
  have hfloor : ⌊q⌋₊ < n := (Nat.floor_lt' hn.ne').mpr h
  unfold halfEven
  split_ifs <;> omega

/-- Rounding does not pass a whole number from above. -/
theorem le_halfEven (h : (n : ℚ) ≤ q) : n ≤ halfEven q := by
  have hfloor : n ≤ ⌊q⌋₊ := Nat.le_floor h
  unfold halfEven
  split_ifs <;> omega

/-- Powers of ten are positive. -/
theorem ten_zpow_pos (e : ℤ) : (0 : ℚ) < 10 ^ e := zpow_pos (by norm_num) e

/-- The absolute value, in units of its last digit. -/
theorem units_bounds (p : ℕ) (hx : x ≠ 0) :
    (10 : ℚ) ^ p ≤ |x| / 10 ^ (Int.log 10 |x| - p) ∧ |x| / 10 ^ (Int.log 10 |x| - p) < 10 ^ (p + 1) := by
  have hpos : 0 < |x| := abs_pos.mpr hx
  have hunit : (0 : ℚ) < 10 ^ (Int.log 10 |x| - p) := ten_zpow_pos _
  have hlow : ((10 : ℕ) : ℚ) ^ Int.log 10 |x| ≤ |x| := Int.zpow_log_le_self (by norm_num) hpos
  have hhigh : |x| < ((10 : ℕ) : ℚ) ^ (Int.log 10 |x| + 1) := Int.lt_zpow_succ_log_self (by norm_num) |x|
  have hfirst : (p : ℤ) + (Int.log 10 |x| - p) = Int.log 10 |x| := by omega
  have hnext : ((p + 1 : ℕ) : ℤ) + (Int.log 10 |x| - p) = Int.log 10 |x| + 1 := by omega
  rw [le_div_iff₀ hunit, div_lt_iff₀ hunit, ← zpow_natCast, ← zpow_natCast, ← zpow_add₀ (by norm_num),
    ← zpow_add₀ (by norm_num), hfirst, hnext]
  exact ⟨by exact_mod_cast hlow, by exact_mod_cast hhigh⟩

/-- A scientific form has all its digits, the first of them not zero. -/
theorem scientific_bounds (p : ℕ) (hx : x ≠ 0) :
    10 ^ p ≤ (scientific p x).1 ∧ (scientific p x).1 < 10 ^ (p + 1) := by
  obtain ⟨hlow, hhigh⟩ := units_bounds p hx
  have hge : 10 ^ p ≤ halfEven (|x| / 10 ^ (Int.log 10 |x| - p)) := le_halfEven (by exact_mod_cast hlow)
  have hle : halfEven (|x| / 10 ^ (Int.log 10 |x| - p)) ≤ 10 ^ (p + 1) :=
    halfEven_le (by exact_mod_cast hhigh) (by positivity)
  unfold scientific
  dsimp only
  split
  · exact ⟨le_rfl, Nat.pow_lt_pow_succ (by norm_num)⟩
  · exact ⟨hge, by omega⟩

/-- The form of a number is exact just when `p + 1` digits are enough for it. -/
theorem ofScientific_eq_iff (p : ℕ) (hx : x ≠ 0) : ofScientific p (scientific p x) = |x| ↔
    ∃ (m : ℕ) (j : ℤ), m < 10 ^ (p + 1) ∧ |x| = m * 10 ^ j := by
  constructor
  · intro h
    exact ⟨_, _, (scientific_bounds p hx).2, h.symm⟩
  · rintro ⟨m, j, hm, habs⟩
    obtain ⟨-, hhigh⟩ := units_bounds p hx
    have hlow : ((10 : ℕ) : ℚ) ^ Int.log 10 |x| ≤ |x| := Int.zpow_log_le_self (by norm_num) (abs_pos.mpr hx)
    -- with a last digit below the unit there would be too many of them
    have hj : Int.log 10 |x| - p ≤ j := by
      by_contra hlt
      have hbound : |x| < (10 : ℚ) ^ ((p + 1 : ℕ) + j) := by
        rw [habs, zpow_add₀ (by norm_num), zpow_natCast]
        exact mul_lt_mul_of_pos_right (by exact_mod_cast hm) (ten_zpow_pos j)
      have hle : (10 : ℚ) ^ ((p + 1 : ℕ) + j) ≤ 10 ^ Int.log 10 |x| :=
        zpow_le_zpow_right₀ (by norm_num) (by push_cast; omega)
      exact absurd (hbound.trans_le hle) (not_lt.mpr (by exact_mod_cast hlow))
    obtain ⟨d, hd⟩ := Int.eq_ofNat_of_zero_le (sub_nonneg.mpr hj)
    have hunits : |x| / 10 ^ (Int.log 10 |x| - p) = ((m * 10 ^ d : ℕ) : ℚ) := by
      have hsum : (d : ℤ) + (Int.log 10 |x| - p) = j := by omega
      rw [div_eq_iff (ten_zpow_pos _).ne', Nat.cast_mul, Nat.cast_pow, ← zpow_natCast, Nat.cast_ofNat, mul_assoc,
        ← zpow_add₀ (by norm_num), hsum, habs]
    have hlt : m * 10 ^ d < 10 ^ (p + 1) := by
      rw [hunits] at hhigh
      exact_mod_cast hhigh
    have hform : scientific p x = (m * 10 ^ d, Int.log 10 |x|) := by
      unfold scientific
      dsimp only
      rw [hunits, halfEven_natCast, if_neg hlt.ne]
    rw [hform, ofScientific, ← hunits, div_mul_cancel₀ _ (ten_zpow_pos _).ne']

end Base
