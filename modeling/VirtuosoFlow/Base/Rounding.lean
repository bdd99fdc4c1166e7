import Mathlib.Algebra.Order.Floor.Ring
import Mathlib.Data.Int.Log
import Mathlib.Data.Rat.Floor
import Mathlib.Tactic.Linarith
import Mathlib.Tactic.Positivity
import Mathlib.Tactic.Ring

/-!
# Rounding to the nearest

Arithmetic with a fixed number of binary digits: a result is rounded to the nearest number that has a
significand of that many digits, and from the middle between two such numbers to the even one. The
exponent is not bounded. The question answered here is which results are rounded to something
below a given number.
-/

namespace Base

/-- The nearest integer; from the middle between two integers the even one. -/
def roundEven (m : ℚ) : ℤ :=
  if Int.fract m < 1 / 2 ∨ Int.fract m = 1 / 2 ∧ Even ⌊m⌋ then ⌊m⌋ else ⌊m⌋ + 1

/-- The distance of the numbers with `p` digits around a number. -/
def spacing (p : ℕ) (q : ℚ) : ℚ := 2 ^ (Int.log 2 |q| + 1 - p)

/-- The nearest number with `p` digits. -/
def roundTo (p : ℕ) (q : ℚ) : ℚ := roundEven (q / spacing p q) * spacing p q

/-- A number with `p` digits that is not negative. -/
def HasDigits (p : ℕ) (v : ℚ) : Prop := ∃ (m : ℕ) (k : ℤ), m ≤ 2 ^ p ∧ v = m * 2 ^ k

/-- Arithmetic as C doubles do it, but for overflow and underflow. -/
def double (q : ℚ) : ℚ := roundTo 53 q

/-- How far below a number the next one with `p` digits is. -/
def gapBelow (p : ℕ) (v : ℚ) : ℚ := 2 ^ (Int.clog 2 v - p)

/-- What is nearer to the next number below `v` than to `v`; the middle between them if `v` is the odd one. -/
def RoundsBelow (p : ℕ) (v q : ℚ) : Prop :=
  q < v - gapBelow p v / 2 ∨ q = v - gapBelow p v / 2 ∧ Odd ⌊v / gapBelow p v⌋

section Integers

variable {m : ℚ} {k : ℤ}

/-- Integers are kept. -/
@[simp] theorem roundEven_intCast (k : ℤ) : roundEven k = k := by
  simp [roundEven]

/-- What is rounded to less than an integer. -/
theorem roundEven_lt_iff : roundEven m < k ↔ m < k - 1 / 2 ∨ m = k - 1 / 2 ∧ Odd k := by
  have hsplit : (⌊m⌋ : ℚ) + Int.fract m = m := Int.floor_add_fract m
  have hnonneg := Int.fract_nonneg m
  have hlt := Int.fract_lt_one m
  unfold roundEven
  rcases lt_trichotomy k (⌊m⌋ + 1) with hbelow | hat | habove
  · -- at most the integer part: nothing is rounded below it
    have hk : (k : ℚ) ≤ ⌊m⌋ := by exact_mod_cast Int.lt_add_one_iff.mp hbelow
    constructor
    · intro hround
      split at hround
      · omega
      · omega
    · rintro (hless | ⟨heq, -⟩)
      · linarith
      · linarith
  · -- just above it: the fraction decides
    subst hat
    have hodd : Odd (⌊m⌋ + 1) ↔ Even ⌊m⌋ := by
      rw [← Int.not_even_iff_odd, Int.even_add_one, not_not]
    rw [hodd]
    push_cast
    constructor
    · intro hround
      split at hround
      · rename_i hdown
        rcases hdown with hless | ⟨heq, heven⟩
        · exact .inl (by linarith)
        · exact .inr ⟨by linarith, heven⟩
      · omega
    · intro hless
      have hdown : Int.fract m < 1 / 2 ∨ Int.fract m = 1 / 2 ∧ Even ⌊m⌋ := by
        rcases hless with hless | ⟨heq, heven⟩
        · exact .inl (by linarith)
        · exact .inr ⟨by linarith, heven⟩
      rw [if_pos hdown]
      omega
  · -- further up: everything is
    have hk : (⌊m⌋ : ℚ) + 2 ≤ k := by
      have hint : ⌊m⌋ + 2 ≤ k := by omega
      exact_mod_cast hint
    constructor
    · intro _
      exact .inl (by linarith)
    · intro _
      split
      · omega
      · omega

/-- What is rounded to an integer or more. -/
theorem le_roundEven (h : (k : ℚ) ≤ m) : k ≤ roundEven m := by
  by_contra hlt
  rcases roundEven_lt_iff.mp (not_le.mp hlt) with hless | ⟨heq, -⟩
  · linarith
  · linarith

/-- What is rounded to an integer or less. -/
theorem roundEven_le (h : m ≤ k) : roundEven m ≤ k := by
  refine Int.lt_add_one_iff.mp (roundEven_lt_iff.mpr (.inl ?_))
  push_cast
  linarith

end Integers

section Digits

variable {p : ℕ} {q v : ℚ}

/-- Numbers of one size are evenly spaced. -/
theorem spacing_pos (p : ℕ) (q : ℚ) : 0 < spacing p q := by
  exact zpow_pos two_pos _

/-- There is room below every number. -/
theorem gapBelow_pos (p : ℕ) (v : ℚ) : 0 < gapBelow p v := by
  exact zpow_pos two_pos _

/-- Rounding keeps the sign. -/
theorem roundTo_nonneg (p : ℕ) (h : 0 ≤ q) : 0 ≤ roundTo p q := by
  have hpos := spacing_pos p q
  have hround : (0 : ℤ) ≤ roundEven (q / spacing p q) := le_roundEven (by simpa using div_nonneg h hpos.le)
  exact mul_nonneg (by exact_mod_cast hround) hpos.le

/-- The powers of two around a number. -/
theorem log_bounds (h : 0 < q) : (2 : ℚ) ^ Int.log 2 q ≤ q ∧ q < 2 ^ (Int.log 2 q + 1) :=
  ⟨by exact_mod_cast Int.zpow_log_le_self (by decide) h, by exact_mod_cast Int.lt_zpow_succ_log_self (by decide) q⟩

/-- The powers of two between which a number is, the upper one included. -/
theorem clog_bounds (h : 0 < v) : (2 : ℚ) ^ (Int.clog 2 v - 1) < v ∧ v ≤ 2 ^ Int.clog 2 v :=
  ⟨by exact_mod_cast Int.zpow_pred_clog_lt_self (by decide) h, by exact_mod_cast Int.self_le_zpow_clog (by decide) v⟩

/-- The significand of a positive number, in units of its spacing. -/
theorem significand_bounds (p : ℕ) (h : 0 < q) :
    (2 : ℚ) ^ ((p : ℤ) - 1) ≤ q / spacing p q ∧ q / spacing p q < 2 ^ p := by
  obtain ⟨hlow, hhigh⟩ := log_bounds h
  have hpos := spacing_pos p q
  rw [le_div_iff₀ hpos, div_lt_iff₀ hpos]
  unfold spacing
  rw [abs_of_pos h, ← zpow_add₀ two_ne_zero, ← zpow_natCast, ← zpow_add₀ two_ne_zero]
  refine ⟨le_of_eq_of_le (congrArg _ ?_) hlow, lt_of_lt_of_eq hhigh (congrArg _ ?_)⟩
  · ring
  · ring

/-- A rounded number has that many digits. -/
theorem hasDigits_roundTo (p : ℕ) (h : 0 ≤ q) : HasDigits p (roundTo p q) := by
  rcases h.eq_or_lt with rfl | hq
  · exact ⟨0, 0, Nat.zero_le _, by simp [roundTo, roundEven]⟩
  · have hround : (0 : ℤ) ≤ roundEven (q / spacing p q) :=
      le_roundEven (by simpa using (div_pos hq (spacing_pos p q)).le)
    have hmost : roundEven (q / spacing p q) ≤ (2 : ℤ) ^ p :=
      roundEven_le (by exact_mod_cast (significand_bounds p hq).2.le)
    obtain ⟨m, hm⟩ := Int.eq_ofNat_of_zero_le hround
    refine ⟨m, Int.log 2 |q| + 1 - p, ?_, ?_⟩
    · rw [hm] at hmost
      exact_mod_cast hmost
    · rw [roundTo, hm, spacing]
      rfl

/-- The whole part of a number with some digits has as many. -/
theorem HasDigits.floor (h : HasDigits p v) : HasDigits p (⌊v⌋ : ℚ) := by
  obtain ⟨m, k, hm, rfl⟩ := h
  rcases le_or_gt 0 k with hk | hk
  · obtain ⟨n, rfl⟩ := Int.eq_ofNat_of_zero_le hk
    refine ⟨m, n, hm, ?_⟩
    have hwhole : ((m : ℚ) * 2 ^ (n : ℤ)) = ((m * 2 ^ n : ℕ) : ℤ) := by push_cast; rw [zpow_natCast]
    rw [hwhole, Int.floor_intCast]
  · have hle : ⌊(m : ℚ) * 2 ^ k⌋ ≤ (m : ℤ) := by
      refine Int.floor_le_iff.mpr ?_
      have hone : (2 : ℚ) ^ k ≤ 1 := zpow_le_one_of_nonpos₀ one_le_two hk.le
      have hm0 : (0 : ℚ) ≤ m := Nat.cast_nonneg m
      push_cast
      nlinarith
    have hpos : 0 ≤ ⌊(m : ℚ) * 2 ^ k⌋ := Int.floor_nonneg.mpr (mul_nonneg (Nat.cast_nonneg m) (zpow_pos two_pos k).le)
    obtain ⟨n, hn⟩ := Int.eq_ofNat_of_zero_le hpos
    refine ⟨n, 0, ?_, by rw [hn]; simp⟩
    rw [hn] at hle
    exact le_trans (by exact_mod_cast hle) hm

/-- A positive number with some digits is a whole number of the gaps below it. -/
theorem HasDigits.whole (h : HasDigits p v) (hv : 0 < v) : ∃ n : ℤ, v = n * gapBelow p v := by
  obtain ⟨m, k, hm, hmk⟩ := h
  obtain ⟨hlow, -⟩ := clog_bounds hv
  have hk : Int.clog 2 v - p ≤ k := by
    by_contra hlt
    have hle : v ≤ 2 ^ ((p : ℤ) + k) := by
      rw [hmk, zpow_add₀ two_ne_zero, zpow_natCast]
      exact mul_le_mul_of_nonneg_right (by exact_mod_cast hm) (zpow_pos two_pos k).le
    have hexp : (p : ℤ) + k ≤ Int.clog 2 v - 1 := by omega
    exact absurd (hle.trans (zpow_le_zpow_right₀ one_le_two hexp)) (not_le.mpr hlow)
  obtain ⟨n, hn⟩ := Int.eq_ofNat_of_zero_le (sub_nonneg.mpr hk)
  refine ⟨m * 2 ^ n, ?_⟩
  have hsplit : k = n + (Int.clog 2 v - p) := by omega
  rw [gapBelow]
  push_cast
  rw [mul_assoc, ← zpow_natCast, ← zpow_add₀ two_ne_zero]
  rw [← hsplit]
  exact hmk

/-- A number with so many digits is kept. -/
theorem roundTo_eq_self (hp : 0 < p) (h : HasDigits p v) : roundTo p v = v := by
  suffices hwhole : ∃ n : ℤ, v / spacing p v = n by
    obtain ⟨n, hn⟩ := hwhole
    rw [roundTo, hn, roundEven_intCast, ← hn, div_mul_cancel₀ _ (spacing_pos p v).ne']
  obtain ⟨m, k, hm, rfl⟩ := h
  rcases Nat.eq_zero_or_pos m with rfl | hmpos
  · exact ⟨0, by simp⟩
  have hv : (0 : ℚ) < m * 2 ^ k := mul_pos (by exact_mod_cast hmpos) (zpow_pos two_pos k)
  obtain ⟨hlow, -⟩ := log_bounds hv
  have hlog : Int.log 2 ((m : ℚ) * 2 ^ k) ≤ k + p := by
    have hle : (m : ℚ) * 2 ^ k ≤ 2 ^ (k + p) := by
      rw [add_comm, zpow_add₀ two_ne_zero, zpow_natCast]
      exact mul_le_mul_of_nonneg_right (by exact_mod_cast hm) (zpow_pos two_pos k).le
    exact (zpow_le_zpow_iff_right₀ one_lt_two).mp (hlow.trans hle)
  unfold spacing
  rw [abs_of_pos hv]
  rcases hlog.eq_or_lt with htop | hless
  · -- the significand is the power of two itself
    have hfull : (m : ℚ) = 2 ^ p := by
      refine le_antisymm (by exact_mod_cast hm) ?_
      rw [htop, add_comm, zpow_add₀ two_ne_zero, zpow_natCast] at hlow
      exact le_of_mul_le_mul_right hlow (zpow_pos two_pos k)
    refine ⟨2 ^ (p - 1), ?_⟩
    have hexp : ((p - 1 : ℕ) : ℤ) = (p : ℤ) - 1 := by omega
    rw [htop, hfull, div_eq_iff (zpow_pos two_pos _).ne']
    push_cast
    rw [← zpow_natCast, ← zpow_natCast, hexp, ← zpow_add₀ two_ne_zero, ← zpow_add₀ two_ne_zero]
    exact congrArg _ (by ring)
  · obtain ⟨n, hn⟩ := Int.eq_ofNat_of_zero_le (show 0 ≤ k - (Int.log 2 ((m : ℚ) * 2 ^ k) + 1 - p) by omega)
    refine ⟨m * 2 ^ n, ?_⟩
    rw [mul_div_assoc, ← zpow_sub₀ two_ne_zero, hn]
    push_cast
    rfl

/-- A number is rounded to at least the power of two below it. -/
theorem zpow_le_roundTo (hp : 0 < p) {e : ℤ} (h : (2 : ℚ) ^ e ≤ q) : (2 : ℚ) ^ e ≤ roundTo p q := by
  have hq : 0 < q := (zpow_pos two_pos e).trans_le h
  have hlog : e ≤ Int.log 2 q := (Int.zpow_le_iff_le_log (by decide) hq).mp (by exact_mod_cast h)
  have hexp : ((p - 1 : ℕ) : ℤ) = (p : ℤ) - 1 := by omega
  have hround : (2 : ℤ) ^ (p - 1) ≤ roundEven (q / spacing p q) := by
    refine le_roundEven ?_
    have hlow := (significand_bounds p hq).1
    rw [← hexp, zpow_natCast] at hlow
    exact_mod_cast hlow
  calc (2 : ℚ) ^ e ≤ 2 ^ Int.log 2 q := zpow_le_zpow_right₀ one_le_two hlog
    _ = 2 ^ (p - 1) * spacing p q := by
        rw [spacing, abs_of_pos hq, ← zpow_natCast, hexp, ← zpow_add₀ two_ne_zero]
        exact congrArg _ (by ring)
    _ ≤ roundTo p q := mul_le_mul_of_nonneg_right (by exact_mod_cast hround) (spacing_pos p q).le

/-- A number is rounded to at most the power of two above it. -/
theorem roundTo_le_zpow (p : ℕ) {e : ℤ} (hq : 0 ≤ q) (h : q < 2 ^ e) : roundTo p q ≤ 2 ^ e := by
  rcases hq.eq_or_lt with rfl | hq
  · have hzero : roundTo p 0 = 0 := by simp [roundTo, roundEven]
    rw [hzero]
    exact (zpow_pos two_pos e).le
  have hlog : Int.log 2 q < e := (Int.lt_zpow_iff_log_lt (by decide) hq).mp (by exact_mod_cast h)
  have hround : roundEven (q / spacing p q) ≤ (2 : ℤ) ^ p :=
    roundEven_le (by exact_mod_cast (significand_bounds p hq).2.le)
  calc roundTo p q ≤ 2 ^ p * spacing p q :=
        mul_le_mul_of_nonneg_right (by exact_mod_cast hround) (spacing_pos p q).le
    _ = 2 ^ (Int.log 2 q + 1) := by
        rw [spacing, abs_of_pos hq, ← zpow_natCast, ← zpow_add₀ two_ne_zero]
        exact congrArg _ (by ring)
    _ ≤ 2 ^ e := zpow_le_zpow_right₀ one_le_two hlog

/-- A number is at least a gap above the power of two under it. -/
theorem zpow_add_gap_le (hp : 0 < p) (hdigits : HasDigits p v) (hpos : 0 < v) :
    (2 : ℚ) ^ (Int.clog 2 v - 1) + gapBelow p v ≤ v := by
  have hgap := gapBelow_pos p v
  obtain ⟨n, hn⟩ := hdigits.whole hpos
  have hpower : (2 : ℚ) ^ (Int.clog 2 v - 1) = (2 ^ (p - 1) : ℤ) * gapBelow p v := by
    have hexp : ((p - 1 : ℕ) : ℤ) = (p : ℤ) - 1 := by omega
    push_cast
    rw [gapBelow, ← zpow_natCast, hexp, ← zpow_add₀ two_ne_zero]
    exact congrArg _ (by ring)
  have hnext : (2 ^ (p - 1) : ℤ) + 1 ≤ n := by
    have hmul : ((2 ^ (p - 1) : ℤ) : ℚ) * gapBelow p v < n * gapBelow p v := by
      rw [← hn, ← hpower]
      exact (clog_bounds hpos).1
    exact_mod_cast lt_of_mul_lt_mul_right hmul hgap.le
  have hcast : ((2 ^ (p - 1) : ℤ) : ℚ) + 1 ≤ n := by exact_mod_cast hnext
  rw [hpower]
  calc _ = (((2 ^ (p - 1) : ℤ) : ℚ) + 1) * gapBelow p v := by ring
    _ ≤ n * gapBelow p v := mul_le_mul_of_nonneg_right hcast hgap.le
    _ = v := hn.symm

/-- Between the powers of two around a number the numbers with so many digits are evenly spaced. -/
theorem roundTo_lt_iff_between (hdigits : HasDigits p v) (hpos : 0 < v)
    (hfrom : (2 : ℚ) ^ (Int.clog 2 v - 1) ≤ q) (hamong : q < (2 : ℚ) ^ Int.clog 2 v) :
    roundTo p q < v ↔ RoundsBelow p v q := by
  have hgap := gapBelow_pos p v
  obtain ⟨n, hn⟩ := hdigits.whole hpos
  have hqpos : 0 < q := (zpow_pos two_pos _).trans_le hfrom
  have hlog : Int.log 2 q = Int.clog 2 v - 1 := by
    have hle : Int.clog 2 v - 1 ≤ Int.log 2 q :=
      (Int.zpow_le_iff_le_log (by decide) hqpos).mp (by exact_mod_cast hfrom)
    have hlt : Int.log 2 q < Int.clog 2 v :=
      (Int.lt_zpow_iff_log_lt (by decide) hqpos).mp (by exact_mod_cast hamong)
    omega
  have hspacing : spacing p q = gapBelow p v := by
    rw [spacing, abs_of_pos hqpos, hlog, gapBelow, sub_add_cancel]
  have hwhole : v / gapBelow p v = n := (div_eq_iff hgap.ne').mpr hn
  have hcell : roundTo p q < v ↔ roundEven (q / gapBelow p v) < n := by
    calc roundTo p q < v ↔ roundEven (q / gapBelow p v) * gapBelow p v < n * gapBelow p v := by
          rw [roundTo, hspacing, ← hn]
      _ ↔ _ := by
          rw [mul_lt_mul_iff_of_pos_right hgap]
          exact_mod_cast Iff.rfl
  have hmiddle : ((n : ℚ) - 1 / 2) * gapBelow p v = v - gapBelow p v / 2 := by
    calc _ = n * gapBelow p v - gapBelow p v / 2 := by ring
      _ = _ := by rw [← hn]
  rw [hcell, roundEven_lt_iff, RoundsBelow, hwhole, Int.floor_intCast, div_lt_iff₀ hgap, div_eq_iff hgap.ne',
    hmiddle]

/-- Which numbers are rounded to something below a number with so many digits. -/
theorem roundTo_lt_iff (hp : 0 < p) (hq : 0 ≤ q) (hdigits : HasDigits p v) (hv : 0 ≤ v) :
    roundTo p q < v ↔ RoundsBelow p v q := by
  have hgap := gapBelow_pos p v
  rcases hv.eq_or_lt with rfl | hpos
  · constructor
    · intro hlt
      exact absurd hlt (not_lt.mpr (roundTo_nonneg p hq))
    · rintro (hlt | ⟨heq, -⟩)
      · linarith
      · linarith
  obtain ⟨hlow, hhigh⟩ := clog_bounds hpos
  rcases lt_or_ge q (2 ^ (Int.clog 2 v - 1)) with hbelow | hfrom
  · -- below the power of two under `v`
    have hroom := zpow_add_gap_le hp hdigits hpos
    constructor
    · intro _
      exact .inl (by linarith)
    · intro _
      exact (roundTo_le_zpow p hq hbelow).trans_lt hlow
  rcases lt_or_ge q (2 ^ Int.clog 2 v) with hamong | habove
  · exact roundTo_lt_iff_between hdigits hpos hfrom hamong
  · constructor
    · intro hlt
      exact absurd hlt (not_lt.mpr (hhigh.trans (zpow_le_roundTo hp habove)))
    · rintro (hlt | ⟨heq, -⟩)
      · linarith
      · linarith

end Digits

end Base
