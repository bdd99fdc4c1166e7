import VirtuosoFlow.JsonText
import Mathlib.Algebra.Order.Field.Basic
import Mathlib.Algebra.Order.Ring.Rat
import Mathlib.Data.Nat.Cast.Field
import Mathlib.Data.Nat.Factorization.Basic
import Mathlib.Data.Rat.Lemmas
import Mathlib.Data.List.DropRight

/-!
# Numbers as exact decimals

The number that a JSON text stands for before it is rounded to a double. Every decimal can be written as such
a text, so that reading exactly is a float format of its own.
-/

namespace VirtuosoFlow.JsonText

/-- The number that a fraction adds. -/
def fractionValue (fraction : List Char) : ℚ := Nat.ofDigitChars 10 fraction.tail 0 / 10 ^ fraction.tail.length

/-- The power of ten that an exponent gives. -/
def exponentValue : List Char → ℤ
  | [] => 0
  | _ :: '-' :: ds => -Nat.ofDigitChars 10 ds 0
  | _ :: '+' :: ds => Nat.ofDigitChars 10 ds 0
  | _ :: ds => Nat.ofDigitChars 10 ds 0

/-- The number that a text stands for, exactly. -/
def decimalOf (text : List Char) : ℚ :=
  match takeWhole (takeSign text).2 with
  | none => 0
  | some (whole, rest) =>
    let fraction := takeFraction rest
    let exponent := takeExponent fraction.2
    (if (takeSign text).1 = [] then 1 else -1) * (Nat.ofDigitChars 10 whole 0 + fractionValue fraction.1) *
      10 ^ exponentValue exponent.1

/-- The last `w` decimal digits of a number. -/
def paddedDigits : ℕ → ℕ → List Char
  | 0, _ => []
  | w + 1, n => paddedDigits w (n / 10) ++ [(n % 10).digitChar]

section Digits

variable {w n : ℕ} {sign whole fraction exponent : List Char}

/-- The value of a numeral, from its sign, its digits, its fraction and its exponent. -/
theorem decimalOf_parts (hsign : Sign sign) (hwhole : Whole whole)
    (hfraction : fraction = [] ∨ Fraction fraction) (hexponent : exponent = [] ∨ Exponent exponent) :
    decimalOf (sign ++ (whole ++ (fraction ++ exponent))) =
      (if sign = [] then 1 else -1) * (Nat.ofDigitChars 10 whole 0 + fractionValue fraction) *
        10 ^ exponentValue exponent := by
  obtain ⟨hhead, htake, hfrac, hexp⟩ := parts_taken hsign hwhole hfraction hexponent stops_nil
  rw [List.append_nil] at hhead htake hfrac hexp
  simp only [decimalOf, hhead, htake, hfrac, hexp]

/-- The last digit of a number is written as a digit. -/
theorem isDigit_digitChar (n : ℕ) : (n % 10).digitChar.isDigit = true := by
  have hmod : n % 10 < 10 := Nat.mod_lt n (by omega)
  generalize n % 10 = m at hmod
  interval_cases m <;> decide

/-- Padding gives exactly so many digits. -/
@[simp] theorem length_paddedDigits (w n : ℕ) : (paddedDigits w n).length = w := by
  induction w generalizing n with
  | zero => rfl
  | succ w ih => simp [paddedDigits, ih]

/-- Padded digits are digits. -/
theorem isDigit_paddedDigits (w n : ℕ) : ∀ c ∈ paddedDigits w n, c.isDigit = true := by
  induction w generalizing n with
  | zero => simp [paddedDigits]
  | succ w ih =>
    intro c hc
    rcases List.mem_append.mp hc with hmem | hmem
    · exact ih (n / 10) c hmem
    · rw [List.mem_singleton.mp hmem]
      exact isDigit_digitChar n

/-- Padded digits stand for the number, as far as there is room for it. -/
theorem ofDigitChars_paddedDigits (w n : ℕ) : Nat.ofDigitChars 10 (paddedDigits w n) 0 = n % 10 ^ w := by
  induction w generalizing n with
  | zero => simp [paddedDigits, Nat.mod_one]
  | succ w ih =>
    have hlast : n % 10 < 10 := Nat.mod_lt n (by omega)
    have hsplit := Nat.mod_mul (x := n) (a := 10) (b := 10 ^ w)
    rw [paddedDigits, Nat.ofDigitChars_append, ih, Nat.ofDigitChars_cons_digitChar_of_lt_ten hlast,
      Nat.ofDigitChars_nil, pow_succ', hsplit, Nat.add_comm]

/-- A number with `w` decimals is its whole part and its last `w` digits. -/
theorem whole_add_fraction (w n : ℕ) :
    ((n / 10 ^ w : ℕ) : ℚ) + (n % 10 ^ w : ℕ) / 10 ^ w = n / 10 ^ w := by
  have hpow : (10 : ℚ) ^ w ≠ 0 := pow_ne_zero w (by norm_num)
  have hdiv : (((n / 10 ^ w * 10 ^ w + n % 10 ^ w : ℕ)) : ℚ) = n := by rw [Nat.div_add_mod' n (10 ^ w)]
  rw [eq_div_iff hpow, add_mul, div_mul_cancel₀ _ hpow, ← hdiv]
  push_cast
  rfl

end Digits

section Exact

variable {w : ℕ} {q : ℚ} {text : List Char}

/-- A number in units of its last decimal, where `q.den` decimals are enough. -/
def decimalUnits (q : ℚ) : ℕ := q.num.natAbs * 10 ^ q.den / q.den

/-- A decimal with all its places, and some more. -/
def decimalText (q : ℚ) : List Char :=
  (if q < 0 then ['-'] else []) ++ (Nat.toDigits 10 (decimalUnits q / 10 ^ q.den) ++
    '.' :: paddedDigits q.den (decimalUnits q))

/-- A text stands for a number of units of some power of ten. -/
theorem decimalOf_units (text : List Char) : ∃ (n : ℤ) (j : ℕ), decimalOf text = n / 10 ^ j := by
  have hscaled : ∀ (a : ℚ) (e : ℤ) (n : ℤ) (j : ℕ), a = n / 10 ^ j →
      ∃ (m : ℤ) (i : ℕ), a * 10 ^ e = m / 10 ^ i := by
    intro a e n j ha
    rcases Int.eq_nat_or_neg e with ⟨d, rfl | rfl⟩
    · refine ⟨n * 10 ^ d, j, ?_⟩
      rw [ha, zpow_natCast]
      push_cast
      rw [div_mul_eq_mul_div]
    · refine ⟨n, j + d, ?_⟩
      rw [ha, zpow_neg, zpow_natCast, pow_add, ← div_eq_mul_inv, div_div]
  unfold decimalOf
  split
  · exact ⟨0, 0, by simp⟩
  · rename_i whole rest _
    dsimp only
    generalize (takeFraction rest).1 = fraction
    refine hscaled _ _ ((if (takeSign text).1 = [] then 1 else -1) *
      (Nat.ofDigitChars 10 whole 0 * 10 ^ fraction.tail.length + Nat.ofDigitChars 10 fraction.tail 0))
      fraction.tail.length ?_
    have hpow : (10 : ℚ) ^ fraction.tail.length ≠ 0 := pow_ne_zero _ (by norm_num)
    rw [eq_div_iff hpow, fractionValue, mul_assoc, add_mul, div_mul_cancel₀ _ hpow]
    push_cast
    rfl

/-- A power of ten that a number divides has no more places than the number itself. -/
theorem dvd_ten_pow_self {d j : ℕ} (hd : d ≠ 0) (h : d ∣ 10 ^ j) : d ∣ 10 ^ d := by
  refine (Nat.factorization_prime_le_iff_dvd hd (pow_ne_zero d (by norm_num))).mp fun p hp => ?_
  have hle := (Nat.factorization_le_iff_dvd hd (pow_ne_zero j (by norm_num))).mpr h p
  rw [Nat.factorization_pow, Finsupp.smul_apply, smul_eq_mul] at hle ⊢
  rcases Nat.eq_zero_or_pos ((10 : ℕ).factorization p) with hzero | hpos
  · rw [hzero, mul_zero] at hle ⊢
    exact hle
  · have hlt : d.factorization p < d := Nat.factorization_lt p hd
    exact hlt.le.trans (Nat.le_mul_of_pos_right d hpos)

/-- The decimals of a number that a text stands for are all there. -/
theorem decimalUnits_eq (h : decimalOf text = q) : (decimalUnits q : ℚ) / 10 ^ q.den = |q| := by
  obtain ⟨n, j, hn⟩ := decimalOf_units text
  have hden : q.den ∣ 10 ^ j := by
    have hdvd := Rat.den_dvd n (10 ^ j)
    rw [Rat.divInt_eq_div, Int.cast_pow, Int.cast_ofNat, ← hn, h] at hdvd
    exact_mod_cast hdvd
  have hself : q.den ∣ 10 ^ q.den := dvd_ten_pow_self q.den_ne_zero hden
  have hpow : (10 : ℚ) ^ q.den ≠ 0 := pow_ne_zero _ (by norm_num)
  have hq : |q| = (q.num.natAbs : ℚ) / q.den := by
    conv_lhs => rw [← Rat.num_div_den q]
    rw [abs_div, Nat.abs_cast, Nat.cast_natAbs, Int.cast_abs]
  rw [decimalUnits, Nat.cast_div (hself.mul_left _) (by exact_mod_cast q.den_ne_zero), hq, div_right_comm,
    Nat.cast_mul, Nat.cast_pow, Nat.cast_ofNat, mul_div_cancel_right₀ _ hpow]

/-- Padded digits make a run of digits. -/
theorem digits_paddedDigits (hw : 0 < w) (n : ℕ) : Digits (paddedDigits w n) := by
  refine ⟨fun hnil => ?_, isDigit_paddedDigits w n⟩
  have hlen := length_paddedDigits w n
  rw [hnil] at hlen
  exact hw.ne hlen

/-- The text of a decimal is read back. -/
theorem decimalOf_decimalText (h : decimalOf text = q) : decimalOf (decimalText q) = q := by
  have hsign : Sign (if q < 0 then ['-'] else []) := by
    split
    · exact .inr rfl
    · exact .inl rfl
  have hfraction : Fraction ('.' :: paddedDigits q.den (decimalUnits q)) :=
    ⟨_, rfl, digits_paddedDigits q.den_pos _⟩
  have hunits := decimalUnits_eq h
  have hparts := decimalOf_parts hsign (whole_toDigits (decimalUnits q / 10 ^ q.den)) (.inr hfraction) (.inl rfl)
  rw [List.append_nil] at hparts
  rw [decimalText, hparts, Nat.ofDigitChars_ten_toDigits, fractionValue, List.tail_cons,
    ofDigitChars_paddedDigits, length_paddedDigits,
    whole_add_fraction, hunits, exponentValue, zpow_zero, mul_one]
  by_cases hneg : q < 0
  · rw [if_neg (by simp [hneg]), abs_of_neg hneg, neg_one_mul, neg_neg]
  · rw [if_pos (by simp [hneg]), abs_of_nonneg (not_lt.mp hneg), one_mul]

/-- Numbers are read exactly. -/
def exactFormat : FloatFormat where
  parse text := .finite (decimalOf text)
  repr := decimalText
  repr_text text q _ := by
    refine ⟨_, _, _, [], by rw [List.append_nil]; rfl, ?_, whole_toDigits _,
      .inr ⟨_, rfl, digits_paddedDigits q.den_pos _⟩, .inl rfl, by simp⟩
    split
    · exact .inr rfl
    · exact .inl rfl
  parse_repr text q h := by
    rw [decimalOf_decimalText (PyFloat.finite.inj h)]

end Exact

section Reading

variable {sign whole fraction exponent : List Char}

/-- What a text of a number is read as has its exact value, be it an integer or not. -/
theorem number_exact (hsign : Sign sign) (hwhole : Whole whole)
    (hfraction : fraction = [] ∨ Fraction fraction) (hexponent : exponent = [] ∨ Exponent exponent) :
    ∃ v, (∀ rest, Stops rest →
        number exactFormat (sign ++ (whole ++ (fraction ++ exponent)) ++ rest) = some (v, rest)) ∧
      v.number? = some (.finite (decimalOf (sign ++ (whole ++ (fraction ++ exponent))))) := by
  have hparts := fun rest => @number_parts exactFormat _ _ _ _ rest hsign hwhole hfraction hexponent
  have hvalue := decimalOf_parts hsign hwhole hfraction hexponent
  simp only [List.append_assoc]
  by_cases hint : fraction = [] ∧ exponent = []
  · refine ⟨.int (intOf sign whole), fun rest hrest => by rw [hparts rest hrest, if_pos hint], ?_⟩
    obtain ⟨rfl, rfl⟩ := hint
    rw [hvalue, intOf]
    rcases hsign with rfl | rfl
    · simp [Json.number?, fractionValue, exponentValue]
    · simp [Json.number?, fractionValue, exponentValue]
  · refine ⟨_, fun rest hrest => by rw [hparts rest hrest, if_neg hint], ?_⟩
    simp only [List.append_assoc]
    rfl

end Reading

end VirtuosoFlow.JsonText
