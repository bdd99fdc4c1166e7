import VirtuosoFlow.Base.Scientific
import VirtuosoFlow.JsonDecimal
import VirtuosoFlow.Plugin.Encoder

/-!
# Coordinates on the wire

The encoder writes floats with `%g`, which keeps six significant digits. Points, boxes and the values of a
primitive's changes are arrays of such numbers, and an agent reads from them what `%g` left of the coordinates.
-/

namespace VirtuosoFlow.Plugin.Encoder

open Base VirtuosoFlow.JsonText

section Format

/-- Digits without the zeros at their end. -/
def trimmed (ds : List Char) : List Char := ds.rdropWhile (· == '0')

/-- A fraction without the zeros at its end, and without a point if nothing else is left. -/
def fractionText (ds : List Char) : List Char := if trimmed ds = [] then [] else '.' :: trimmed ds

/-- `m` in units of the last of `d` decimals. -/
def fixedText (d m : ℕ) : List Char := Nat.toDigits 10 (m / 10 ^ d) ++ fractionText (paddedDigits d m)

/-- An exponent: a sign, and two digits at least. -/
def exponentText (e : ℤ) : List Char :=
  'e' :: (if e < 0 then '-' else '+') ::
    ((if e.natAbs < 10 then ['0'] else []) ++ Nat.toDigits 10 e.natAbs)

/-- The text of a scientific form with six digits. -/
def significandText (form : ℕ × ℤ) : List Char :=
  if -4 ≤ form.2 ∧ form.2 < 6 then fixedText (5 - form.2).toNat form.1
  else fixedText 5 form.1 ++ exponentText form.2

/-- `sprintf(nil "%g" x)`. -/
def formatG (x : ℚ) : List Char :=
  if x = 0 then ['0'] else (if x < 0 then ['-'] else []) ++ significandText (scientific 5 x)

/-- What is left of a number in six significant digits. -/
def roundG (x : ℚ) : ℚ := if x = 0 then 0 else (if x < 0 then -1 else 1) * ofScientific 5 (scientific 5 x)

variable {ds rest : List Char} {d m : ℕ} {e : ℤ} {x : ℚ}

/-- Trimming takes away zeros. -/
theorem trimmed_append (ds : List Char) : ∃ k, ds = trimmed ds ++ List.replicate k '0' := by
  have hsplit := List.takeWhile_append_dropWhile (p := (· == '0')) (l := ds.reverse)
  have hzeros : ds.reverse.takeWhile (· == '0') = List.replicate (ds.reverse.takeWhile (· == '0')).length '0' := by
    refine List.eq_replicate_of_mem fun c hc => ?_
    simpa using List.mem_takeWhile_imp hc
  refine ⟨(ds.reverse.takeWhile (· == '0')).length, ?_⟩
  rw [← List.reverse_replicate, ← hzeros, trimmed, List.rdropWhile, ← List.reverse_append, hsplit,
    List.reverse_reverse]

/-- The zeros at the end of a fraction do not count. -/
theorem fractionValue_fractionText (ds : List Char) :
    fractionValue (fractionText ds) = Nat.ofDigitChars 10 ds 0 / 10 ^ ds.length := by
  obtain ⟨k, hk⟩ := trimmed_append ds
  have hvalue : (Nat.ofDigitChars 10 ds 0 : ℚ) / 10 ^ ds.length =
      Nat.ofDigitChars 10 (trimmed ds) 0 / 10 ^ (trimmed ds).length := by
    have hpow : (10 : ℚ) ^ k ≠ 0 := pow_ne_zero k (by norm_num)
    conv_lhs => rw [hk]
    rw [Nat.ofDigitChars_append, Nat.ofDigitChars_replicate_zero, List.length_append, List.length_replicate, pow_add,
      Nat.cast_mul, Nat.cast_pow, Nat.cast_ofNat, mul_comm, mul_div_mul_right _ _ hpow]
  rw [hvalue, fractionText]
  split
  · rename_i hnil
    simp [hnil, fractionValue]
  · rfl

/-- The text of a fraction is one, or empty. -/
theorem fraction_fractionText (hds : ∀ c ∈ ds, c.isDigit = true) :
    fractionText ds = [] ∨ Fraction (fractionText ds) := by
  obtain ⟨k, hk⟩ := trimmed_append ds
  unfold fractionText
  split
  · exact .inl rfl
  · rename_i hne
    refine .inr ⟨_, rfl, hne, fun c hc => hds c ?_⟩
    rw [hk]
    exact List.mem_append_left _ hc

/-- A whole part consists of digits. -/
theorem digits_of_whole {text : List Char} (h : Whole text) : Digits text := by
  rcases h with rfl | ⟨c, ds, rfl, -, hc, hds⟩
  · exact ⟨by simp, Base.forall_mem_of_all (by decide)⟩
  · refine ⟨by simp, fun d hd => ?_⟩
    rcases List.mem_cons.mp hd with rfl | hmem
    · exact hc
    · exact hds d hmem

/-- The text of an exponent is one. -/
theorem exponent_exponentText (e : ℤ) : Exponent (exponentText e) := by
  have hdigits := digits_of_whole (whole_toDigits e.natAbs)
  refine ⟨'e', [if e < 0 then '-' else '+'], _, rfl, .inl rfl, ?_, ?_⟩
  · split
    · exact .inr (.inr rfl)
    · exact .inr (.inl rfl)
  · refine ⟨by simp [hdigits.1], fun c hc => ?_⟩
    rcases List.mem_append.mp hc with hzero | hmem
    · split at hzero
      · rw [List.mem_singleton.mp hzero]
        decide
      · cases hzero
    · exact hdigits.2 c hmem

/-- It is read back. -/
theorem exponentValue_exponentText (e : ℤ) : exponentValue (exponentText e) = e := by
  have hvalue : Nat.ofDigitChars 10
      ((if e.natAbs < 10 then ['0'] else []) ++ Nat.toDigits 10 e.natAbs) 0 = e.natAbs := by
    have hdigits : Nat.ofDigitChars 10 (Nat.toDigits 10 e.natAbs) 0 = e.natAbs := Nat.ofDigitChars_ten_toDigits
    split
    · rw [Nat.ofDigitChars_append]
      exact hdigits
    · exact hdigits
  unfold exponentText
  by_cases hneg : e < 0
  · rw [if_pos hneg]
    change -((Nat.ofDigitChars 10 _ 0 : ℕ) : ℤ) = e
    rw [hvalue]
    omega
  · rw [if_neg hneg]
    change ((Nat.ofDigitChars 10 _ 0 : ℕ) : ℤ) = e
    rw [hvalue]
    omega

/-- The parts of a text in `%g`, and the number they stand for. -/
theorem significandText_parts (form : ℕ × ℤ) : ∃ whole fraction exponent,
    significandText form = whole ++ (fraction ++ exponent) ∧ Whole whole ∧
      (fraction = [] ∨ Fraction fraction) ∧
      (exponent = [] ∨ Exponent exponent) ∧
      ((Nat.ofDigitChars 10 whole 0 : ℚ) + fractionValue fraction) * 10 ^ exponentValue exponent =
        ofScientific 5 form := by
  obtain ⟨m, e⟩ := form
  have hfixed : ∀ d, (Nat.ofDigitChars 10 (Nat.toDigits 10 (m / 10 ^ d)) 0 : ℚ) +
      fractionValue (fractionText (paddedDigits d m)) = m / 10 ^ d := by
    intro d
    rw [Nat.ofDigitChars_ten_toDigits, fractionValue_fractionText, ofDigitChars_paddedDigits, length_paddedDigits,
      whole_add_fraction]
  unfold significandText
  split
  · rename_i hrange
    refine ⟨_, fractionText (paddedDigits (5 - e).toNat m), [], by rw [List.append_nil]; rfl, whole_toDigits _,
      fraction_fractionText (isDigit_paddedDigits _ m), .inl rfl, ?_⟩
    have hd : (e : ℤ) - (5 : ℕ) = -((5 - e).toNat : ℤ) := by
      dsimp only at hrange
      omega
    rw [hfixed, exponentValue, zpow_zero, mul_one, ofScientific, hd, zpow_neg, zpow_natCast, div_eq_mul_inv]
  · refine ⟨_, fractionText (paddedDigits 5 m), exponentText e, ?_, whole_toDigits (m / 10 ^ 5),
      fraction_fractionText (isDigit_paddedDigits _ m), .inr (exponent_exponentText e), ?_⟩
    · rw [fixedText, List.append_assoc]
    · have hd : e - (5 : ℕ) = -((5 : ℕ) : ℤ) + e := by omega
      rw [hfixed, exponentValue_exponentText, ofScientific, hd, zpow_add₀ (by norm_num), zpow_neg, zpow_natCast,
        ← mul_assoc, div_eq_mul_inv]

/-- The text of a float is that of a number, and stands for what is left of the float. -/
theorem formatG_parts (x : ℚ) : ∃ sign whole fraction exponent,
    formatG x = sign ++ (whole ++ (fraction ++ exponent)) ∧ Sign sign ∧ Whole whole ∧
      (fraction = [] ∨ Fraction fraction) ∧ (exponent = [] ∨ Exponent exponent) ∧
      decimalOf (formatG x) = roundG x := by
  unfold formatG roundG
  by_cases hx : x = 0
  · rw [if_pos hx, if_pos hx]
    refine ⟨[], ['0'], [], [], rfl, .inl rfl, .inl rfl, .inl rfl, .inl rfl, ?_⟩
    have hvalue := @decimalOf_parts [] ['0'] [] [] (.inl rfl) (.inl rfl) (.inl rfl) (.inl rfl)
    have hdigit : Nat.ofDigitChars 10 ['0'] 0 = 0 := rfl
    simpa [fractionValue, exponentValue, hdigit] using hvalue
  · rw [if_neg hx, if_neg hx]
    obtain ⟨whole, fraction, exponent, htext, hwhole, hfraction, hexponent, hvalue⟩ :=
      significandText_parts (scientific 5 x)
    have hsign : Sign (if x < 0 then ['-'] else []) := by
      split
      · exact .inr rfl
      · exact .inl rfl
    refine ⟨_, whole, fraction, exponent, by rw [htext], hsign, hwhole, hfraction, hexponent, ?_⟩
    rw [htext, decimalOf_parts hsign hwhole hfraction hexponent, mul_assoc, hvalue]
    by_cases hneg : x < 0
    · simp [hneg]
    · simp [hneg]

/-- Six significant digits are enough for a number. -/
def SixDigits (x : ℚ) : Prop := ∃ (m : ℕ) (j : ℤ), m < 10 ^ 6 ∧ |x| = m * 10 ^ j

/-- Six digits are kept by rounding to six digits. -/
theorem roundG_eq_iff (x : ℚ) : roundG x = x ↔ SixDigits x := by
  unfold roundG
  by_cases hx : x = 0
  · rw [if_pos hx, hx]
    refine iff_of_true rfl ⟨0, 0, by norm_num, by simp⟩
  · rw [if_neg hx, SixDigits, ← ofScientific_eq_iff 5 hx]
    by_cases hneg : x < 0
    · rw [if_pos hneg, neg_one_mul, neg_eq_iff_eq_neg, abs_of_neg hneg]
    · rw [if_neg hneg, one_mul, abs_of_nonneg (not_lt.mp hneg)]

end Format

section Reading

variable {fmt : FloatFormat} {t : List Char} {v : Json} {ts : List (List Char)} {vs : List Json}

/-- A text is read as a value, wherever it stands among tokens. -/
structure ReadsAs (fmt : FloatFormat) (t : List Char) (v : Json) : Prop where
  head : ∃ c t', t = c :: t' ∧ Starts c
  value : ∀ n rest, t.length ≤ n → Stops rest → value fmt n (t ++ rest) = some (v, rest)

/-- A text that reads as a value begins with no white space. -/
theorem skip_readsAs (h : ReadsAs fmt t v) (rest : List Char) : skip (t ++ rest) = t ++ rest := by
  obtain ⟨c, t', rfl, hspace, -, -⟩ := h.head
  exact skip_cons hspace _

/-- It is loaded as that value. -/
theorem loads_readsAs (h : ReadsAs fmt t v) : loads fmt t = some v := by
  have hskip := skip_readsAs h []
  have hvalue := h.value (t.length + 1) [] (by omega) stops_nil
  rw [List.append_nil] at hskip hvalue
  rw [loads, hskip, hvalue]
  rfl

/-- A number may end before the items that follow it. -/
theorem stops_items (ts : List (List Char)) (rest : List Char) :
    Stops (ts.flatMap (',' :: ·) ++ ']' :: rest) := by
  cases ts with
  | nil => exact stops_cons (by decide) rest
  | cons t ts => exact stops_cons (by decide) _

/-- Items that read as values are read as these. -/
theorem items_readsAs (h : List.Forall₂ (ReadsAs fmt) ts vs) (rest : List Char) {n : ℕ}
    (hn : (ts.flatMap (',' :: ·)).length < n) :
    items fmt n (ts.flatMap (',' :: ·) ++ ']' :: rest) = some (vs, rest) := by
  induction h generalizing n with
  | nil =>
    obtain ⟨n, rfl⟩ : ∃ m, n = m + 1 := ⟨n - 1, by omega⟩
    have hspace : isSpace ']' = false := by decide
    rw [List.flatMap_nil, List.nil_append, items, skip_cons hspace]
    rfl
  | @cons t v ts vs hread _ ih =>
    obtain ⟨n, rfl⟩ : ∃ m, n = m + 1 := ⟨n - 1, by omega⟩
    rw [List.flatMap_cons, List.length_append, List.length_cons] at hn
    have hcomma : isSpace ',' = false := by decide
    have hvalue := hread.value n (ts.flatMap (',' :: ·) ++ ']' :: rest) (by omega) (stops_items ts rest)
    have hrest := ih (n := n) (by omega)
    rw [List.flatMap_cons, List.append_assoc, List.cons_append, items, skip_cons hcomma]
    simp only [if_neg (by decide : ¬ ',' = ']'), if_true, skip_readsAs hread, hvalue, hrest, Option.map_some]

/-- An array of texts is read as the array of their values. -/
theorem readsAs_arr (h : List.Forall₂ (ReadsAs fmt) ts vs) :
    ReadsAs fmt ('[' :: (buildString ts ++ [']'])) (.arr vs) := by
  refine ⟨⟨'[', _, rfl, by decide, by decide, by decide⟩, fun n rest hn _ => ?_⟩
  rw [List.length_cons, List.length_append] at hn
  obtain ⟨n, rfl⟩ : ∃ m, n = m + 1 := ⟨n - 1, by omega⟩
  cases h with
  | nil => exact (value_nil (by omega) rest).1
  | @cons t v ts vs hread htail =>
    rw [buildString_cons, List.length_append, List.length_singleton] at hn
    have hvalue := hread.value n (ts.flatMap (',' :: ·) ++ ']' :: rest) (by omega) (stops_items ts rest)
    have hitems := items_readsAs htail rest (n := n) (by omega)
    have hopen : (t ++ (ts.flatMap (',' :: ·) ++ ']' :: rest)).head? ≠ some ']' := by
      obtain ⟨c, t', rfl, -, hc, -⟩ := hread.head
      simpa using hc
    simp only [buildString_cons, List.cons_append, List.append_assoc, List.nil_append]
    rw [value, if_neg (by decide), if_pos rfl, skip_readsAs hread, if_neg hopen, hvalue]
    simp only [hitems, Option.map_some]

end Reading

section Records

variable (printL : Value → String)

/-- The text of a value, with `%g` for its floats. -/
def wireText (v : Value) : List Char := vfpToJson printL (fun x => String.ofList (formatG x)) v

/-- `vfpLayoutPointJ(pt)`. -/
def vfpLayoutPointJ : Option (ℚ × ℚ) → Value
  | none => .nil
  | some pt => vfpJArr [.flo pt.1, .flo pt.2]

/-- `vfpLayoutBBoxJ(bb)`. -/
def vfpLayoutBBoxJ : Option ((ℚ × ℚ) × (ℚ × ℚ)) → Value
  | none => .nil
  | some bb => vfpJArr [vfpLayoutPointJ (some bb.1), vfpLayoutPointJ (some bb.2)]

/-- `vfpLayoutPrimVal(v)`, as a tree. -/
def primValue : Value → Value
  | .nil => vfpJArr []
  | .cons a d => vfpJArr (Value.cons a d).toList
  | v => v

variable {printL} {vs : List Value} {ws : List Json}

/-- The parts of an array are those of its items. -/
theorem vfpJArrParts_list (printG : ℚ → String) (vs : List Value) :
    vfpJArrParts printL printG (list vs) = vs.map (vfpToJson printL printG) := by
  induction vs with
  | nil => rfl
  | cons v vs ih => rw [list, vfpJArrParts, ih, List.map_cons]

/-- The text of an array, from those of its items. -/
theorem wireText_vfpJArr (vs : List Value) :
    wireText printL (vfpJArr vs) = '[' :: (buildString (vs.map (wireText printL)) ++ [']']) := by
  rw [wireText, vfpJArr, vfpToJson, if_neg (by decide), if_pos rfl, vfpJArrParts_list]
  rfl

/-- A number that has this value. -/
def IsNumber (v : Json) (x : ℚ) : Prop := v.number? = some (.finite x)

/-- A float is read as what is left of it. -/
theorem readsAs_flo (printL : Value → String) (x : ℚ) :
    ∃ v, ReadsAs exactFormat (wireText printL (.flo x)) v ∧ IsNumber v (roundG x) := by
  have htext : wireText printL (.flo x) = formatG x := by rw [wireText, vfpToJson, String.toList_ofList]
  obtain ⟨sign, whole, fraction, exponent, hparts, hsign, hwhole, hfraction, hexponent, hvalue⟩ := formatG_parts x
  obtain ⟨v, hread, hnumber⟩ := number_exact hsign hwhole hfraction hexponent
  rw [← hparts] at hread hnumber
  obtain ⟨c, t, hhead, hc⟩ : ∃ c t, formatG x = c :: t ∧ (c = '-' ∨ c.isDigit = true) := by
    rw [hparts]
    exact head_of_number hsign hwhole _
  refine ⟨v, ⟨⟨c, t, by rw [htext, hhead], starts_number hc⟩, fun n rest hn hrest => ?_⟩, ?_⟩
  · have hnumber := hread rest hrest
    rw [htext, hhead] at hn ⊢
    rw [hhead] at hnumber
    obtain ⟨n, rfl⟩ : ∃ m, n = m + 1 := ⟨n - 1, by simp at hn; omega⟩
    exact value_number hc hnumber
  · rw [IsNumber, hnumber, hvalue]

/-- A point is read as an array of two numbers. -/
theorem readsAs_point (printL : Value → String) (pt : ℚ × ℚ) :
    ∃ a b, ReadsAs exactFormat (wireText printL (vfpLayoutPointJ (some pt))) (.arr [a, b]) ∧
      IsNumber a (roundG pt.1) ∧ IsNumber b (roundG pt.2) := by
  obtain ⟨a, ha, hfirst⟩ := readsAs_flo printL pt.1
  obtain ⟨b, hb, hsecond⟩ := readsAs_flo printL pt.2
  refine ⟨a, b, ?_, hfirst, hsecond⟩
  rw [vfpLayoutPointJ, wireText_vfpJArr]
  exact readsAs_arr (.cons ha (.cons hb .nil))

/-- A rounded number is the number itself exactly if it has six digits. -/
theorem isNumber_iff {v : Json} {x : ℚ} (h : IsNumber v (roundG x)) : IsNumber v x ↔ SixDigits x := by
  rw [← roundG_eq_iff, IsNumber, h, Option.some.injEq, PyFloat.finite.injEq]

/-- A coordinate of `n` thousandths of a micron. -/
def thousandths (n : ℤ) : ℚ := n / 1000

/-- Six digits are enough for `n`, whatever zeros follow them. -/
def Short (n : ℤ) : Prop := ∃ k : ℕ, 10 ^ k ∣ n ∧ |n| < 10 ^ (6 + k)

/-- A number of thousandths has six digits exactly if it is short. -/
theorem sixDigits_thousandths_iff (n : ℤ) : SixDigits (thousandths n) ↔ Short n := by
  have habs : |thousandths n| * 1000 = (n.natAbs : ℚ) := by
    rw [thousandths, abs_div, Nat.cast_natAbs, Int.cast_abs, abs_of_pos (by norm_num : (0 : ℚ) < 1000),
      div_mul_cancel₀ _ (by norm_num)]
  have hthousand : (1000 : ℚ) = 10 ^ (3 : ℤ) := by norm_num
  constructor
  · rintro ⟨m, j, hm, hj⟩
    rw [hj, hthousand, mul_assoc, ← zpow_add₀ (by norm_num)] at habs
    rcases le_total 0 (j + 3) with hpos | hneg
    · obtain ⟨k, hk⟩ := Int.eq_ofNat_of_zero_le hpos
      rw [hk, zpow_natCast] at habs
      have hn : m * 10 ^ k = n.natAbs := by exact_mod_cast habs
      refine ⟨k, ?_, ?_⟩
      · have hdvd : 10 ^ k ∣ n.natAbs := ⟨m, by rw [← hn, Nat.mul_comm]⟩
        exact_mod_cast Int.natCast_dvd.mpr hdvd
      · rw [Int.abs_eq_natAbs, ← hn, pow_add]
        exact_mod_cast Nat.mul_lt_mul_of_pos_right hm (by positivity)
    · obtain ⟨k, hk⟩ := Int.eq_ofNat_of_zero_le (neg_nonneg.mpr hneg)
      have hle : n.natAbs ≤ m := by
        have hone : (10 : ℚ) ^ (j + 3) ≤ 1 := zpow_le_one_of_nonpos₀ (by norm_num) hneg
        have hbound : (n.natAbs : ℚ) ≤ m := by
          rw [← habs]
          exact mul_le_of_le_one_right (Nat.cast_nonneg m) hone
        exact_mod_cast hbound
      refine ⟨0, by simp, ?_⟩
      rw [Int.abs_eq_natAbs, Nat.add_zero]
      exact_mod_cast hle.trans_lt hm
  · rintro ⟨k, hdvd, hlt⟩
    obtain ⟨m, hm⟩ : 10 ^ k ∣ n.natAbs := Int.natCast_dvd.mp (by exact_mod_cast hdvd)
    refine ⟨m, k - 3, ?_, ?_⟩
    · rw [Int.abs_eq_natAbs, hm, pow_add] at hlt
      have hlt' : m * 10 ^ k < 10 ^ 6 * 10 ^ k := by
        rw [Nat.mul_comm]
        exact_mod_cast hlt
      exact lt_of_mul_lt_mul_right hlt' (Nat.zero_le _)
    · rw [← mul_left_inj' (by norm_num : (1000 : ℚ) ≠ 0), habs, hm, hthousand, mul_assoc,
        ← zpow_add₀ (by norm_num),
        sub_add_cancel, zpow_natCast, Nat.cast_mul, Nat.cast_pow, Nat.cast_ofNat, mul_comm]

/-- A text is read as the coordinate itself. -/
def Survives (text : List Char) (x : ℤ) : Prop :=
  ∃ a, loads exactFormat text = some a ∧ IsNumber a (thousandths x)

/-- A text is read as the point itself. -/
def PointSurvives (text : List Char) (x y : ℤ) : Prop :=
  ∃ a b, loads exactFormat text = some (.arr [a, b]) ∧ IsNumber a (thousandths x) ∧ IsNumber b (thousandths y)

/-- A text is read as the box itself. -/
def BoxSurvives (text : List Char) (x₀ y₀ x₁ y₁ : ℤ) : Prop :=
  ∃ a b c d, loads exactFormat text = some (.arr [.arr [a, b], .arr [c, d]]) ∧ IsNumber a (thousandths x₀) ∧
    IsNumber b (thousandths y₀) ∧ IsNumber c (thousandths x₁) ∧ IsNumber d (thousandths y₁)

/-- A coordinate survives exactly if it is short. -/
theorem survives_iff (x : ℤ) : Survives (wireText printL (.flo (thousandths x))) x ↔ Short x := by
  obtain ⟨v, hread, hnumber⟩ := readsAs_flo printL (thousandths x)
  rw [← sixDigits_thousandths_iff, ← isNumber_iff hnumber, Survives, loads_readsAs hread]
  constructor
  · rintro ⟨a, ha, hx⟩
    obtain rfl := Option.some.inj ha
    exact hx
  · intro hx
    exact ⟨v, rfl, hx⟩

/-- So does a point, if both of its coordinates do. -/
theorem pointSurvives_iff (x y : ℤ) :
    PointSurvives (wireText printL (vfpLayoutPointJ (some (thousandths x, thousandths y)))) x y ↔
      Short x ∧ Short y := by
  obtain ⟨a, b, hread, ha, hb⟩ := readsAs_point printL (thousandths x, thousandths y)
  rw [← sixDigits_thousandths_iff, ← sixDigits_thousandths_iff, ← isNumber_iff ha, ← isNumber_iff hb,
    PointSurvives,
    loads_readsAs hread]
  constructor
  · rintro ⟨a', b', heq, hx, hy⟩
    obtain ⟨rfl, rfl⟩ : a = a' ∧ b = b' := by simpa using heq
    exact ⟨hx, hy⟩
  · rintro ⟨hx, hy⟩
    exact ⟨a, b, rfl, hx, hy⟩

/-- So does a box, if both of its corners do. -/
theorem boxSurvives_iff (x₀ y₀ x₁ y₁ : ℤ) :
    BoxSurvives (wireText printL (vfpLayoutBBoxJ
      (some ((thousandths x₀, thousandths y₀), (thousandths x₁, thousandths y₁))))) x₀ y₀ x₁ y₁ ↔
      (Short x₀ ∧ Short y₀) ∧ Short x₁ ∧ Short y₁ := by
  obtain ⟨a, b, hlower, ha, hb⟩ := readsAs_point printL (thousandths x₀, thousandths y₀)
  obtain ⟨c, d, hupper, hc, hd⟩ := readsAs_point printL (thousandths x₁, thousandths y₁)
  have hread := readsAs_arr (.cons hlower (.cons hupper .nil))
  simp only [← sixDigits_thousandths_iff]
  rw [← isNumber_iff ha, ← isNumber_iff hb, ← isNumber_iff hc, ← isNumber_iff hd, BoxSurvives, vfpLayoutBBoxJ,
    wireText_vfpJArr, List.map_cons, List.map_cons, List.map_nil, loads_readsAs hread]
  constructor
  · rintro ⟨a', b', c', d', heq, hx₀, hy₀, hx₁, hy₁⟩
    obtain ⟨⟨rfl, rfl⟩, rfl, rfl⟩ : (a = a' ∧ b = b') ∧ c = c' ∧ d = d' := by simpa using heq
    exact ⟨⟨hx₀, hy₀⟩, hx₁, hy₁⟩
  · rintro ⟨⟨hx₀, hy₀⟩, hx₁, hy₁⟩
    exact ⟨a, b, c, d, rfl, hx₀, hy₀, hx₁, hy₁⟩

end Records

/-- A coordinate in an origin, a box or a primitive's change survives just when six digits are enough for it. -/
theorem coordinates_survive_iff (printL : Value → String) :
    (∀ x y, PointSurvives (wireText printL (vfpLayoutPointJ (some (thousandths x, thousandths y)))) x y ↔
      Short x ∧ Short y) ∧
    (∀ x₀ y₀ x₁ y₁, BoxSurvives (wireText printL (vfpLayoutBBoxJ
        (some ((thousandths x₀, thousandths y₀), (thousandths x₁, thousandths y₁))))) x₀ y₀ x₁ y₁ ↔
      (Short x₀ ∧ Short y₀) ∧ Short x₁ ∧ Short y₁) ∧
    (∀ x, Survives (wireText printL (primValue (.flo (thousandths x)))) x ↔ Short x) ∧
    ∀ x y, PointSurvives (wireText printL (primValue (list [.flo (thousandths x), .flo (thousandths y)]))) x y ↔
      Short x ∧ Short y :=
  ⟨pointSurvives_iff, boxSurvives_iff, survives_iff, fun x y => pointSurvives_iff x y⟩

/-- The width 1234.567 is read as 1234.57. -/
theorem coordinate_rounded : ¬ ∀ (printL : Value → String) (x : ℤ), |x| < 10 ^ 9 →
    Survives (wireText printL (primValue (.flo (thousandths x)))) x := by
  intro hall
  obtain ⟨k, hdvd, hlt⟩ := (survives_iff 1234567).mp (hall (fun _ => "") 1234567 (by norm_num))
  rcases Nat.eq_zero_or_pos k with rfl | hpos
  · norm_num at hlt
  · have hten : (10 : ℤ) ∣ 1234567 := (dvd_pow_self 10 hpos.ne').trans hdvd
    norm_num at hten

end VirtuosoFlow.Plugin.Encoder
