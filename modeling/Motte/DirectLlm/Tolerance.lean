import Motte.DirectLlm.Numeric

/-! Comparison within a tolerance.

A difference is rounded to the digits of the operations before it is compared, so a
difference that is within the tolerance is always found to be; one that is not is found to be
only when it is rounded to the tolerance itself, which takes more digits than the operations
keep. Products of a tolerance and an expected number are exact. -/
namespace Motte.DirectLlm
open Foundation

variable {u : Unicode} {x y p e t : FiniteDecimal}

/-! ### Numbers within bounds -/

/-- What the bounds leave of a number's digits and exponent. -/
structure Bounded (x : FiniteDecimal) : Prop where
  digits : numDigits x.coefficient ≤ maxNumberSignificantDigits
  exponent : x.exponent.natAbs ≤ maxNumberAbsoluteExponent

theorem bounded_of_none (h : numericBoundsFailure (.finite x) = none) :
    Bounded x ∧ (decimalText (.finite x)).length ≤ maxNormalizedNumberLength := by
  simp only [numericBoundsFailure] at h
  split at h
  · cases h
  · rename_i hdigits
    split at h
    · cases h
    · rename_i hexponent
      split at h
      · cases h
      · rename_i hlength
        exact ⟨⟨not_lt.1 hdigits, not_lt.1 hexponent⟩, not_lt.1 hlength⟩

theorem Bounded.fits (h : Bounded x) : Fits maxNumberSignificantDigits x.value := FiniteDecimal.fits (by decide) h.digits

theorem Bounded.exponent_ge (h : Bounded x) : -1000 ≤ x.exponent := by
  have := h.exponent
  unfold maxNumberAbsoluteExponent at this
  omega

theorem Bounded.exponent_le (h : Bounded x) : x.exponent ≤ 1000 := by
  have := h.exponent
  unfold maxNumberAbsoluteExponent at this
  omega

theorem Bounded.high (h : Bounded x) : |x.value| < (10 : ℚ) ^ (1128 : ℤ) := by
  have hdigits : (x.coefficient : ℚ) < (10 : ℚ) ^ (128 : ℤ) := by
    have hlt := (numDigits_le_iff (by decide)).1 h.digits
    exact_mod_cast hlt
  calc |x.value| = x.coefficient * (10 : ℚ) ^ x.exponent := x.abs_value
    _ < (10 : ℚ) ^ (128 : ℤ) * (10 : ℚ) ^ x.exponent := mul_lt_mul_of_pos_right hdigits (ten_zpow_pos _)
    _ ≤ (10 : ℚ) ^ (128 : ℤ) * (10 : ℚ) ^ (1000 : ℤ) :=
        mul_le_mul_of_nonneg_left (ten_zpow_le h.exponent_le) (ten_zpow_pos _).le
    _ = (10 : ℚ) ^ (1128 : ℤ) := (ten_zpow_add _ _).symm

theorem Bounded.low (h : Bounded x) (hx : x.value ≠ 0) : (10 : ℚ) ^ (-1000 : ℤ) ≤ |x.value| := by
  have hone : (1 : ℚ) ≤ x.coefficient := by
    have hpos : 0 < x.coefficient := Nat.pos_of_ne_zero (fun hzero => hx (FiniteDecimal.value_eq_zero.2 hzero))
    exact_mod_cast hpos
  calc (10 : ℚ) ^ (-1000 : ℤ) ≤ (10 : ℚ) ^ x.exponent := ten_zpow_le h.exponent_ge
    _ ≤ x.coefficient * (10 : ℚ) ^ x.exponent := le_mul_of_one_le_left (ten_zpow_pos _).le hone
    _ = |x.value| := x.abs_value.symm

/-- The exponents of the operations are not left by numbers as large and as small as these. -/
theorem inRange_of {v : ℚ} {a b : ℤ} (precision : ℕ) (ha : -4096 ≤ a) (hb : b ≤ 4096) (hlow : (10 : ℚ) ^ a ≤ |v|)
    (hhigh : |v| < (10 : ℚ) ^ b) : (numericContext precision).InRange v :=
  ⟨(ten_zpow_le ha).trans hlow, hhigh.trans_le (ten_zpow_le hb)⟩

theorem Bounded.inRange (h : Bounded x) (precision : ℕ) (hx : x.value ≠ 0) : (numericContext precision).InRange |x.value| := by
  refine inRange_of precision (a := -1000) (b := 1128) (by norm_num) (by norm_num) ?_ ?_
  · rw [abs_abs]
    exact h.low hx
  · rw [abs_abs]
    exact h.high

/-- A difference is a whole multiple of the lower of the two places. -/
theorem Bounded.sub_low (hx : Bounded x) (hy : Bounded y) (hne : x.value - y.value ≠ 0) :
    (10 : ℚ) ^ (-1000 : ℤ) ≤ |x.value - y.value| := by
  rw [← FiniteDecimal.exactSub_value] at hne ⊢
  have hone : (1 : ℚ) ≤ (x.exactSub y).coefficient := by
    have hpos := Nat.pos_of_ne_zero (fun hzero => hne (FiniteDecimal.value_eq_zero.2 hzero))
    exact_mod_cast hpos
  have hexponent : -1000 ≤ (x.exactSub y).exponent := le_min hx.exponent_ge hy.exponent_ge
  calc (10 : ℚ) ^ (-1000 : ℤ) ≤ (10 : ℚ) ^ (x.exactSub y).exponent := ten_zpow_le hexponent
    _ ≤ (x.exactSub y).coefficient * (10 : ℚ) ^ (x.exactSub y).exponent := le_mul_of_one_le_left (ten_zpow_pos _).le hone
    _ = |(x.exactSub y).value| := (x.exactSub y).abs_value.symm

theorem Bounded.sub_high (hx : Bounded x) (hy : Bounded y) : |x.value - y.value| ≤ (10 : ℚ) ^ (1129 : ℤ) := by
  have htriangle := abs_sub x.value y.value
  have hten : (10 : ℚ) ^ (1129 : ℤ) = (10 : ℚ) ^ (1128 : ℤ) * 10 := by
    rw [← zpow_add_one₀ (by norm_num)]
    norm_num
  have hpos := ten_zpow_pos 1128
  have hxhigh := hx.high
  have hyhigh := hy.high
  rw [hten]
  generalize (10 : ℚ) ^ (1128 : ℤ) = bound at *
  linarith only [htriangle, hxhigh, hyhigh, hpos]

/-! ### The tolerance of a configuration -/

/-- A text that is not too long is read back within the limits of the module. -/
theorem ofText_short (hlength : x.plainText.length ≤ maxNormalizedNumberLength) :
    ∃ y : FiniteDecimal, Decimal.ofText u x.plainText = .ok (.finite y) ∧ y.value = x.value := by
  refine ofText_plainText (fun y hcoefficient hexponent => ?_)
  have hlong : x.places.1.length + (FiniteDecimal.trimmed x.places.2).length ≤ x.plainText.length := by
    unfold FiniteDecimal.plainText FiniteDecimal.digitText
    by_cases hnone : FiniteDecimal.trimmed x.places.2 = []
    · rw [if_pos hnone, hnone, List.append_nil, List.length_append, List.length_map, List.length_nil]
      omega
    · rw [if_neg hnone, List.length_append, List.length_append, List.length_cons, List.length_map, List.length_map]
      omega
  have hdigits : numDigits y.coefficient ≤ 1024 := by
    rw [numDigits_le_iff (by norm_num), hcoefficient]
    refine (ofDigits_lt (fun d hd => ?_)).trans_le (Nat.pow_le_pow_right (by norm_num) ?_)
    · obtain hd | hd := List.mem_append.1 hd
      · exact (places_lt x).1 d hd
      · exact trimmed_lt (places_lt x).2 d hd
    · rw [List.length_append]
      exact hlong.trans hlength
  unfold maxNormalizedNumberLength at hlength
  unfold FiniteDecimal.withinLimits FiniteDecimal.adjusted minEtiny maxEmax
  rw [hexponent, Bool.and_eq_true, decide_eq_true_iff, decide_eq_true_iff]
  constructor <;> omega

/-- The text of a number within bounds is read back as a number of the same value. -/
theorem ofText_decimalText (h : numericBoundsFailure (.finite x) = none) :
    ∃ y : FiniteDecimal, Decimal.ofText u (decimalText (.finite x)) = .ok (.finite y) ∧ y.value = x.value := by
  have hlength := (bounded_of_none h).2
  unfold decimalText at hlength ⊢
  by_cases hzero : x.isZero = true
  · -- nothing is written as the number that is plainly zero
    simp only [hzero, if_true]
    have hplain : (FiniteDecimal.plainText { negative := false, coefficient := 0, exponent := 0 }) = ['0'] := by decide
    obtain ⟨y, hy, hvalue⟩ := ofText_short (u := u) (x := { negative := false, coefficient := 0, exponent := 0 }) (by decide)
    rw [hplain] at hy
    refine ⟨y, hy, ?_⟩
    rw [hvalue, FiniteDecimal.value_eq_zero.2 (of_decide_eq_true hzero)]
    exact FiniteDecimal.value_eq_zero.2 rfl
  · simp only [hzero] at hlength ⊢
    exact ofText_short hlength

/-- The tolerance that a configuration gives in a field. -/
def Tolerance (u : Unicode) (raw : Table String Scalar) (field : String) (t : FiniteDecimal) : Prop :=
  ∃ value, raw.get field = some value ∧ configDecimal u value field = .ok t

theorem configDecimal_ok {value : Scalar} {field : String} (h : configDecimal u value field = .ok t) :
    numericBoundsFailure (.finite t) = none ∧ 0 ≤ t.value := by
  unfold configDecimal at h
  split at h
  · cases h
  · rename_i z hz
    split at h
    · cases h
    · rename_i hsign
      split at h
      · cases h
      · rename_i hbounds
        cases h
        refine ⟨hbounds, ?_⟩
        have hsize : (0 : ℚ) ≤ t.coefficient * (10 : ℚ) ^ t.exponent := mul_nonneg (Nat.cast_nonneg _) (ten_zpow_pos _).le
        cases hnegative : t.negative with
        | false =>
          unfold FiniteDecimal.value FiniteDecimal.sign
          rw [hnegative]
          simpa using hsize
        | true =>
          have hzero : t.isZero = true := by simpa [belowZero, hnegative] using hsign
          exact (FiniteDecimal.value_eq_zero.2 (of_decide_eq_true hzero)).ge
  · cases h

theorem given_eq {raw : Table String Scalar} {field : String} {value : Scalar} (h : given raw field = some value) :
    raw.get field = some value := by
  unfold given at h
  split at h
  · cases h
  · exact h

/-- What a configuration's mode comes from. -/
def ModeFrom (u : Unicode) (raw : Table String Scalar) : NumericMode → Prop
  | .exact => given raw "absolute_tolerance" = none ∧ given raw "relative_tolerance" = none
  | .absoluteTolerance text => ∃ t, Tolerance u raw "absolute_tolerance" t ∧ text = decimalText (.finite t)
  | .relativeTolerance text => ∃ t, Tolerance u raw "relative_tolerance" t ∧ text = decimalText (.finite t)

theorem numericMode_ok {raw : Table String Scalar} {mode : NumericMode} (h : numericMode u raw = .ok mode) :
    ModeFrom u raw mode := by
  have htext : ∀ {t : FiniteDecimal} {text : List Char}, boundedNumericText (.finite t) = .ok text → text = decimalText (.finite t) := by
    intro t text ht
    unfold boundedNumericText at ht
    split at ht
    · cases ht
    · cases ht
      rfl
  unfold numericMode at h
  simp only [bind, Except.bind, pure, Except.pure, throw, throwThe, MonadExceptOf.throw] at h
  split at h
  · cases h
  · split at h
    · cases h
    · split at h
      · cases h
        exact ⟨by assumption, by assumption⟩
      · cases h
      · rename_i habsolute hrelative hname
        split at h
        · cases h
        · rename_i hdecimal
          split at h
          · cases h
          · rename_i hbounded
            cases h
            exact ⟨_, ⟨_, given_eq habsolute, hdecimal⟩, htext hbounded⟩
      · cases h
      · rename_i hrelative _
        split at h
        · cases h
        · rename_i hdecimal
          split at h
          · cases h
          · rename_i hbounded
            cases h
            exact ⟨_, ⟨_, given_eq hrelative, hdecimal⟩, htext hbounded⟩
      · cases h

theorem normalizeNumericConfig_ok {raw : Table String Scalar} {config : NumericConfig}
    (h : normalizeNumericConfig u raw = .ok config) : ModeFrom u raw config.mode := by
  unfold normalizeNumericConfig at h
  cases hmode : numericMode u raw with
  | error e =>
    simp only [hmode, bind, Except.bind] at h
    split at h <;> cases h
  | ok mode =>
    have hfrom := numericMode_ok hmode
    simp only [hmode, bind, Except.bind, pure, Except.pure, throw, throwThe, MonadExceptOf.throw] at h
    repeat' split at h
    all_goals cases h
    exact hfrom

/-! ### The comparison -/

theorem operated_ok {α : Type} {result : Except DecimalException α} {a : α} (h : result = .ok a) : operated result = .ok a := by
  rw [h]
  rfl

/-- The difference is rounded, and keeps its sign when it is made positive. -/
theorem difference_value (hp : Bounded p) (he : Bounded e) :
    ∃ d z, (numericContext numericOperationPrecision).sub p e = .ok z ∧
      (numericContext numericOperationPrecision).abs z = .ok d ∧
      d.value = roundDigits numericOperationPrecision |p.value - e.value| := by
  have hprec : 0 < (numericContext numericOperationPrecision).prec := by decide
  have hlow := fun hne => Bounded.sub_low hp he hne
  have hhigh := Bounded.sub_high hp he
  have hmore : (10 : ℚ) ^ (1129 : ℤ) < (10 : ℚ) ^ (1130 : ℤ) := zpow_lt_zpow_right₀ (by norm_num) (by norm_num)
  obtain ⟨z, hz, hvalue⟩ := DecimalContext.sub_value (x := p) (y := e) hprec (fun hne =>
    inRange_of numericOperationPrecision (by norm_num) (by norm_num) (hlow hne) (hhigh.trans_lt hmore))
  have hsize : |z.value| = roundDigits numericOperationPrecision |p.value - e.value| := by
    rw [hvalue, roundDigits_abs (by decide)]
    rfl
  obtain ⟨d, hd, hdvalue⟩ := DecimalContext.abs_fits (x := z) hprec (by
      rw [hsize]
      exact roundDigits_fits (by decide) _) (fun hne => by
    have hne' : p.value - e.value ≠ 0 := by
      intro hzero
      rw [hvalue, hzero, roundDigits_zero] at hne
      exact hne rfl
    rw [hsize]
    refine inRange_of numericOperationPrecision (a := -1000) (b := 1130) (by norm_num) (by norm_num) ?_ ?_
    · refine (le_roundDigits (by decide) (Fits.ten_zpow (by decide) _) ?_).trans (le_abs_self _)
      exact hlow hne'
    · rw [abs_of_nonneg (roundDigits_nonneg (by decide) (abs_nonneg _))]
      exact (roundDigits_le (by decide) (Fits.ten_zpow (by decide) _) hhigh).trans_lt hmore)
  exact ⟨d, z, hz, hd, hdvalue.trans hsize⟩

/-- The product of a tolerance and the size of a number is exact. -/
theorem product_value {y : FiniteDecimal} (ht : Bounded t) (hy : y.value = t.value) (he : Bounded e) :
    ∃ a b, (numericContext numericOperationPrecision).abs e = .ok a ∧
      (numericContext numericOperationPrecision).mul y a = .ok b ∧ b.value = t.value * |e.value| := by
  have hprec : 0 < (numericContext numericOperationPrecision).prec := by decide
  have hfits : Fits maxNumberSignificantDigits |e.value| := by
    obtain h | h := abs_choice e.value
    · rw [h]
      exact he.fits
    · rw [h]
      exact he.fits.neg
  obtain ⟨a, ha, havalue⟩ := DecimalContext.abs_fits (x := e) (c := numericContext numericOperationPrecision) hprec
    (hfits.mono (by decide)) (fun hne => he.inRange _ hne)
  have hproduct : y.value * a.value = t.value * |e.value| := by rw [hy, havalue]
  obtain ⟨b, hb, hbvalue⟩ := DecimalContext.mul_fits (x := y) (y := a) hprec (by
      rw [hproduct]
      exact ht.fits.mul hfits) (fun hne => by
    rw [hproduct] at hne ⊢
    have ht' : t.value ≠ 0 := left_ne_zero_of_mul hne
    have he' : e.value ≠ 0 := abs_ne_zero.1 (right_ne_zero_of_mul hne)
    refine inRange_of numericOperationPrecision (a := -1000 + -1000) (b := 1128 + 1128) (by norm_num) (by norm_num) ?_ ?_
    · rw [abs_mul, abs_abs, ten_zpow_add]
      exact mul_le_mul (ht.low ht') (he.low he') (ten_zpow_pos _).le (abs_nonneg _)
    · rw [abs_mul, abs_abs, ten_zpow_add]
      exact mul_lt_mul'' ht.high he.high (abs_nonneg _) (abs_nonneg _))
  exact ⟨a, b, ha, hb, hbvalue.trans hproduct⟩

/-- The bound on the difference. -/
def bound (relative : Bool) (t e : FiniteDecimal) : ℚ := if relative then t.value * |e.value| else t.value

theorem bound_fits (relative : Bool) (ht : Bounded t) (he : Bounded e) :
    Fits numericOperationPrecision (bound relative t e) := by
  cases relative with
  | false => exact ht.fits.mono (by decide)
  | true =>
    have hfits : Fits maxNumberSignificantDigits |e.value| := by
      obtain h | h := abs_choice e.value
      · rw [h]
        exact he.fits
      · rw [h]
        exact he.fits.neg
    exact ht.fits.mul hfits

/-- The rounded difference is compared with the exact bound. -/
theorem withinTolerance_value {relative : Bool} (hp : numericBoundsFailure (.finite p) = none)
    (he : numericBoundsFailure (.finite e) = none) (ht : numericBoundsFailure (.finite t) = none) :
    ∃ b, withinTolerance u (decimalText (.finite t)) relative p e = .ok b ∧
      (b = true ↔ roundDigits numericOperationPrecision |p.value - e.value| ≤ bound relative t e) := by
  obtain ⟨y, hy, hyvalue⟩ := ofText_decimalText (u := u) ht
  obtain ⟨d, z, hz, hd, hdvalue⟩ := difference_value (bounded_of_none hp).1 (bounded_of_none he).1
  obtain ⟨a, b, ha, hb, hbvalue⟩ := product_value (bounded_of_none ht).1 hyvalue (bounded_of_none he).1
  unfold withinTolerance
  simp only [hy, hz, hd, bind, Except.bind, pure, Except.pure]
  cases relative with
  | false =>
    refine ⟨d.atMost y, rfl, ?_⟩
    rw [FiniteDecimal.atMost_iff, hdvalue, hyvalue]
    rfl
  | true =>
    simp only [ha, hb]
    refine ⟨d.atMost b, rfl, ?_⟩
    rw [FiniteDecimal.atMost_iff, hdvalue, hbvalue]
    rfl

/-- Whether the tolerance of a mode is relative, and the field that gives it. -/
def NumericMode.tolerance? : NumericMode → Option (Bool × String)
  | .exact => none
  | .absoluteTolerance _ => some (false, "absolute_tolerance")
  | .relativeTolerance _ => some (true, "relative_tolerance")

theorem Tolerance.unique {raw : Table String Scalar} {field : String} {t t' : FiniteDecimal} (h : Tolerance u raw field t)
    (h' : Tolerance u raw field t') : t = t' := by
  obtain ⟨value, hvalue, ht⟩ := h
  obtain ⟨value', hvalue', ht'⟩ := h'
  cases hvalue.symm.trans hvalue'
  cases ht.symm.trans ht'
  rfl

/-- A comparison within a tolerance never fails. It finds the numbers alike exactly when their
difference is at most the bound, or is rounded to the bound by the digits that the operations keep;
where the difference has no more digits than these, it is at most the bound. -/
theorem compare_tolerance {raw : Table String Scalar} {config : NumericConfig} {relative : Bool} {field : String}
    (hconfig : normalizeNumericConfig u raw = .ok config) (hmode : config.mode.tolerance? = some (relative, field))
    (ht : Tolerance u raw field t) (hp : numericBoundsFailure (.finite p) = none)
    (he : numericBoundsFailure (.finite e) = none) :
    ∃ b, compareNumeric u (.finite p) (.finite e) config = .ok b ∧
      (b = true ↔ |p.value - e.value| ≤ bound relative t e ∨
        roundDigits numericOperationPrecision |p.value - e.value| = bound relative t e) ∧
      (Fits numericOperationPrecision |p.value - e.value| → (b = true ↔ |p.value - e.value| ≤ bound relative t e)) := by
  have hfrom := normalizeNumericConfig_ok hconfig
  have hbounds : numericBoundsFailure (.finite t) = none := by
    obtain ⟨value, -, ht'⟩ := ht
    exact (configDecimal_ok ht').1
  obtain ⟨b, hb, hvalue⟩ := @withinTolerance_value u p e t relative hp he hbounds
  refine ⟨b, ?_, ?_, ?_⟩
  · unfold compareNumeric
    rw [if_neg (by simp [isNan])]
    cases hm : config.mode with
    | exact =>
      rw [hm] at hmode
      cases hmode
    | absoluteTolerance text =>
      rw [hm] at hmode hfrom
      cases hmode
      obtain ⟨t', ht', rfl⟩ := hfrom
      rw [ht'.unique ht]
      exact operated_ok hb
    | relativeTolerance text =>
      rw [hm] at hmode hfrom
      cases hmode
      obtain ⟨t', ht', rfl⟩ := hfrom
      rw [ht'.unique ht]
      exact operated_ok hb
  · rw [hvalue]
    exact roundDigits_le_iff (by decide) (bound_fits relative (bounded_of_none hbounds).1 (bounded_of_none he).1)
  · intro hfits
    rw [hvalue, roundDigits_of_fits hfits]

/-- A configuration whose absolute tolerance is a decimal. -/
def absoluteConfig (t : FiniteDecimal) : Table String Scalar := (∅ : Table String Scalar).set "absolute_tolerance" (.decimal (.finite t))

def toleranceConfig (tolerance : List Char) : NumericConfig :=
  { mode := .absoluteTolerance tolerance, allowSign := true, allowThousands := true, allowScientific := false,
    allowFraction := false, allowNonFinite := false }

theorem compare_tolerance_cents :
    ∃ b, compareNumeric Unicode.ascii (.finite ⟨false, 105, -2⟩) (.finite ⟨false, 1, 0⟩) (toleranceConfig "0.05".toList) = .ok b ∧
      (b = true ↔ |(⟨false, 105, -2⟩ : FiniteDecimal).value - (⟨false, 1, 0⟩ : FiniteDecimal).value| ≤
          bound false ⟨false, 5, -2⟩ ⟨false, 1, 0⟩ ∨
        roundDigits numericOperationPrecision |(⟨false, 105, -2⟩ : FiniteDecimal).value - (⟨false, 1, 0⟩ : FiniteDecimal).value| =
          bound false ⟨false, 5, -2⟩ ⟨false, 1, 0⟩) ∧
      (Fits numericOperationPrecision |(⟨false, 105, -2⟩ : FiniteDecimal).value - (⟨false, 1, 0⟩ : FiniteDecimal).value| →
        (b = true ↔ |(⟨false, 105, -2⟩ : FiniteDecimal).value - (⟨false, 1, 0⟩ : FiniteDecimal).value| ≤
          bound false ⟨false, 5, -2⟩ ⟨false, 1, 0⟩)) :=
  @compare_tolerance Unicode.ascii ⟨false, 105, -2⟩ ⟨false, 1, 0⟩ ⟨false, 5, -2⟩ (absoluteConfig ⟨false, 5, -2⟩)
    (toleranceConfig "0.05".toList) false "absolute_tolerance" (by decide +kernel) rfl
    ⟨.decimal (.finite ⟨false, 5, -2⟩), rfl, by decide +kernel⟩ (by decide +kernel) (by decide +kernel)

/-- A difference just above the tolerance is found to be within it: the digit that decides is the
two thousandth. -/
theorem tolerance_loses_digit : ¬ ∀ (raw : Table String Scalar) (config : NumericConfig) (t p e : FiniteDecimal),
    normalizeNumericConfig Unicode.ascii raw = .ok config → config.mode.tolerance? = some (false, "absolute_tolerance") →
    Tolerance Unicode.ascii raw "absolute_tolerance" t → numericBoundsFailure (.finite p) = none →
    numericBoundsFailure (.finite e) = none →
    (compareNumeric Unicode.ascii (.finite p) (.finite e) config = .ok true ↔ |p.value - e.value| ≤ t.value) := by
  intro h
  have hclaim := h (absoluteConfig ⟨false, 1, 1000⟩) (toleranceConfig ('1' :: List.replicate 1000 '0')) ⟨false, 1, 1000⟩
    ⟨false, 1, 1000⟩ ⟨true, 1, -1000⟩ (by decide +kernel) rfl
    ⟨.decimal (.finite ⟨false, 1, 1000⟩), rfl, by decide +kernel⟩ (by decide +kernel) (by decide +kernel)
  have hle := hclaim.1 (by decide +kernel)
  have hsmall := ten_zpow_pos (-1000)
  have hlarge := ten_zpow_pos 1000
  simp only [FiniteDecimal.value, FiniteDecimal.sign] at hle
  generalize (10 : ℚ) ^ (1000 : ℤ) = large at *
  generalize (10 : ℚ) ^ (-1000 : ℤ) = small at *
  have habs := le_abs_self (((if false = true then -1 else 1 : ℤ) : ℚ) * ((1 : ℕ) : ℚ) * large -
    ((if true = true then -1 else 1 : ℤ) : ℚ) * ((1 : ℕ) : ℚ) * small)
  simp only [Bool.false_eq_true, if_false, if_true, Int.cast_one, Int.cast_neg, Nat.cast_one, one_mul, mul_one] at hle habs
  linarith

end Motte.DirectLlm
