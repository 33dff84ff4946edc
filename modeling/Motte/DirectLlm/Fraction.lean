import Motte.DirectLlm.Tolerance

/-! Fractions.

A fraction is divided when it is parsed, to the digits a number may have. Fractions that
name one number are always found to be equal; equal quotients come from one number only as
long as the operands are small enough for the digits to tell them apart. -/
namespace Motte.DirectLlm
open Foundation

/-! ### Digits of any script -/

section
variable {u : Unicode} {c : Char} {text body : List Char} {n : ℕ}

theorem digit_not_sign (h : u.digit c = some n) : c ≠ '-' ∧ c ≠ '+' ∧ c ≠ '_' ∧ c ≠ '/' := by
  have hnone : ∀ {x : Char}, x.toNat < 128 → x.isDigit = false → c ≠ x := by
    rintro x hascii hdigit rfl
    rw [u.digit_ascii hascii, hdigit] at h
    cases h
  exact ⟨hnone (by decide) (by decide), hnone (by decide) (by decide), hnone (by decide) (by decide),
    hnone (by decide) (by decide)⟩

/-- A character that is a letter in lower case is one of ASCII's, and no digit. -/
theorem digit_not_letter {w : Char} (hw : w = 'i' ∨ w = 'n' ∨ w = 's') (h : u.digit c = some n) : c.toLower ≠ w := by
  intro hlower
  have hsmall : c.toNat < 128 ∧ c.isDigit = false := by
    unfold Char.toLower at hlower
    split at hlower
    · rename_i hupper
      have hge : 65 ≤ c.toNat := UInt32.le_iff_toNat_le.1 hupper.1
      have hle : c.toNat ≤ 90 := UInt32.le_iff_toNat_le.1 hupper.2
      refine ⟨by omega, ?_⟩
      unfold Char.isDigit
      rw [Bool.and_eq_false_iff]
      right
      refine decide_eq_false (fun hdigit => ?_)
      have hdigit' : c.toNat ≤ 57 := UInt32.le_iff_toNat_le.1 hdigit
      omega
    · rw [hlower]
      obtain rfl | rfl | rfl := hw <;> decide
  rw [u.digit_ascii hsmall.1, hsmall.2] at h
  cases h

theorem allDigits_iff : allDigits u text = true ↔ text ≠ [] ∧ ∀ c ∈ text, ∃ n, u.digit c = some n := by
  unfold allDigits Unicode.isDigit
  rw [Bool.and_eq_true, decide_eq_true_iff, List.all_eq_true]
  simp only [Option.isSome_iff_exists]

theorem readDigits_all (h : ∀ c ∈ text, ∃ n, u.digit c = some n) :
    ∃ digits, u.readDigits text = (digits, []) ∧ digits.length = text.length ∧ ∀ d ∈ digits, d < 10 := by
  induction text with
  | nil => exact ⟨[], rfl, rfl, by simp⟩
  | cons c text ih =>
    obtain ⟨n, hn⟩ := h c (.head _)
    obtain ⟨digits, hread, hlength, hlt⟩ := ih (fun c' hc' => h c' (List.mem_cons_of_mem _ hc'))
    refine ⟨n :: digits, ?_, by simp [hlength], ?_⟩
    · unfold Unicode.readDigits
      rw [hn, hread]
    · intro d hd
      obtain rfl | hd := List.mem_cons.1 hd
      · exact u.digit_lt hn
      · exact hlt d hd

/-- The whole number that a text of digits names, with its sign. -/
def wholeOf (u : Unicode) (text : List Char) : ℤ :=
  (if (readSign text).1 then -1 else 1) * (ofDigits (u.readDigits (readSign text).2).1 : ℤ)

theorem readSign_digits (h : allDigits u text = true) : readSign text = (false, text) := by
  obtain ⟨hne, hdigits⟩ := allDigits_iff.1 h
  cases text with
  | nil => exact absurd rfl hne
  | cons c text =>
    obtain ⟨n, hn⟩ := hdigits c (.head _)
    obtain ⟨hminus, hplus, -⟩ := digit_not_sign hn
    unfold readSign
    split
    · rename_i heq
      cases heq
      exact absurd rfl hminus
    · rename_i heq
      cases heq
      exact absurd rfl hplus
    · rfl

/-- Signs and digits are not stripped. -/
theorem strip_digits (h : allDigits u (readSign text).2 = true) : (u.strip text).filter (· ≠ '_') = text := by
  obtain ⟨hne, hdigits⟩ := allDigits_iff.1 h
  have hchar : ∀ c ∈ text, u.space c = false ∧ c ≠ '_' := by
    intro c hc
    have hcase : c = '-' ∨ c = '+' ∨ c ∈ (readSign text).2 := by
      cases text with
      | nil => cases hc
      | cons c' rest =>
        by_cases hminus : c' = '-'
        · obtain rfl | hc := List.mem_cons.1 hc
          · exact .inl hminus
          · rw [hminus]
            exact .inr (.inr hc)
        · by_cases hplus : c' = '+'
          · obtain rfl | hc := List.mem_cons.1 hc
            · exact .inr (.inl hplus)
            · rw [hplus]
              exact .inr (.inr hc)
          · have hplain : readSign (c' :: rest) = (false, c' :: rest) := by
              unfold readSign
              split <;> simp_all
            rw [hplain]
            exact .inr (.inr hc)
    obtain rfl | rfl | hc := hcase
    · exact ⟨by rw [u.space_ascii (by decide)]; decide, by decide⟩
    · exact ⟨by rw [u.space_ascii (by decide)]; decide, by decide⟩
    · obtain ⟨n, hn⟩ := hdigits c hc
      exact ⟨u.digit_space hn, (digit_not_sign hn).2.2.1⟩
  have hstrip : ∀ l : List Char, (∀ c ∈ l, c ∈ text) → l.dropWhile u.space = l := by
    intro l hl
    cases l with
    | nil => rfl
    | cons c l => rw [List.dropWhile_cons_of_neg (by rw [(hchar c (hl c (.head _))).1]; exact Bool.false_ne_true)]
  unfold Unicode.strip
  rw [hstrip text (fun c hc => hc), hstrip text.reverse (fun c hc => List.mem_reverse.1 hc), List.reverse_reverse,
    List.filter_eq_self]
  intro c hc
  simpa using (hchar c hc).2

/-- A signed text of digits is read as the whole number it names. -/
theorem ofText_digits (h : allDigits u (readSign text).2 = true) {x : Decimal} (hx : Decimal.ofText u text = .ok x) :
    ∃ y : FiniteDecimal, x = .finite y ∧ y.value = wholeOf u text ∧ y.exponent = 0 := by
  obtain ⟨hne, hdigits⟩ := allDigits_iff.1 h
  obtain ⟨digits, hread, hlength, hlt⟩ := readDigits_all hdigits
  have hwords : ∀ {w : Char} {word : List Char} (k : ℕ), w = 'i' ∨ w = 'n' ∨ w = 's' →
      lowered (readSign text).2 ≠ w :: word ∧ lowered ((readSign text).2.take (k + 1)) ≠ w :: word := by
    intro w word k hw
    cases hbody : (readSign text).2 with
    | nil => exact absurd hbody hne
    | cons c rest =>
      obtain ⟨n, hn⟩ := hdigits c (by rw [hbody]; exact .head _)
      unfold lowered
      exact ⟨fun heq => digit_not_letter hw hn (List.cons.inj heq).1, fun heq => digit_not_letter hw hn (List.cons.inj heq).1⟩
  have hdigits_ne : digits ≠ [] := by
    intro hnil
    rw [hnil, List.length_nil] at hlength
    exact hne (List.length_eq_zero_iff.1 hlength.symm)
  have hfinite : readFinite u (readSign text).1 (readSign text).2 =
      some { negative := (readSign text).1, coefficient := ofDigits digits, exponent := 0 } := by
    unfold readFinite
    rw [hread]
    simp [readFraction, readExponent, hdigits_ne]
  unfold Decimal.ofText at hx
  rw [strip_digits h] at hx
  have hinf : "inf".toList = ['i', 'n', 'f'] := rfl
  have hinfinity : "infinity".toList = ['i', 'n', 'f', 'i', 'n', 'i', 't', 'y'] := rfl
  have hnan : "nan".toList = ['n', 'a', 'n'] := rfl
  have hsnan : "snan".toList = ['s', 'n', 'a', 'n'] := rfl
  simp only [hinf, hinfinity, hnan, hsnan] at hx
  rw [if_neg (not_or.2 ⟨(hwords 0 (.inl rfl)).1, (hwords 0 (.inl rfl)).1⟩), if_neg (hwords 2 (.inr (.inl rfl))).2,
    if_neg (hwords 3 (.inr (.inr rfl))).2, hfinite] at hx
  simp only at hx
  split at hx
  · cases hx
    refine ⟨_, rfl, ?_, rfl⟩
    unfold FiniteDecimal.value FiniteDecimal.sign wholeOf
    rw [hread]
    simp
  · cases hx

end

/-! ### The quotient -/

section
variable {u : Unicode} {config : NumericConfig} {token : List Char} {x y : FiniteDecimal} {d : Decimal}

/-- The numerator and the denominator of a fraction. -/
def fractionOf (u : Unicode) (token : List Char) : ℤ × ℤ :=
  (wholeOf u (token.takeWhile (· ≠ '/')), wholeOf u ((token.dropWhile (· ≠ '/')).drop 1))

/-- The number that a fraction names. -/
def quotientOf (u : Unicode) (token : List Char) : ℚ := (fractionOf u token).1 / (fractionOf u token).2

theorem fractionParts_some {allowSign : Bool} {numerator denominator : List Char}
    (h : fractionParts u allowSign token = some (numerator, denominator)) :
    numerator = token.takeWhile (· ≠ '/') ∧ denominator = (token.dropWhile (· ≠ '/')).drop 1 ∧
      allDigits u (readSign numerator).2 = true ∧ allDigits u denominator = true := by
  unfold fractionParts at h
  simp only [Option.ite_none_right_eq_some, Option.some.injEq, Prod.mk.injEq, Bool.and_eq_true] at h
  obtain ⟨⟨hnumerator, hdenominator⟩, rfl, rfl⟩ := h
  refine ⟨rfl, rfl, ?_, hdenominator⟩
  cases allowSign with
  | true => exact hnumerator
  | false =>
    have hplain : allDigits u (token.takeWhile (· ≠ '/')) = true := hnumerator
    rw [readSign_digits hplain]
    exact hplain

/-- Whole numbers within bounds have quotients in the range of the division. -/
theorem whole_inRange (hx : Bounded x) (hy : Bounded y) (hxzero : x.exponent = 0) (hyzero : y.exponent = 0)
    (hxne : x.coefficient ≠ 0) (hyne : y.coefficient ≠ 0) :
    (numericContext numericDivisionPrecision).InRange (x.value / y.value) := by
  have hsize : ∀ {z : FiniteDecimal}, Bounded z → z.exponent = 0 → z.coefficient ≠ 0 →
      (1 : ℚ) ≤ |z.value| ∧ |z.value| ≤ (10 : ℚ) ^ (128 : ℤ) := by
    intro z hz hzero hne
    rw [z.abs_value, hzero, zpow_zero, mul_one]
    have hlt := (numDigits_le_iff (by decide)).1 hz.digits
    constructor
    · exact_mod_cast Nat.pos_of_ne_zero hne
    · exact_mod_cast hlt.le
  obtain ⟨hxlow, hxhigh⟩ := hsize hx hxzero hxne
  obtain ⟨hylow, hyhigh⟩ := hsize hy hyzero hyne
  have hypos : 0 < |y.value| := one_pos.trans_le hylow
  refine inRange_of numericDivisionPrecision (a := -128) (b := 129) (by norm_num) (by norm_num) ?_ ?_
  · rw [abs_div, le_div_iff₀ hypos]
    calc (10 : ℚ) ^ (-128 : ℤ) * |y.value| ≤ (10 : ℚ) ^ (-128 : ℤ) * (10 : ℚ) ^ (128 : ℤ) :=
          mul_le_mul_of_nonneg_left hyhigh (ten_zpow_pos _).le
      _ = 1 := by rw [← ten_zpow_add]; norm_num
      _ ≤ |x.value| := hxlow
  · rw [abs_div, div_lt_iff₀ hypos]
    calc |x.value| ≤ (10 : ℚ) ^ (128 : ℤ) := hxhigh
      _ < (10 : ℚ) ^ (129 : ℤ) := zpow_lt_zpow_right₀ (by norm_num) (by norm_num)
      _ ≤ (10 : ℚ) ^ (129 : ℤ) * |y.value| := le_mul_of_one_le_right (ten_zpow_pos _).le hylow

/-- A fraction is parsed as its quotient, rounded. -/
theorem parse_fraction (hslash : '/' ∈ token) (h : parseNumericToken u token config = .ok d) :
    ∃ x : FiniteDecimal, d = .finite x ∧ (fractionOf u token).2 ≠ 0 ∧
      x.value = roundDigits numericDivisionPrecision (quotientOf u token) := by
  unfold parseNumericToken at h
  have hfinite : token ∉ nonfiniteNumbers := by
    intro hmem
    have hnone : ∀ t ∈ nonfiniteNumbers, '/' ∉ t := by decide
    exact hnone token hmem hslash
  rw [if_neg hfinite, if_pos hslash] at h
  split at h
  · cases h
  · split at h
    · cases h
    · split at h
      · cases h
      · rename_i numerator denominator hparts
        obtain ⟨hnumerator, hdenominator, hndigits, hddigits⟩ := fractionParts_some hparts
        unfold parseFraction at h
        split at h
        · rename_i a b ha hb
          obtain ⟨a', rfl, havalue, hazero⟩ : ∃ a', a = a' ∧ a'.value = wholeOf u numerator ∧ a'.exponent = 0 := by
            obtain ⟨y, hy, hvalue, hexponent⟩ := ofText_digits hndigits ha
            cases hy
            exact ⟨_, rfl, hvalue, hexponent⟩
          obtain ⟨b', rfl, hbvalue, hbzero⟩ : ∃ b', b = b' ∧ b'.value = wholeOf u denominator ∧ b'.exponent = 0 := by
            have hsigned : allDigits u (readSign denominator).2 = true := by
              rw [readSign_digits hddigits]
              exact hddigits
            obtain ⟨y, hy, hvalue, hexponent⟩ := ofText_digits hsigned hb
            cases hy
            exact ⟨_, rfl, hvalue, hexponent⟩
          split at h
          · cases h
          · rename_i hbounds
            rw [Option.or_eq_none_iff] at hbounds
            split at h
            · cases h
            · rename_i hnonzero
              have hbne : b.coefficient ≠ 0 := by simpa [FiniteDecimal.isZero] using hnonzero
              obtain ⟨z, hz, hzvalue⟩ := DecimalContext.div_value (x := a) (y := b)
                (c := numericContext numericDivisionPrecision) (by decide) hbne (fun hane =>
                  whole_inRange (bounded_of_none hbounds.1).1 (bounded_of_none hbounds.2).1 hazero hbzero hane hbne)
              rw [hz] at h
              simp only at h
              split at h
              · cases h
              · cases h
                refine ⟨z, rfl, ?_, ?_⟩
                · have hvalue := FiniteDecimal.value_eq_zero.ne.2 hbne
                  rw [hbvalue, hdenominator] at hvalue
                  exact Int.cast_ne_zero.1 hvalue
                · rw [hzvalue, havalue, hbvalue, hnumerator, hdenominator]
                  rfl
        · cases h

/-! ### Equality -/

/-- Two quotients that are rounded alike are one, when the cross products are below the digits kept. -/
theorem cross_of_round {p : ℕ} {a b c d : ℤ} (hb : b ≠ 0) (hd : d ≠ 0)
    (h : roundDigits p ((a : ℚ) / b) = roundDigits p ((c : ℚ) / d))
    (had : |a * d| < 10 ^ (p - 1)) (hcb : |c * b| < 10 ^ (p - 1)) (hp : 0 < p) : a * d = c * b := by
  have hb' : (b : ℚ) ≠ 0 := Int.cast_ne_zero.2 hb
  have hd' : (d : ℚ) ≠ 0 := Int.cast_ne_zero.2 hd
  have hsize : (0 : ℚ) < |(b : ℚ) * d| := abs_pos.2 (mul_ne_zero hb' hd')
  have hfirst := roundDigits_error p ((a : ℚ) / b)
  have hsecond := roundDigits_error p ((c : ℚ) / d)
  rw [← h] at hsecond
  have hten : (10 : ℚ) ^ (p - 1 : ℤ) = (10 : ℚ) ^ (p - 1 : ℕ) := by
    rw [← zpow_natCast]
    congr 1
    omega
  rw [hten] at hfirst hsecond
  have htriangle := abs_sub_le ((a : ℚ) / b) (roundDigits p ((a : ℚ) / b)) ((c : ℚ) / d)
  rw [abs_sub_comm (roundDigits p ((a : ℚ) / b))] at htriangle
  have hcross : (a : ℚ) / b - c / d = ((a * d - c * b : ℤ) : ℚ) / (b * d) := by
    push_cast
    field_simp
  have hleft : |(a : ℚ) / b| = |((a * d : ℤ) : ℚ)| / |(b : ℚ) * d| := by
    rw [← abs_div]
    congr 1
    push_cast
    field_simp
  have hright : |(c : ℚ) / d| = |((c * b : ℤ) : ℚ)| / |(b : ℚ) * d| := by
    rw [← abs_div]
    congr 1
    push_cast
    field_simp
  have hpow : (0 : ℚ) < 10 ^ (p - 1) := by positivity
  have hsum : 2 * (10 : ℚ) ^ (p - 1) * |(a : ℚ) / b - c / d| ≤ |(a : ℚ) / b| + |(c : ℚ) / d| :=
    calc 2 * (10 : ℚ) ^ (p - 1) * |(a : ℚ) / b - c / d|
        ≤ 2 * (10 : ℚ) ^ (p - 1) * (|(a : ℚ) / b - roundDigits p ((a : ℚ) / b)| + |(c : ℚ) / d - roundDigits p ((a : ℚ) / b)|) :=
          mul_le_mul_of_nonneg_left htriangle (by positivity)
      _ ≤ |(a : ℚ) / b| + |(c : ℚ) / d| := by
          rw [mul_add]
          exact add_le_add hfirst hsecond
  rw [hcross, abs_div, hleft, hright, ← add_div, ← mul_div_assoc, div_le_div_iff_of_pos_right hsize] at hsum
  have hint : 2 * 10 ^ (p - 1) * |a * d - c * b| ≤ |a * d| + |c * b| := by exact_mod_cast hsum
  by_contra hne
  have hone : 1 ≤ |a * d - c * b| := Int.one_le_abs (sub_ne_zero.2 hne)
  have hbig : 2 * 10 ^ (p - 1) ≤ 2 * 10 ^ (p - 1) * |a * d - c * b| := le_mul_of_one_le_right (by positivity) hone
  linarith

/-- Comparing two finite numbers exactly is comparing their values. -/
theorem compare_exact (hmode : config.mode = .exact) (x y : FiniteDecimal) :
    ∃ r, compareNumeric u (.finite x) (.finite y) config = .ok r ∧ (r = true ↔ x.value = y.value) := by
  refine ⟨x.equals y, ?_, FiniteDecimal.equals_iff⟩
  unfold compareNumeric
  rw [if_neg (by simp [isNan]), hmode]
  rfl

/-- In exact mode a fraction stands for its rounded quotient. Two fractions are equal exactly when
their quotients are rounded alike: always when the cross products are equal, and only then when the
cross products are below `10 ^ 127`. A fraction equals a decimal exactly when the decimal is the
rounded quotient: exactly when both name one number, if the quotient has no more digits than are kept. -/
theorem fraction_compare {s t : List Char} {d d' : Decimal} (hmode : config.mode = .exact) (hs : '/' ∈ s)
    (hx : parseNumericToken u s config = .ok d) (hy : parseNumericToken u t config = .ok d') :
    ('/' ∈ t → ∃ r, compareNumeric u d d' config = .ok r ∧
      (r = true ↔ roundDigits numericDivisionPrecision (quotientOf u s) = roundDigits numericDivisionPrecision (quotientOf u t)) ∧
      ((fractionOf u s).1 * (fractionOf u t).2 = (fractionOf u t).1 * (fractionOf u s).2 → r = true) ∧
      (|(fractionOf u s).1 * (fractionOf u t).2| < 10 ^ 127 → |(fractionOf u t).1 * (fractionOf u s).2| < 10 ^ 127 →
        (r = true ↔ (fractionOf u s).1 * (fractionOf u t).2 = (fractionOf u t).1 * (fractionOf u s).2))) ∧
    (∀ y : FiniteDecimal, '/' ∉ t → d' = .finite y → ∃ r, compareNumeric u d d' config = .ok r ∧
      compareNumeric u d' d config = .ok r ∧
      (r = true ↔ roundDigits numericDivisionPrecision (quotientOf u s) = y.value) ∧
      (Fits numericDivisionPrecision (quotientOf u s) → (r = true ↔ quotientOf u s = y.value))) := by
  obtain ⟨x, rfl, hsne, hxvalue⟩ := parse_fraction hs hx
  constructor
  · intro ht
    obtain ⟨y, rfl, htne, hyvalue⟩ := parse_fraction ht hy
    obtain ⟨r, hr, hequal⟩ := compare_exact (u := u) hmode x y
    rw [hxvalue, hyvalue] at hequal
    have hexact : (fractionOf u s).1 * (fractionOf u t).2 = (fractionOf u t).1 * (fractionOf u s).2 → r = true := by
      intro hcross
      have hquotient : quotientOf u s = quotientOf u t := by
        unfold quotientOf
        rw [div_eq_div_iff (Int.cast_ne_zero.2 hsne) (Int.cast_ne_zero.2 htne)]
        exact_mod_cast hcross
      rw [hequal, hquotient]
    refine ⟨r, hr, hequal, hexact, fun hsmall hsmall' => ⟨fun htrue => ?_, hexact⟩⟩
    exact cross_of_round hsne htne (hequal.1 htrue) hsmall hsmall' (by decide)
  · rintro y - rfl
    obtain ⟨r, hr, hequal⟩ := compare_exact (u := u) hmode x y
    obtain ⟨r', hr', hequal'⟩ := compare_exact (u := u) hmode y x
    have hsame : r = r' := by
      rw [Bool.eq_iff_iff, hequal, hequal', eq_comm]
    rw [hxvalue] at hequal
    refine ⟨r, hr, hsame ▸ hr', hequal, fun hfits => ?_⟩
    rw [hequal, roundDigits_of_fits hfits]

end

/-- A configuration that compares exactly and reads fractions. -/
def exactFractions : NumericConfig where
  mode := .exact
  allowSign := true
  allowThousands := true
  allowScientific := false
  allowFraction := true
  allowNonFinite := false

theorem fraction_compare_halves :
    ('/' ∈ "2/4".toList → ∃ r, compareNumeric Unicode.ascii (.finite ⟨false, 5, -1⟩) (.finite ⟨false, 5, -1⟩) exactFractions = .ok r ∧
      (r = true ↔ roundDigits numericDivisionPrecision (quotientOf Unicode.ascii "1/2".toList) =
        roundDigits numericDivisionPrecision (quotientOf Unicode.ascii "2/4".toList)) ∧
      ((fractionOf Unicode.ascii "1/2".toList).1 * (fractionOf Unicode.ascii "2/4".toList).2 =
        (fractionOf Unicode.ascii "2/4".toList).1 * (fractionOf Unicode.ascii "1/2".toList).2 → r = true) ∧
      (|(fractionOf Unicode.ascii "1/2".toList).1 * (fractionOf Unicode.ascii "2/4".toList).2| < 10 ^ 127 →
        |(fractionOf Unicode.ascii "2/4".toList).1 * (fractionOf Unicode.ascii "1/2".toList).2| < 10 ^ 127 →
        (r = true ↔ (fractionOf Unicode.ascii "1/2".toList).1 * (fractionOf Unicode.ascii "2/4".toList).2 =
          (fractionOf Unicode.ascii "2/4".toList).1 * (fractionOf Unicode.ascii "1/2".toList).2))) ∧
    (∀ y : FiniteDecimal, '/' ∉ "2/4".toList → Decimal.finite ⟨false, 5, -1⟩ = .finite y →
      ∃ r, compareNumeric Unicode.ascii (.finite ⟨false, 5, -1⟩) (.finite ⟨false, 5, -1⟩) exactFractions = .ok r ∧
      compareNumeric Unicode.ascii (.finite ⟨false, 5, -1⟩) (.finite ⟨false, 5, -1⟩) exactFractions = .ok r ∧
      (r = true ↔ roundDigits numericDivisionPrecision (quotientOf Unicode.ascii "1/2".toList) = y.value) ∧
      (Fits numericDivisionPrecision (quotientOf Unicode.ascii "1/2".toList) →
        (r = true ↔ quotientOf Unicode.ascii "1/2".toList = y.value))) :=
  fraction_compare rfl (by decide) (by decide +kernel) (by decide +kernel)

/-- `10 ^ 126 / (10 ^ 126 + 1)` and `(10 ^ 126 + 1) / (10 ^ 126 + 2)`. -/
def closeFraction : List Char := ('1' :: List.replicate 126 '0') ++ '/' :: ('1' :: List.replicate 125 '0' ++ ['1'])
def closeFraction' : List Char :=
  ('1' :: List.replicate 125 '0' ++ ['1']) ++ '/' :: ('1' :: List.replicate 125 '0' ++ ['2'])

/-- Two fractions that name different numbers are found to be equal, and a third is found to be a
decimal of as many digits as are kept. -/
theorem fractions_rounded_together :
    (¬ ∀ (s t : List Char) (d d' : Decimal), '/' ∈ s → '/' ∈ t →
      parseNumericToken Unicode.ascii s exactFractions = .ok d → parseNumericToken Unicode.ascii t exactFractions = .ok d' →
      (compareNumeric Unicode.ascii d d' exactFractions = .ok true ↔
        (fractionOf Unicode.ascii s).1 * (fractionOf Unicode.ascii t).2 =
          (fractionOf Unicode.ascii t).1 * (fractionOf Unicode.ascii s).2)) ∧
    ¬ ∀ (s t : List Char) (d : Decimal) (y : FiniteDecimal), '/' ∈ s → '/' ∉ t →
      parseNumericToken Unicode.ascii s exactFractions = .ok d →
      parseNumericToken Unicode.ascii t exactFractions = .ok (.finite y) →
      (compareNumeric Unicode.ascii d (.finite y) exactFractions = .ok true ↔ quotientOf Unicode.ascii s = y.value) := by
  constructor
  · intro h
    have hclaim := h closeFraction closeFraction' (.finite ⟨false, (10 ^ 126 - 1) * 100, -128⟩)
      (.finite ⟨false, (10 ^ 126 - 1) * 100, -128⟩) (by decide +kernel) (by decide +kernel) (by decide +kernel) (by decide +kernel)
    have hne : ¬ (fractionOf Unicode.ascii closeFraction).1 * (fractionOf Unicode.ascii closeFraction').2 =
        (fractionOf Unicode.ascii closeFraction').1 * (fractionOf Unicode.ascii closeFraction).2 := by decide +kernel
    exact hne (hclaim.1 (by decide +kernel))
  · intro h
    have hclaim := h "1/3".toList ('0' :: '.' :: List.replicate 128 '3') (.finite ⟨false, (10 ^ 128 - 1) / 3, -128⟩)
      ⟨false, (10 ^ 128 - 1) / 3, -128⟩ (by decide +kernel) (by decide +kernel) (by decide +kernel) (by decide +kernel)
    have hequal := hclaim.1 (by decide +kernel)
    have hthird : quotientOf Unicode.ascii "1/3".toList = 1 / 3 := by
      have hparts : fractionOf Unicode.ascii "1/3".toList = (1, 3) := by decide +kernel
      unfold quotientOf
      rw [hparts]
      norm_num
    rw [hthird] at hequal
    revert hequal
    unfold FiniteDecimal.value FiniteDecimal.sign
    norm_num

end Motte.DirectLlm
