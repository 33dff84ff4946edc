import Mathlib.Data.Nat.Cast.Field
import Mathlib.Data.Nat.Cast.Order.Field
import Mathlib.Data.Nat.Log
import Motte.Foundation.Rounding

/-! Decimal floating-point arithmetic.

A finite decimal is a sign, a coefficient and an exponent. An operation computes the exact
result and brings it into its context: rounded to the context's digits, or refused when the
exponent leaves the context's range. In range, each operation gives the rounded value of
the exact result. -/
namespace Motte.Foundation

/-! ### Numbers -/

structure FiniteDecimal where
  negative : Bool
  coefficient : ℕ
  exponent : ℤ
deriving DecidableEq, Repr

/-- The number of digits of a coefficient; nothing has one. -/
def numDigits (n : ℕ) : ℕ := Nat.log 10 n + 1

namespace FiniteDecimal

def sign (x : FiniteDecimal) : ℤ := if x.negative then -1 else 1

def value (x : FiniteDecimal) : ℚ := x.sign * x.coefficient * (10 : ℚ) ^ x.exponent

def isZero (x : FiniteDecimal) : Bool := x.coefficient = 0

/-- The signed coefficient at a lower exponent. -/
def scaled (x : FiniteDecimal) (e : ℤ) : ℤ := x.sign * x.coefficient * 10 ^ (x.exponent - e).toNat

def equals (x y : FiniteDecimal) : Bool :=
  x.scaled (min x.exponent y.exponent) = y.scaled (min x.exponent y.exponent)

def atMost (x y : FiniteDecimal) : Bool :=
  x.scaled (min x.exponent y.exponent) ≤ y.scaled (min x.exponent y.exponent)

/-- `x - y`, without rounding. -/
def exactSub (x y : FiniteDecimal) : FiniteDecimal :=
  let e := min x.exponent y.exponent
  let z := x.scaled e - y.scaled e
  { negative := if z = 0 then x.negative && !y.negative else z < 0, coefficient := z.natAbs, exponent := e }

/-- `x * y`, without rounding. -/
def exactMul (x y : FiniteDecimal) : FiniteDecimal :=
  { negative := x.negative ^^ y.negative, coefficient := x.coefficient * y.coefficient,
    exponent := x.exponent + y.exponent }

end FiniteDecimal

/-! ### Operations -/

/-- The signals that raise. -/
inductive DecimalException where
  | invalidOperation
  | divisionByZero
  | overflow
deriving DecidableEq, Repr

structure DecimalContext where
  prec : ℕ
  emin : ℤ
  emax : ℤ

namespace DecimalContext

def etiny (c : DecimalContext) : ℤ := c.emin - (c.prec - 1)

def etop (c : DecimalContext) : ℤ := c.emax - (c.prec - 1)

/-- The exponent at which a result has the digits of the context. -/
def rounding (c : DecimalContext) (x : FiniteDecimal) : ℤ := numDigits x.coefficient + x.exponent - c.prec

/-- A result, brought into the context. -/
def fix (c : DecimalContext) (x : FiniteDecimal) : Except DecimalException FiniteDecimal :=
  if x.coefficient = 0 then .ok { x with exponent := min (max x.exponent c.etiny) c.emax }
  else if c.etop < c.rounding x then .error .overflow
  else
    let least := max (c.rounding x) c.etiny
    if least ≤ x.exponent then .ok x
    else
      let kept := halfEven x.coefficient (10 ^ (least - x.exponent).toNat)
      if c.prec < numDigits kept then
        if c.etop < least + 1 then .error .overflow
        else .ok { x with coefficient := kept / 10, exponent := least + 1 }
      else .ok { x with coefficient := kept, exponent := least }

def sub (c : DecimalContext) (x y : FiniteDecimal) : Except DecimalException FiniteDecimal := c.fix (x.exactSub y)

def mul (c : DecimalContext) (x y : FiniteDecimal) : Except DecimalException FiniteDecimal := c.fix (x.exactMul y)

def abs (c : DecimalContext) (x : FiniteDecimal) : Except DecimalException FiniteDecimal :=
  c.fix { x with negative := false }

/-- The zeros at the end of an exact quotient are dropped, as far as the ideal exponent. -/
def towardIdeal : ℕ → ℕ → ℤ → ℕ × ℤ
  | 0, coefficient, exponent => (coefficient, exponent)
  | n + 1, coefficient, exponent =>
    if coefficient % 10 = 0 then towardIdeal n (coefficient / 10) (exponent + 1) else (coefficient, exponent)

/-- The dividend and the divisor, shifted so that the quotient has more digits than the context. -/
def shifted (x y : ℕ) (shift : ℤ) : ℕ × ℕ :=
  if 0 ≤ shift then (x * 10 ^ shift.toNat, y) else (x, y * 10 ^ (-shift).toNat)

/-- The quotient that is not exact, moved off the multiples of five: it must not look like one that
lies half way between two others. -/
def sticky (dividend divisor : ℕ) : ℕ :=
  if dividend / divisor % 5 = 0 then dividend / divisor + 1 else dividend / divisor

def div (c : DecimalContext) (x y : FiniteDecimal) : Except DecimalException FiniteDecimal :=
  let negative := x.negative ^^ y.negative
  if y.coefficient = 0 then .error (if x.coefficient = 0 then .invalidOperation else .divisionByZero)
  else if x.coefficient = 0 then c.fix { negative, coefficient := 0, exponent := x.exponent - y.exponent }
  else
    let shift : ℤ := numDigits y.coefficient - numDigits x.coefficient + c.prec + 1
    let (dividend, divisor) := shifted x.coefficient y.coefficient shift
    let exponent := x.exponent - y.exponent - shift
    if dividend % divisor = 0 then
      let (coefficient, exponent) := towardIdeal shift.toNat (dividend / divisor) exponent
      c.fix { negative, coefficient, exponent }
    else c.fix { negative, coefficient := sticky dividend divisor, exponent }

end DecimalContext

/-! ### Digits -/

theorem lt_pow_numDigits (n : ℕ) : n < 10 ^ numDigits n := Nat.lt_pow_succ_log_self (by norm_num) n

theorem pow_numDigits_le {n : ℕ} (h : n ≠ 0) : 10 ^ (numDigits n - 1) ≤ n := Nat.pow_log_le_self 10 h

theorem numDigits_pos (n : ℕ) : 0 < numDigits n := Nat.succ_pos _

theorem numDigits_le_iff {n p : ℕ} (hp : 0 < p) : numDigits n ≤ p ↔ n < 10 ^ p := by
  unfold numDigits
  rw [Nat.add_one_le_iff]
  by_cases hn : n = 0
  · rw [hn, Nat.log_zero_right]
    exact ⟨fun _ => Nat.pow_pos (by norm_num), fun _ => hp⟩
  · exact Nat.log_lt_iff_lt_pow (by norm_num) hn

namespace FiniteDecimal
variable {x y : FiniteDecimal} {e : ℤ}

theorem scaled_value (h : e ≤ x.exponent) : (x.scaled e : ℚ) * (10 : ℚ) ^ e = x.value := by
  have hpow := ten_zpow_int (e := x.exponent - e) (by omega)
  push_cast at hpow
  unfold scaled value
  push_cast
  rw [← hpow, mul_assoc, ← ten_zpow_add, sub_add_cancel]

theorem equals_iff : x.equals y = true ↔ x.value = y.value := by
  unfold equals
  rw [decide_eq_true_iff, ← scaled_value (min_le_left x.exponent y.exponent),
    ← scaled_value (min_le_right x.exponent y.exponent), mul_left_inj' (ten_zpow_pos _).ne', Int.cast_inj]

theorem atMost_iff : x.atMost y = true ↔ x.value ≤ y.value := by
  unfold atMost
  rw [decide_eq_true_iff, ← scaled_value (min_le_left x.exponent y.exponent),
    ← scaled_value (min_le_right x.exponent y.exponent), mul_le_mul_iff_left₀ (ten_zpow_pos _), Int.cast_le]

theorem sign_natAbs (z : ℤ) (zero : Bool) : (if (if z = 0 then zero else decide (z < 0)) = true then (-1 : ℤ) else 1) * z.natAbs = z := by
  obtain hz | hz | hz := lt_trichotomy z 0
  · simp only [hz.ne, hz, if_false, decide_true, if_true]
    omega
  · simp [hz]
  · simp only [hz.ne', not_lt.2 hz.le, if_false, decide_false, Bool.false_eq_true]
    omega

theorem exactSub_value (x y : FiniteDecimal) : (x.exactSub y).value = x.value - y.value := by
  rw [← scaled_value (min_le_left x.exponent y.exponent), ← scaled_value (min_le_right x.exponent y.exponent), ← sub_mul]
  unfold value sign exactSub
  simp only
  rw [← Int.cast_natCast (R := ℚ), ← Int.cast_mul, sign_natAbs, Int.cast_sub]

theorem exactMul_value (x y : FiniteDecimal) : (x.exactMul y).value = x.value * y.value := by
  have hsign : ((x.exactMul y).sign : ℚ) = x.sign * y.sign := by
    unfold sign exactMul
    cases x.negative <;> cases y.negative <;> norm_num
  unfold value
  rw [hsign]
  unfold exactMul
  rw [ten_zpow_add]
  push_cast
  ring

theorem sign_cases (x : FiniteDecimal) : x.sign = 1 ∨ x.sign = -1 := by
  unfold sign
  split
  · exact .inr rfl
  · exact .inl rfl

theorem abs_value (x : FiniteDecimal) : |x.value| = x.coefficient * (10 : ℚ) ^ x.exponent := by
  have hsize : (0 : ℚ) ≤ x.coefficient * (10 : ℚ) ^ x.exponent :=
    mul_nonneg (Nat.cast_nonneg _) (ten_zpow_pos _).le
  unfold value
  rw [mul_assoc, abs_mul, abs_of_nonneg hsize]
  obtain h | h := x.sign_cases <;> rw [h] <;> simp

theorem value_unsigned (x : FiniteDecimal) : ({ x with negative := false } : FiniteDecimal).value = |x.value| := by
  rw [abs_value]
  simp [value, sign]

theorem value_eq_zero : x.value = 0 ↔ x.coefficient = 0 := by
  rw [← abs_eq_zero, abs_value, mul_eq_zero, Nat.cast_eq_zero]
  simp [(ten_zpow_pos x.exponent).ne']

/-- A number with few digits in its coefficient has few significant digits. -/
theorem fits {p : ℕ} (hp : 0 < p) (h : numDigits x.coefficient ≤ p) : Fits p x.value := by
  refine ⟨x.sign * x.coefficient, x.exponent, ?_, ?_⟩
  · have hlt : (x.coefficient : ℤ) < 10 ^ p := by exact_mod_cast (numDigits_le_iff hp).1 h
    obtain hs | hs := x.sign_cases <;> rw [hs] <;> simpa [abs_mul] using hlt
  · unfold value
    push_cast
    rfl

theorem log_value (h : x.coefficient ≠ 0) : Int.log 10 |x.value| = numDigits x.coefficient - 1 + x.exponent := by
  have hlow : ((10 ^ (numDigits x.coefficient - 1) : ℕ) : ℚ) ≤ x.coefficient := Nat.cast_le.2 (pow_numDigits_le h)
  have hhigh : (x.coefficient : ℚ) < ((10 ^ numDigits x.coefficient : ℕ) : ℚ) := Nat.cast_lt.2 (lt_pow_numDigits _)
  have hpos := numDigits_pos x.coefficient
  push_cast at hlow hhigh
  rw [← zpow_natCast] at hlow hhigh
  have hone : ((numDigits x.coefficient - 1 : ℕ) : ℤ) = numDigits x.coefficient - 1 := by omega
  rw [hone] at hlow
  apply log_eq
  · rw [abs_value, ten_zpow_add]
    exact mul_le_mul_of_nonneg_right hlow (ten_zpow_pos _).le
  · have hsum : (numDigits x.coefficient : ℤ) - 1 + x.exponent + 1 = numDigits x.coefficient + x.exponent := by ring
    rw [abs_value, hsum, ten_zpow_add]
    exact mul_lt_mul_of_pos_right hhigh (ten_zpow_pos _)

end FiniteDecimal

namespace DecimalContext
variable {c : DecimalContext} {x y : FiniteDecimal}

/-- The value neither underflows nor overflows. -/
structure InRange (c : DecimalContext) (v : ℚ) : Prop where
  low : (10 : ℚ) ^ c.emin ≤ |v|
  high : |v| < (10 : ℚ) ^ c.emax

theorem inRange_of_log {v : ℚ} (hv : v ≠ 0) (hlow : c.emin ≤ Int.log 10 |v|) (hhigh : Int.log 10 |v| < c.emax) :
    c.InRange v := by
  have hpos := abs_pos.2 hv
  constructor
  · exact_mod_cast (Int.zpow_le_iff_le_log (b := 10) (by norm_num) hpos).2 hlow
  · exact_mod_cast (Int.lt_zpow_iff_log_lt (b := 10) (by norm_num) hpos).2 hhigh

theorem InRange.log {v : ℚ} (h : c.InRange v) : v ≠ 0 ∧ c.emin ≤ Int.log 10 |v| ∧ Int.log 10 |v| < c.emax := by
  have hpos : 0 < |v| := (ten_zpow_pos _).trans_le h.low
  refine ⟨abs_pos.1 hpos, ?_, ?_⟩
  · exact (Int.zpow_le_iff_le_log (b := 10) (by norm_num) hpos).1 (by exact_mod_cast h.low)
  · exact (Int.lt_zpow_iff_log_lt (b := 10) (by norm_num) hpos).1 (by exact_mod_cast h.high)

theorem rounding_eq (h : x.coefficient ≠ 0) : c.rounding x = lastPlace c.prec x.value := by
  unfold rounding lastPlace
  rw [FiniteDecimal.log_value h]
  ring

theorem InRange.rounding (hx : x.coefficient ≠ 0) (h : c.InRange x.value) :
    c.etiny ≤ c.rounding x ∧ c.rounding x < c.etop := by
  obtain ⟨-, hlow, hhigh⟩ := h.log
  rw [rounding_eq hx]
  unfold etiny etop lastPlace
  omega

theorem halfEven_le {n p k : ℕ} (h : n < 10 ^ (p + k)) : halfEven n (10 ^ k) ≤ 10 ^ p := by
  have hpos : 0 < 10 ^ k := Nat.pow_pos (by norm_num)
  have hcast : ((halfEven n (10 ^ k) : ℕ) : ℤ) ≤ ((10 ^ p : ℕ) : ℤ) := by
    rw [halfEven_eq hpos]
    apply nearestEven_le
    rw [div_le_iff₀ (Nat.cast_pos.2 hpos)]
    have hle : n ≤ 10 ^ p * 10 ^ k := by
      rw [← Nat.pow_add]
      exact h.le
    exact_mod_cast hle
  exact_mod_cast hcast

/-- In range, a result is rounded to the digits of the context. -/
theorem fix_value (hp : 0 < c.prec) (h : x.coefficient ≠ 0 → c.InRange x.value) :
    ∃ y, c.fix x = .ok y ∧ y.value = roundDigits c.prec x.value := by
  by_cases hzero : x.coefficient = 0
  · unfold fix
    rw [if_pos hzero]
    refine ⟨_, rfl, ?_⟩
    rw [FiniteDecimal.value_eq_zero.2 hzero, roundDigits_zero]
    exact FiniteDecimal.value_eq_zero.2 hzero
  · obtain ⟨hlow, hhigh⟩ := (h hzero).rounding hzero
    have hleast : max (c.rounding x) c.etiny = c.rounding x := max_eq_left hlow
    unfold fix
    rw [if_neg hzero, if_neg (not_lt.2 hhigh.le)]
    simp only [hleast]
    by_cases hfits : c.rounding x ≤ x.exponent
    · rw [if_pos hfits]
      have hdigits : numDigits x.coefficient ≤ c.prec := by
        unfold rounding at hfits
        omega
      exact ⟨x, rfl, (roundDigits_of_fits (FiniteDecimal.fits hp hdigits)).symm⟩
    · rw [if_neg hfits]
      obtain ⟨k, hk⟩ : ∃ k : ℕ, c.rounding x = x.exponent + k := ⟨(c.rounding x - x.exponent).toNat, by omega⟩
      have hk' : (c.rounding x - x.exponent).toNat = k := by omega
      have hpow : 0 < 10 ^ k := Nat.pow_pos (by norm_num)
      have hdigits : numDigits x.coefficient = c.prec + k := by
        unfold rounding at hk
        omega
      have hle : halfEven x.coefficient (10 ^ k) ≤ 10 ^ c.prec :=
        halfEven_le (by rw [← hdigits]; exact lt_pow_numDigits _)
      -- the digits that are kept
      have hkept : x.sign * (halfEven x.coefficient (10 ^ k) : ℚ) * (10 : ℚ) ^ (c.rounding x) = roundDigits c.prec x.value := by
        have hquotient : x.value / (10 : ℚ) ^ (c.rounding x) = x.sign * (x.coefficient / ((10 ^ k : ℕ) : ℚ)) := by
          rw [hk, ten_zpow_add, FiniteDecimal.value]
          rw [zpow_natCast]
          push_cast
          have hne := (ten_zpow_pos x.exponent).ne'
          field_simp
        have hround : (nearestEven (x.sign * (x.coefficient / ((10 ^ k : ℕ) : ℚ))) : ℚ) =
            x.sign * (halfEven x.coefficient (10 ^ k) : ℚ) := by
          rw [← Int.cast_natCast (R := ℚ) (halfEven _ _), halfEven_eq hpow]
          obtain hs | hs := x.sign_cases
          · rw [hs, Int.cast_one, one_mul, one_mul]
          · rw [hs, Int.cast_neg, Int.cast_one, neg_one_mul, neg_one_mul, nearestEven_neg, Int.cast_neg]
        unfold roundDigits
        rw [← rounding_eq hzero, hquotient, hround]
      rw [hk']
      by_cases hcarry : c.prec < numDigits (halfEven x.coefficient (10 ^ k))
      · -- all digits were nines
        have hfull : halfEven x.coefficient (10 ^ k) = 10 ^ c.prec := by
          refine le_antisymm hle (not_lt.1 (fun hlt => ?_))
          exact absurd ((numDigits_le_iff hp).2 hlt) (not_le.2 hcarry)
        have hten : 10 ^ c.prec / 10 = 10 ^ (c.prec - 1) := by
          rw [Nat.div_eq_iff_eq_mul_left (by norm_num) (dvd_pow_self 10 hp.ne')]
          exact (Nat.pow_pred_mul hp).symm
        rw [if_pos hcarry, if_neg (by omega)]
        refine ⟨_, rfl, ?_⟩
        rw [← hkept, hfull, hten]
        unfold FiniteDecimal.value FiniteDecimal.sign
        have hpred : (10 : ℚ) ^ c.prec = (10 : ℚ) ^ (c.prec - 1) * 10 := (pow_sub_one_mul hp.ne' 10).symm
        rw [ten_zpow_add, zpow_one]
        push_cast
        rw [hpred]
        ring
      · rw [if_neg hcarry]
        refine ⟨_, rfl, ?_⟩
        rw [← hkept]
        rfl

/-- What fits into the digits of the context is not rounded. -/
theorem fix_fits (hp : 0 < c.prec) (hfits : Fits c.prec x.value) (h : x.value ≠ 0 → c.InRange x.value) :
    ∃ y, c.fix x = .ok y ∧ y.value = x.value := by
  obtain ⟨y, hy, hvalue⟩ := fix_value hp (fun hne => h (FiniteDecimal.value_eq_zero.ne.2 hne))
  exact ⟨y, hy, hvalue.trans (roundDigits_of_fits hfits)⟩

/-- In range, a difference is rounded to the digits of the context. -/
theorem sub_value (hp : 0 < c.prec) (h : x.value - y.value ≠ 0 → c.InRange (x.value - y.value)) :
    ∃ z, c.sub x y = .ok z ∧ z.value = roundDigits c.prec (x.value - y.value) := by
  have hexact := FiniteDecimal.exactSub_value x y
  obtain ⟨z, hz, hvalue⟩ := fix_value (x := x.exactSub y) hp (fun hne => by
    have hne' := FiniteDecimal.value_eq_zero.ne.2 hne
    rw [hexact] at hne' ⊢
    exact h hne')
  rw [hexact] at hvalue
  exact ⟨z, hz, hvalue⟩

theorem abs_fits (hp : 0 < c.prec) (hfits : Fits c.prec |x.value|) (h : x.value ≠ 0 → c.InRange |x.value|) :
    ∃ y, c.abs x = .ok y ∧ y.value = |x.value| := by
  rw [← x.value_unsigned] at hfits ⊢
  refine fix_fits hp hfits (fun hne => ?_)
  rw [x.value_unsigned] at hne ⊢
  exact h (abs_ne_zero.1 hne)

theorem mul_fits (hp : 0 < c.prec) (hfits : Fits c.prec (x.value * y.value))
    (h : x.value * y.value ≠ 0 → c.InRange (x.value * y.value)) :
    ∃ z, c.mul x y = .ok z ∧ z.value = x.value * y.value := by
  rw [← FiniteDecimal.exactMul_value] at hfits h ⊢
  exact fix_fits hp hfits h

/-! ### Division -/

theorem towardIdeal_value (n coefficient : ℕ) (exponent : ℤ) :
    ((towardIdeal n coefficient exponent).1 : ℚ) * (10 : ℚ) ^ (towardIdeal n coefficient exponent).2 =
      coefficient * (10 : ℚ) ^ exponent := by
  induction n generalizing coefficient exponent with
  | zero => rfl
  | succ n ih =>
    unfold towardIdeal
    split
    · rename_i h
      rw [ih, ten_zpow_add, zpow_one]
      have hten : (coefficient : ℚ) = (coefficient / 10 : ℕ) * 10 := by
        exact_mod_cast (Nat.div_mul_cancel (Nat.dvd_of_mod_eq_zero h)).symm
      rw [hten]
      ring
    · rfl

theorem shifted_pos {x y : ℕ} (shift : ℤ) (hx : 0 < x) (hy : 0 < y) : 0 < (shifted x y shift).1 ∧ 0 < (shifted x y shift).2 := by
  unfold shifted
  split
  · exact ⟨Nat.mul_pos hx (Nat.pow_pos (by norm_num)), hy⟩
  · exact ⟨hx, Nat.mul_pos hy (Nat.pow_pos (by norm_num))⟩

theorem shifted_value {x y : ℕ} (shift : ℤ) (hy : 0 < y) :
    ((shifted x y shift).1 : ℚ) / (shifted x y shift).2 = x / y * (10 : ℚ) ^ shift := by
  have hy' : (y : ℚ) ≠ 0 := Nat.cast_ne_zero.2 hy.ne'
  unfold shifted
  split
  · rename_i h
    have hpow := ten_zpow_int h
    push_cast at hpow
    push_cast
    rw [hpow]
    field_simp
  · rename_i h
    have hpow := ten_zpow_int (e := -shift) (by omega)
    push_cast at hpow
    push_cast
    rw [← hpow, zpow_neg]
    have hne := (ten_zpow_pos shift).ne'
    field_simp

section
variable {dividend divisor : ℕ}

/-- It lies to the multiples of five as the quotient does. -/
theorem sticky_compare (hpos : 0 < divisor) (hrest : dividend % divisor ≠ 0) (k : ℤ) :
    ((sticky dividend divisor : ℤ) ≤ 5 * k ↔ (dividend / divisor : ℚ) ≤ ((5 * k : ℤ) : ℚ)) ∧
      (5 * k ≤ (sticky dividend divisor : ℤ) ↔ ((5 * k : ℤ) : ℚ) ≤ (dividend / divisor : ℚ)) := by
  have hfloor : ⌊(dividend / divisor : ℚ)⌋ = ((dividend / divisor : ℕ) : ℤ) := by
    rw [Rat.floor_natCast_div_natCast]
    norm_cast
  have hnotint : (dividend / divisor : ℚ) ≠ ((dividend / divisor : ℕ) : ℚ) := by
    intro heq
    rw [div_eq_iff (Nat.cast_ne_zero.2 hpos.ne')] at heq
    have hexact : dividend = dividend / divisor * divisor := by exact_mod_cast heq
    have hmod := Nat.div_add_mod dividend divisor
    rw [Nat.mul_comm] at hmod
    omega
  have hle : ∀ m : ℤ, (m : ℚ) ≤ (dividend / divisor : ℚ) ↔ m ≤ ((dividend / divisor : ℕ) : ℤ) := by
    intro m
    rw [← hfloor, Int.le_floor]
  have hge : ∀ m : ℤ, (dividend / divisor : ℚ) ≤ m ↔ ((dividend / divisor : ℕ) : ℤ) < m := by
    intro m
    constructor
    · intro h
      by_contra hlt
      have hback := (hle m).2 (not_lt.1 hlt)
      have heq : (dividend / divisor : ℚ) = m := le_antisymm h hback
      refine hnotint ?_
      rw [heq, Int.floor_intCast] at hfloor
      rw [heq, hfloor]
      norm_cast
    · intro h
      by_contra hlt
      exact absurd ((hle m).1 (not_le.1 hlt).le) (not_le.2 h)
  rw [hle, hge]
  unfold sticky
  generalize dividend / divisor = q
  split <;> omega

theorem sticky_pos (dividend divisor : ℕ) : 0 < sticky dividend divisor := by
  unfold sticky
  generalize dividend / divisor = q
  split <;> omega

theorem five_mul_pow (j : ℕ) (m : ℤ) : m * 10 ^ (j + 1) = 5 * (2 * (m * 10 ^ j)) := by
  rw [pow_succ]
  ring

/-- It has the same decimal place when it has more than one digit. -/
theorem sticky_log (hpos : 0 < divisor) (hrest : dividend % divisor ≠ 0) (hten : 10 ≤ dividend / divisor) :
    Int.log 10 (sticky dividend divisor : ℚ) = Int.log 10 (dividend / divisor : ℚ) := by
  have hten' : (10 : ℚ) ≤ dividend / divisor := by
    have h : ((10 : ℕ) : ℚ) ≤ ((dividend / divisor : ℕ) : ℚ) := Nat.cast_le.2 hten
    have hle : ((dividend / divisor : ℕ) : ℚ) ≤ dividend / divisor := Nat.cast_div_le
    push_cast at h
    linarith
  have hpos' : (0 : ℚ) < dividend / divisor := by linarith
  have hplace : 1 ≤ Int.log 10 (dividend / divisor : ℚ) :=
    (Int.zpow_le_iff_le_log (b := 10) (by norm_num) hpos').1 (by simpa using hten')
  obtain ⟨j, hj⟩ : ∃ j : ℕ, Int.log 10 (dividend / divisor : ℚ) = ((j + 1 : ℕ) : ℤ) :=
    ⟨(Int.log 10 (dividend / divisor : ℚ) - 1).toNat, by omega⟩
  have hlow := Int.zpow_log_le_self (b := 10) (by norm_num) hpos'
  have hhigh := Int.lt_zpow_succ_log_self (b := 10) (by norm_num) (dividend / divisor : ℚ)
  rw [hj] at hlow hhigh ⊢
  have hcompare := fun m => sticky_compare hpos hrest m
  apply log_eq
  · rw [zpow_natCast] at hlow ⊢
    have h := ((hcompare (2 * 10 ^ j)).2).2 (by
      have hfive := five_mul_pow j 1
      rw [one_mul, one_mul] at hfive
      rw [← hfive]
      exact_mod_cast hlow)
    have hfive := five_mul_pow j 1
    rw [one_mul, one_mul] at hfive
    rw [← hfive] at h
    exact_mod_cast h
  · have hnext : ((j + 1 : ℕ) : ℤ) + 1 = ((j + 2 : ℕ) : ℤ) := by omega
    rw [hnext, zpow_natCast] at hhigh ⊢
    by_contra hge
    have hfive := five_mul_pow (j + 1) 1
    rw [one_mul, one_mul] at hfive
    have h := ((hcompare (2 * 10 ^ (j + 1))).2).1 (by
      rw [← hfive]
      exact_mod_cast not_lt.1 hge)
    rw [← hfive] at h
    push_cast at h hhigh
    exact absurd h (not_le.2 hhigh)

theorem sticky_log_shift (e : ℤ) (hpos : 0 < divisor) (hrest : dividend % divisor ≠ 0) (hten : 10 ≤ dividend / divisor) :
    Int.log 10 |(sticky dividend divisor : ℚ) * (10 : ℚ) ^ e| = Int.log 10 |(dividend / divisor : ℚ) * (10 : ℚ) ^ e| := by
  have hsticky : (0 : ℚ) < sticky dividend divisor := Nat.cast_pos.2 (sticky_pos dividend divisor)
  have hquotient : (0 : ℚ) < dividend / divisor := by
    have h : 0 < dividend / divisor := by omega
    exact (Nat.cast_pos.2 h).trans_le Nat.cast_div_le
  rw [log_shift hsticky.ne', log_shift hquotient.ne', abs_of_pos hsticky, abs_of_pos hquotient, sticky_log hpos hrest hten]

/-- It is rounded as the quotient is. -/
theorem sticky_round {p : ℕ} (e : ℤ) (hpos : 0 < divisor) (hrest : dividend % divisor ≠ 0) (hp : 0 < p)
    (hdigits : 10 ^ p ≤ dividend / divisor) :
    roundDigits p (sticky dividend divisor * (10 : ℚ) ^ e) = roundDigits p (dividend / divisor * (10 : ℚ) ^ e) := by
  have hdigits' : (10 : ℚ) ^ (p : ℤ) ≤ dividend / divisor := by
    rw [zpow_natCast]
    have h : ((10 ^ p : ℕ) : ℚ) ≤ ((dividend / divisor : ℕ) : ℚ) := Nat.cast_le.2 hdigits
    push_cast at h
    exact h.trans Nat.cast_div_le
  have hpos' : (0 : ℚ) < dividend / divisor := (ten_zpow_pos _).trans_le hdigits'
  have hsticky : (0 : ℚ) < sticky dividend divisor := Nat.cast_pos.2 (sticky_pos dividend divisor)
  have hten : 10 ≤ dividend / divisor := (Nat.le_self_pow hp.ne' 10).trans hdigits
  have hlog := sticky_log hpos hrest hten
  have hplace : p ≤ Int.log 10 (dividend / divisor : ℚ) :=
    (Int.zpow_le_iff_le_log (b := 10) (by norm_num) hpos').1 (by exact_mod_cast hdigits')
  obtain ⟨j, hj⟩ : ∃ j : ℕ, Int.log 10 (dividend / divisor : ℚ) - (p - 1) = ((j + 1 : ℕ) : ℤ) :=
    ⟨(Int.log 10 (dividend / divisor : ℚ) - p).toNat, by omega⟩
  have hlast : lastPlace p (dividend / divisor * (10 : ℚ) ^ e) = ((j + 1 : ℕ) : ℤ) + e := by
    rw [lastPlace, log_shift hpos'.ne', abs_of_pos hpos', ← hj]
    ring
  have hlast' : lastPlace p (sticky dividend divisor * (10 : ℚ) ^ e) = ((j + 1 : ℕ) : ℤ) + e := by
    rw [lastPlace, log_shift hsticky.ne', abs_of_pos hsticky, hlog, ← hj]
    ring
  have hcompare := fun k => sticky_compare hpos hrest k
  have hscale : ∀ (t : ℚ) (k : ℤ), (2 * (t / 10 ^ (j + 1)) ≤ k ↔ t ≤ ((5 * (k * 10 ^ j) : ℤ) : ℚ)) ∧
      ((k : ℚ) ≤ 2 * (t / 10 ^ (j + 1)) ↔ ((5 * (k * 10 ^ j) : ℤ) : ℚ) ≤ t) := by
    intro t k
    have hpow : (0 : ℚ) < 10 ^ (j + 1) := by positivity
    have htwo : ((5 * (k * 10 ^ j) : ℤ) : ℚ) * 2 = k * 10 ^ (j + 1) := by
      push_cast
      ring
    rw [← mul_div_assoc, div_le_iff₀ hpow, le_div_iff₀ hpow, ← htwo]
    constructor <;> constructor <;> intro h <;> linarith
  have hnearest : nearestEven (sticky dividend divisor / 10 ^ (j + 1)) = nearestEven (dividend / divisor / 10 ^ (j + 1)) := by
    apply nearestEven_congr
    · intro k
      rw [(hscale _ k).1, (hscale _ k).1, ← (hcompare _).1]
      exact_mod_cast Iff.rfl
    · intro k
      rw [(hscale _ k).2, (hscale _ k).2, ← (hcompare _).2]
      exact_mod_cast Iff.rfl
  unfold roundDigits
  rw [hlast, hlast', ten_zpow_add, mul_div_mul_right _ _ (ten_zpow_pos e).ne', mul_div_mul_right _ _ (ten_zpow_pos e).ne',
    zpow_natCast, hnearest]

end

/-- A signed number, rounded. -/
theorem roundDigits_signed (p : ℕ) (negative : Bool) (v : ℚ) :
    roundDigits p (((if negative then -1 else 1 : ℤ) : ℚ) * v) = ((if negative then -1 else 1 : ℤ) : ℚ) * roundDigits p v := by
  cases negative
  · simp
  · simp [roundDigits_neg]

theorem sign_xor (a b : Bool) : ((if (a ^^ b) = true then -1 else 1 : ℤ) : ℚ) =
    ((if a then -1 else 1 : ℤ) : ℚ) / ((if b then -1 else 1 : ℤ) : ℚ) := by
  cases a <;> cases b <;> norm_num

/-- The shift gives the quotient the digits of the context. -/
theorem shifted_digits {x y : ℕ} (hx : x ≠ 0) (hy : y ≠ 0) (p : ℕ) :
    10 ^ p ≤ (shifted x y (numDigits y - numDigits x + p + 1)).1 / (shifted x y (numDigits y - numDigits x + p + 1)).2 := by
  have hvalue := shifted_value (x := x) (numDigits y - numDigits x + p + 1) (Nat.pos_of_ne_zero hy)
  have hpos := (shifted_pos (numDigits y - numDigits x + p + 1) (Nat.pos_of_ne_zero hx) (Nat.pos_of_ne_zero hy)).2
  rw [Nat.le_div_iff_mul_le hpos]
  have hlow : ((10 ^ (numDigits x - 1) : ℕ) : ℚ) ≤ x := Nat.cast_le.2 (pow_numDigits_le hx)
  have hhigh : (y : ℚ) ≤ ((10 ^ numDigits y : ℕ) : ℚ) := Nat.cast_le.2 (lt_pow_numDigits y).le
  have hone := numDigits_pos x
  push_cast at hlow hhigh
  rw [← zpow_natCast] at hlow hhigh
  have hcast : ((numDigits x - 1 : ℕ) : ℤ) = numDigits x - 1 := by omega
  rw [hcast] at hlow
  have hypos : (0 : ℚ) < y := Nat.cast_pos.2 (Nat.pos_of_ne_zero hy)
  have hquotient : (10 : ℚ) ^ (p : ℤ) ≤ x / y * (10 : ℚ) ^ (numDigits y - numDigits x + p + 1 : ℤ) := by
    have hsum : (p : ℤ) = (numDigits x - 1 : ℤ) - numDigits y + (numDigits y - numDigits x + p + 1) := by ring
    calc (10 : ℚ) ^ (p : ℤ)
        = (10 : ℚ) ^ (numDigits x - 1 : ℤ) / (10 : ℚ) ^ (numDigits y : ℤ) *
            (10 : ℚ) ^ (numDigits y - numDigits x + p + 1 : ℤ) := by
          rw [← zpow_sub₀ (by norm_num), ← ten_zpow_add, ← hsum]
      _ ≤ x / y * (10 : ℚ) ^ (numDigits y - numDigits x + p + 1 : ℤ) :=
          mul_le_mul_of_nonneg_right (div_le_div₀ (Nat.cast_nonneg x) hlow hypos hhigh) (ten_zpow_pos _).le
  rw [← hvalue, le_div_iff₀ (Nat.cast_pos.2 hpos), zpow_natCast] at hquotient
  exact_mod_cast hquotient

/-- In range, a quotient is rounded to the digits of the context. -/
theorem div_value (hp : 0 < c.prec) (hy : y.coefficient ≠ 0) (h : x.coefficient ≠ 0 → c.InRange (x.value / y.value)) :
    ∃ z, c.div x y = .ok z ∧ z.value = roundDigits c.prec (x.value / y.value) := by
  unfold div
  rw [if_neg hy]
  by_cases hx : x.coefficient = 0
  · rw [if_pos hx, FiniteDecimal.value_eq_zero.2 hx, zero_div]
    obtain ⟨z, hz, hvalue⟩ := fix_value (c := c)
      (x := { negative := x.negative ^^ y.negative, coefficient := 0, exponent := x.exponent - y.exponent }) hp (fun hne => absurd rfl hne)
    exact ⟨z, hz, hvalue.trans (by rw [FiniteDecimal.value_eq_zero.2 rfl])⟩
  · rw [if_neg hx]
    have hrange := h hx
    have hpos := (shifted_pos (numDigits y.coefficient - numDigits x.coefficient + c.prec + 1)
      (Nat.pos_of_ne_zero hx) (Nat.pos_of_ne_zero hy)).2
    have hdigits := shifted_digits hx hy c.prec
    have hshifted := shifted_value (x := x.coefficient)
      (numDigits y.coefficient - numDigits x.coefficient + c.prec + 1) (Nat.pos_of_ne_zero hy)
    simp only
    generalize (numDigits y.coefficient - numDigits x.coefficient + c.prec + 1 : ℤ) = shift at *
    generalize (shifted x.coefficient y.coefficient shift).1 = dividend at *
    generalize (shifted x.coefficient y.coefficient shift).2 = divisor at *
    have hquotient : x.value / y.value = ((if (x.negative ^^ y.negative) = true then -1 else 1 : ℤ) : ℚ) *
        (dividend / divisor * (10 : ℚ) ^ (x.exponent - y.exponent - shift)) := by
      rw [hshifted, sign_xor, zpow_sub₀ (by norm_num), zpow_sub₀ (by norm_num)]
      unfold FiniteDecimal.value FiniteDecimal.sign
      have hne := (ten_zpow_pos shift).ne'
      field_simp
    have hfix : ∀ w : FiniteDecimal, c.InRange w.value → roundDigits c.prec w.value = roundDigits c.prec (x.value / y.value) →
        ∃ z, c.fix w = .ok z ∧ z.value = roundDigits c.prec (x.value / y.value) := by
      intro w hw hround
      obtain ⟨z, hz, hvalue⟩ := fix_value hp (fun _ => hw)
      exact ⟨z, hz, hvalue.trans hround⟩
    split
    · rename_i hexact
      have hvalue : (FiniteDecimal.value
          { negative := x.negative ^^ y.negative,
            coefficient := (towardIdeal shift.toNat (dividend / divisor) (x.exponent - y.exponent - shift)).1,
            exponent := (towardIdeal shift.toNat (dividend / divisor) (x.exponent - y.exponent - shift)).2 }) =
          x.value / y.value := by
        rw [hquotient]
        unfold FiniteDecimal.value
        simp only
        rw [mul_assoc, towardIdeal_value, Nat.cast_div (Nat.dvd_of_mod_eq_zero hexact) (Nat.cast_ne_zero.2 hpos.ne')]
        rfl
      exact hfix _ (by rw [hvalue]; exact hrange) (by rw [hvalue])
    · rename_i hrest
      have hvalue : (FiniteDecimal.value
          { negative := x.negative ^^ y.negative, coefficient := sticky dividend divisor,
            exponent := x.exponent - y.exponent - shift }) =
          ((if (x.negative ^^ y.negative) = true then -1 else 1 : ℤ) : ℚ) *
            (sticky dividend divisor * (10 : ℚ) ^ (x.exponent - y.exponent - shift)) := by
        unfold FiniteDecimal.value
        rw [mul_assoc]
        rfl
      have hsize : ∀ v : ℚ, |((if (x.negative ^^ y.negative) = true then -1 else 1 : ℤ) : ℚ) * v| = |v| := by
        intro v
        cases x.negative ^^ y.negative <;> simp
      refine hfix _ ?_ ?_
      · obtain ⟨hne, hlow, hhigh⟩ := hrange.log
        have hten : 10 ≤ dividend / divisor := (Nat.le_self_pow hp.ne' 10).trans hdigits
        have hplace := sticky_log_shift (x.exponent - y.exponent - shift) hpos hrest hten
        rw [hquotient, hsize, ← hplace] at hlow hhigh
        refine inRange_of_log ?_ ?_ ?_
        · rw [FiniteDecimal.value_eq_zero.ne]
          exact (sticky_pos dividend divisor).ne'
        · rw [hvalue, hsize]
          exact hlow
        · rw [hvalue, hsize]
          exact hhigh
      · rw [hvalue, hquotient, roundDigits_signed, roundDigits_signed, sticky_round _ hpos hrest hp hdigits]

end DecimalContext

end Motte.Foundation
