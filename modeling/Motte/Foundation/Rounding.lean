import Mathlib.Algebra.Order.Field.Power
import Mathlib.Data.Int.Log
import Mathlib.Data.Rat.Floor
import Mathlib.Tactic.FieldSimp
import Mathlib.Tactic.Linarith
import Mathlib.Tactic.Ring

/-! Rounding to a number of decimal digits.

A rational is rounded to the nearest number of `p` significant digits, the even one of two.
What has `p` digits is not moved, and rounding never crosses it: this decides which
comparisons of rounded numbers say something of the numbers themselves. -/
namespace Motte.Foundation

/-! ### The nearest integer -/

/-- The integer nearest to `t`, the even one of two. -/
def nearestEven (t : ℚ) : ℤ :=
  if 1 < 2 * (t - ⌊t⌋) ∨ 2 * (t - ⌊t⌋) = 1 ∧ ⌊t⌋ % 2 = 1 then ⌊t⌋ + 1 else ⌊t⌋

/-- `m` is the integer nearest to `t`, and even when another is as near. -/
def IsNearest (t : ℚ) (m : ℤ) : Prop := 2 * |t - m| < 1 ∨ 2 * |t - m| = 1 ∧ m % 2 = 0

section
variable {s t : ℚ} {m n : ℤ}

theorem nearestEven_isNearest (t : ℚ) : IsNearest t (nearestEven t) := by
  have hfloor := Int.floor_le t
  have hnext := Int.lt_floor_add_one t
  unfold IsNearest nearestEven
  split
  · rename_i h
    push_cast
    rw [abs_of_nonpos (by linarith)]
    obtain h | ⟨h, hodd⟩ := h
    · left
      linarith
    · right
      exact ⟨by linarith, by omega⟩
  · rename_i h
    rw [abs_of_nonneg (by linarith)]
    obtain hlt | heq | hgt := lt_trichotomy (2 * (t - ⌊t⌋)) 1
    · exact .inl hlt
    · have heven : ¬ ⌊t⌋ % 2 = 1 := fun hodd => h (.inr ⟨heq, hodd⟩)
      exact .inr ⟨heq, by omega⟩
    · exact absurd (.inl hgt) h

theorem IsNearest.unique (hm : IsNearest t m) (hn : IsNearest t n) : m = n := by
  have hclose : ∀ {k : ℤ}, IsNearest t k → 2 * |t - k| ≤ 1 := by
    intro k hk
    obtain hk | hk := hk
    · exact hk.le
    · exact hk.1.le
  have hdistance : |(m : ℚ) - n| ≤ |t - m| + |t - n| := by
    have htriangle := abs_sub_le (m : ℚ) t n
    rwa [abs_sub_comm (m : ℚ) t] at htriangle
  have hle : |(m : ℚ) - n| ≤ 1 := by linarith [hclose hm, hclose hn]
  have hint : |m - n| ≤ 1 := by exact_mod_cast hle
  by_contra hne
  have hone : |m - n| = 1 := le_antisymm hint (Int.one_le_abs (sub_ne_zero.2 hne))
  have honeq : |(m : ℚ) - n| = 1 := by exact_mod_cast hone
  -- both are half a unit away, so both are even
  have hcm := hclose hm
  have hcn := hclose hn
  obtain hm' | ⟨-, hm'⟩ := hm
  · linarith
  · obtain hn' | ⟨-, hn'⟩ := hn
    · linarith
    · obtain h | h := (abs_eq one_pos.le).1 hone <;> omega

theorem nearestEven_eq (h : IsNearest t m) : nearestEven t = m := (nearestEven_isNearest t).unique h

@[simp] theorem nearestEven_intCast (m : ℤ) : nearestEven m = m := nearestEven_eq (.inl (by simp))

theorem nearestEven_neg (t : ℚ) : nearestEven (-t) = -nearestEven t := by
  apply nearestEven_eq
  have habs : |-t - ((-nearestEven t : ℤ) : ℚ)| = |t - nearestEven t| := by
    rw [← abs_neg]
    congr 1
    push_cast
    ring
  have h := nearestEven_isNearest t
  unfold IsNearest at h ⊢
  rw [habs]
  obtain h | ⟨h, heven⟩ := h
  · exact .inl h
  · exact .inr ⟨h, by omega⟩

theorem nearestEven_error (t : ℚ) : 2 * |t - nearestEven t| ≤ 1 := by
  obtain h | h := nearestEven_isNearest t
  · exact h.le
  · exact h.1.le

/-- Rounding does not cross an integer. -/
theorem nearestEven_le (h : t ≤ m) : nearestEven t ≤ m := by
  by_contra hgt
  have herror := nearestEven_error t
  have hnext : (m : ℚ) + 1 ≤ nearestEven t := by exact_mod_cast Int.add_one_le_of_lt (not_le.1 hgt)
  have hge := (neg_abs_le (t - nearestEven t))
  linarith

theorem le_nearestEven (h : (m : ℚ) ≤ t) : m ≤ nearestEven t := by
  have hneg : -t ≤ ((-m : ℤ) : ℚ) := by
    push_cast
    linarith
  have h' := nearestEven_le hneg
  rw [nearestEven_neg] at h'
  omega

/-- The nearest integer depends on how twice the number lies to the integers. -/
theorem nearestEven_congr (hle : ∀ k : ℤ, 2 * s ≤ k ↔ 2 * t ≤ k) (hge : ∀ k : ℤ, (k : ℚ) ≤ 2 * s ↔ (k : ℚ) ≤ 2 * t) :
    nearestEven s = nearestEven t := by
  have hfloor : ⌊s⌋ = ⌊t⌋ := by
    have hdouble : ∀ {r : ℚ} (k : ℤ), k ≤ ⌊r⌋ ↔ ((2 * k : ℤ) : ℚ) ≤ 2 * r := by
      intro r k
      rw [Int.le_floor]
      push_cast
      constructor <;> intro h <;> linarith
    apply le_antisymm
    · exact (hdouble _).2 ((hge _).1 ((hdouble _).1 le_rfl))
    · exact (hdouble _).2 ((hge _).2 ((hdouble _).1 le_rfl))
  have hmiddle : ∀ {r : ℚ}, (1 < 2 * (r - ⌊r⌋) ↔ ¬ 2 * r ≤ ((2 * ⌊r⌋ + 1 : ℤ) : ℚ)) ∧
      (2 * (r - ⌊r⌋) = 1 ↔ 2 * r ≤ ((2 * ⌊r⌋ + 1 : ℤ) : ℚ) ∧ ((2 * ⌊r⌋ + 1 : ℤ) : ℚ) ≤ 2 * r) := by
    intro r
    push_cast
    rw [not_le]
    refine ⟨⟨fun h => by linarith, fun h => by linarith⟩, ⟨fun h => ⟨by linarith, by linarith⟩, fun h => ?_⟩⟩
    linarith [h.1, h.2]
  unfold nearestEven
  refine if_congr ?_ (by rw [hfloor]) hfloor
  rw [hmiddle.1, hmiddle.2, hmiddle.1, hmiddle.2, hfloor, hle, hge]

end

/-! ### The nearest quotient of two numbers -/

/-- The natural number nearest to `n / d`, the even one of two. -/
def halfEven (n d : ℕ) : ℕ :=
  if d < 2 * (n % d) ∨ 2 * (n % d) = d ∧ n / d % 2 = 1 then n / d + 1 else n / d

section
variable {n d : ℕ}

theorem halfEven_eq (hd : 0 < d) : (halfEven n d : ℤ) = nearestEven (n / d) := by
  have hpos : (0 : ℚ) < d := Nat.cast_pos.2 hd
  have hfloor : ⌊(n / d : ℚ)⌋ = (n / d : ℕ) := by
    rw [Rat.floor_natCast_div_natCast]
    norm_cast
  have hrest : (n / d : ℚ) - ((n / d : ℕ) : ℚ) = (n % d : ℕ) / d := by
    rw [eq_div_iff hpos.ne', sub_mul, div_mul_cancel₀ _ hpos.ne']
    have hsplit : (n : ℚ) = d * (n / d : ℕ) + (n % d : ℕ) := by exact_mod_cast (Nat.div_add_mod n d).symm
    linarith
  have hrest' : (n / d : ℚ) - ((⌊(n / d : ℚ)⌋ : ℤ) : ℚ) = (n % d : ℕ) / d := by
    rw [hfloor]
    exact hrest
  unfold halfEven nearestEven
  rw [hrest', hfloor]
  have hgt : (1 : ℚ) < 2 * ((n % d : ℕ) / d) ↔ d < 2 * (n % d) := by
    rw [← mul_div_assoc, lt_div_iff₀ hpos, one_mul]
    exact_mod_cast Iff.rfl
  have heq : 2 * (((n % d : ℕ) : ℚ) / d) = 1 ↔ 2 * (n % d) = d := by
    rw [← mul_div_assoc, div_eq_one_iff_eq hpos.ne']
    exact_mod_cast Iff.rfl
  have hodd : ((n / d : ℕ) : ℤ) % 2 = 1 ↔ n / d % 2 = 1 := by omega
  rw [apply_ite (Nat.cast (R := ℤ))]
  refine if_congr ?_ (by push_cast; rfl) rfl
  rw [hgt, heq, hodd]

end

/-! ### Significant digits -/

/-- `x` has at most `p` significant digits. -/
def Fits (p : ℕ) (x : ℚ) : Prop := ∃ m e : ℤ, |m| < 10 ^ p ∧ x = m * (10 : ℚ) ^ e

/-- The exponent of the last of the first `p` digits of `x`. -/
def lastPlace (p : ℕ) (x : ℚ) : ℤ := Int.log 10 |x| - (p - 1)

/-- `x` rounded to `p` significant digits. -/
def roundDigits (p : ℕ) (x : ℚ) : ℚ := nearestEven (x / (10 : ℚ) ^ lastPlace p x) * (10 : ℚ) ^ lastPlace p x

section
variable {p : ℕ} {x y : ℚ} {e k : ℤ}

theorem ten_zpow_pos (e : ℤ) : (0 : ℚ) < (10 : ℚ) ^ e := zpow_pos (by norm_num) e

theorem ten_zpow_add (e k : ℤ) : (10 : ℚ) ^ (e + k) = (10 : ℚ) ^ e * (10 : ℚ) ^ k := zpow_add₀ (by norm_num) e k

theorem ten_zpow_le (h : e ≤ k) : (10 : ℚ) ^ e ≤ (10 : ℚ) ^ k := zpow_le_zpow_right₀ (by norm_num) h

/-- A power of ten that is a whole number. -/
theorem ten_zpow_int (h : 0 ≤ e) : (10 : ℚ) ^ e = ((10 ^ e.toNat : ℤ) : ℚ) := by
  push_cast
  rw [← zpow_natCast, Int.toNat_of_nonneg h]

/-- The decimal place of a number is fixed by the powers of ten around it. -/
theorem log_eq (hlow : (10 : ℚ) ^ e ≤ x) (hhigh : x < (10 : ℚ) ^ (e + 1)) : Int.log 10 x = e := by
  have hpos : 0 < x := (ten_zpow_pos e).trans_le hlow
  apply le_antisymm
  · have h := (Int.lt_zpow_iff_log_lt (b := 10) (by norm_num) hpos).1 (by exact_mod_cast hhigh)
    omega
  · exact (Int.zpow_le_iff_le_log (b := 10) (by norm_num) hpos).1 (by exact_mod_cast hlow)

theorem log_low (hx : x ≠ 0) : (10 : ℚ) ^ Int.log 10 |x| ≤ |x| := by
  exact_mod_cast Int.zpow_log_le_self (b := 10) (by norm_num) (abs_pos.2 hx)

theorem log_high (x : ℚ) : |x| < (10 : ℚ) ^ (Int.log 10 |x| + 1) := by
  exact_mod_cast Int.lt_zpow_succ_log_self (b := 10) (by norm_num) |x|

/-- A shift of the point shifts the decimal place. -/
theorem log_shift (hx : x ≠ 0) (e : ℤ) : Int.log 10 |x * (10 : ℚ) ^ e| = Int.log 10 |x| + e := by
  rw [abs_mul, abs_of_pos (ten_zpow_pos e)]
  apply log_eq
  · rw [ten_zpow_add]
    exact mul_le_mul_of_nonneg_right (log_low hx) (ten_zpow_pos e).le
  · have hsum : Int.log 10 |x| + e + 1 = Int.log 10 |x| + 1 + e := by ring
    rw [hsum, ten_zpow_add]
    exact mul_lt_mul_of_pos_right (log_high x) (ten_zpow_pos e)

theorem lastPlace_neg (p : ℕ) (x : ℚ) : lastPlace p (-x) = lastPlace p x := by
  unfold lastPlace
  rw [abs_neg]

theorem roundDigits_neg (p : ℕ) (x : ℚ) : roundDigits p (-x) = -roundDigits p x := by
  unfold roundDigits
  rw [lastPlace_neg, neg_div, nearestEven_neg]
  push_cast
  ring

@[simp] theorem roundDigits_zero (p : ℕ) : roundDigits p 0 = 0 := by
  have h := nearestEven_intCast 0
  rw [Int.cast_zero] at h
  unfold roundDigits
  rw [zero_div, h, Int.cast_zero, zero_mul]

/-- What fits in `p` digits is a multiple of the last place of `x`, or smaller in size. -/
theorem Fits.multiple_or_small (x : ℚ) (hy : Fits p y) :
    (∃ m : ℤ, y = m * (10 : ℚ) ^ lastPlace p x) ∨ |y| < (10 : ℚ) ^ Int.log 10 |x| := by
  obtain ⟨m, e, hm, rfl⟩ := hy
  by_cases he : lastPlace p x ≤ e
  · left
    refine ⟨m * 10 ^ (e - lastPlace p x).toNat, ?_⟩
    have hpow := ten_zpow_int (e := e - lastPlace p x) (by omega)
    push_cast at hpow ⊢
    rw [mul_assoc, ← hpow, ← ten_zpow_add, sub_add_cancel]
  · right
    have hsize : |(m : ℚ)| < (10 : ℚ) ^ (p : ℤ) := by
      rw [zpow_natCast]
      exact_mod_cast hm
    calc |(m : ℚ) * (10 : ℚ) ^ e| = |(m : ℚ)| * (10 : ℚ) ^ e := by rw [abs_mul, abs_of_pos (ten_zpow_pos e)]
      _ < (10 : ℚ) ^ (p : ℤ) * (10 : ℚ) ^ e := mul_lt_mul_of_pos_right hsize (ten_zpow_pos e)
      _ = (10 : ℚ) ^ (p + e : ℤ) := (ten_zpow_add _ _).symm
      _ ≤ (10 : ℚ) ^ Int.log 10 |x| := ten_zpow_le (by unfold lastPlace at he; omega)

/-- What has `p` digits is not moved. -/
theorem roundDigits_of_fits (h : Fits p x) : roundDigits p x = x := by
  by_cases hx : x = 0
  · rw [hx, roundDigits_zero]
  · obtain ⟨m, hm⟩ | hsmall := Fits.multiple_or_small x h
    · have hquotient : x / (10 : ℚ) ^ lastPlace p x = m := (div_eq_iff (ten_zpow_pos _).ne').2 hm
      unfold roundDigits
      rw [hquotient, nearestEven_intCast]
      exact hm.symm
    · exact absurd hsmall (not_lt.2 (log_low hx))

/-- Rounding does not cross a number of `p` digits. -/
theorem roundDigits_le (hp : 0 < p) (hy : Fits p y) (h : x ≤ y) : roundDigits p x ≤ y := by
  by_cases hx : x = 0
  · rwa [hx, roundDigits_zero, ← hx]
  · have hpos := ten_zpow_pos (lastPlace p x)
    obtain ⟨m, hm⟩ | hsmall := Fits.multiple_or_small x hy
    · have hle : x / (10 : ℚ) ^ lastPlace p x ≤ m := (div_le_iff₀ hpos).2 (hm ▸ h)
      have hround : ((nearestEven (x / (10 : ℚ) ^ lastPlace p x) : ℤ) : ℚ) ≤ m := by exact_mod_cast nearestEven_le hle
      rw [hm]
      exact mul_le_mul_of_nonneg_right hround hpos.le
    · -- `x` is the larger in size and not above `y`: it is negative, and is rounded to a negative number as large
      have hlow := log_low hx
      have hneg : x < 0 := by
        by_contra hnonneg
        rw [abs_of_nonneg (not_lt.1 hnonneg)] at hlow hsmall
        linarith [le_abs_self y]
      rw [abs_of_neg hneg] at hlow hsmall
      have hplace : (10 : ℚ) ^ Int.log 10 (-x) = (10 : ℚ) ^ (p - 1 : ℤ) * (10 : ℚ) ^ lastPlace p x := by
        rw [← ten_zpow_add, lastPlace, abs_of_neg hneg]
        congr 1
        omega
      have hwhole := ten_zpow_int (e := (p - 1 : ℤ)) (by omega)
      have hle : x / (10 : ℚ) ^ lastPlace p x ≤ ((-(10 ^ (p - 1 : ℤ).toNat) : ℤ) : ℚ) := by
        rw [div_le_iff₀ hpos, Int.cast_neg, ← hwhole, neg_mul, ← hplace]
        linarith
      have hround : ((nearestEven (x / (10 : ℚ) ^ lastPlace p x) : ℤ) : ℚ) ≤ -(10 : ℚ) ^ (p - 1 : ℤ) := by
        rw [hwhole, ← Int.cast_neg]
        exact_mod_cast nearestEven_le hle
      calc roundDigits p x ≤ -(10 : ℚ) ^ (p - 1 : ℤ) * (10 : ℚ) ^ lastPlace p x := mul_le_mul_of_nonneg_right hround hpos.le
        _ = -(10 : ℚ) ^ Int.log 10 (-x) := by rw [hplace, neg_mul]
        _ ≤ y := by linarith [neg_abs_le y]

theorem Fits.neg (h : Fits p x) : Fits p (-x) := by
  obtain ⟨m, e, hm, rfl⟩ := h
  exact ⟨-m, e, by rwa [abs_neg], by push_cast; ring⟩

theorem le_roundDigits (hp : 0 < p) (hy : Fits p y) (h : y ≤ x) : y ≤ roundDigits p x := by
  have h' := roundDigits_le hp hy.neg (neg_le_neg h)
  rw [roundDigits_neg] at h'
  linarith

theorem Fits.ten_zpow (hp : 0 < p) (e : ℤ) : Fits p ((10 : ℚ) ^ e) :=
  ⟨1, e, by rw [abs_one]; exact one_lt_pow₀ (by norm_num) hp.ne', by norm_num⟩

theorem Fits.zero (p : ℕ) : Fits p 0 := ⟨0, 0, by rw [abs_zero]; positivity, by norm_num⟩

theorem Fits.mono {q : ℕ} (h : Fits p x) (hpq : p ≤ q) : Fits q x := by
  obtain ⟨m, e, hm, rfl⟩ := h
  exact ⟨m, e, hm.trans_le (pow_le_pow_right₀ (by norm_num) hpq), rfl⟩

theorem Fits.mul {q : ℕ} (hx : Fits p x) (hy : Fits q y) : Fits (p + q) (x * y) := by
  obtain ⟨m, e, hm, rfl⟩ := hx
  obtain ⟨n, k, hn, rfl⟩ := hy
  refine ⟨m * n, e + k, ?_, ?_⟩
  · rw [abs_mul, pow_add]
    exact mul_lt_mul'' hm hn (abs_nonneg m) (abs_nonneg n)
  · rw [ten_zpow_add]
    push_cast
    ring

/-- A rounded number has the digits it was rounded to. -/
theorem roundDigits_fits (hp : 0 < p) (x : ℚ) : Fits p (roundDigits p x) := by
  have hpos := ten_zpow_pos (lastPlace p x)
  have hsize : |x / (10 : ℚ) ^ lastPlace p x| ≤ ((10 ^ p : ℤ) : ℚ) := by
    have hplace : Int.log 10 |x| + 1 = p + lastPlace p x := by
      unfold lastPlace
      ring
    have hhigh := log_high x
    rw [hplace, ten_zpow_add, zpow_natCast] at hhigh
    push_cast
    rw [abs_div, abs_of_pos hpos, div_le_iff₀ hpos]
    exact hhigh.le
  have hle : nearestEven (x / (10 : ℚ) ^ lastPlace p x) ≤ 10 ^ p := nearestEven_le ((le_abs_self _).trans hsize)
  have hge : -10 ^ p ≤ nearestEven (x / (10 : ℚ) ^ lastPlace p x) := by
    apply le_nearestEven
    rw [Int.cast_neg]
    exact (neg_le_neg hsize).trans (neg_abs_le _)
  by_cases hlt : |nearestEven (x / (10 : ℚ) ^ lastPlace p x)| < 10 ^ p
  · exact ⟨_, _, hlt, rfl⟩
  · -- all digits were nines: one digit and zeros are left
    have hfull : |nearestEven (x / (10 : ℚ) ^ lastPlace p x)| = 10 ^ p := le_antisymm (abs_le.2 ⟨hge, hle⟩) (not_lt.1 hlt)
    have hten : (0 : ℤ) ≤ 10 ^ p := by positivity
    have hpower : Fits p ((10 : ℚ) ^ p * (10 : ℚ) ^ lastPlace p x) := by
      rw [← zpow_natCast, ← ten_zpow_add]
      exact Fits.ten_zpow hp _
    unfold roundDigits
    obtain h | h := (abs_eq hten).1 hfull
    · rw [h]
      push_cast
      exact hpower
    · rw [h]
      push_cast
      rw [neg_mul]
      exact hpower.neg

theorem roundDigits_nonneg (hp : 0 < p) (h : 0 ≤ x) : 0 ≤ roundDigits p x := le_roundDigits hp (Fits.zero p) h

theorem roundDigits_abs (hp : 0 < p) (x : ℚ) : roundDigits p |x| = |roundDigits p x| := by
  obtain h | h := le_total 0 x
  · rw [abs_of_nonneg h, abs_of_nonneg (roundDigits_nonneg hp h)]
  · have hneg := roundDigits_nonneg hp (neg_nonneg.2 h)
    rw [roundDigits_neg] at hneg
    rw [abs_of_nonpos h, roundDigits_neg, abs_of_nonpos (neg_nonneg.1 hneg)]

/-- The rounded number is at most one of `p` digits exactly when the number is, or is rounded to it. -/
theorem roundDigits_le_iff (hp : 0 < p) (hy : Fits p y) : roundDigits p x ≤ y ↔ x ≤ y ∨ roundDigits p x = y := by
  constructor
  · intro h
    by_cases hxy : x ≤ y
    · exact .inl hxy
    · exact .inr (le_antisymm h (le_roundDigits hp hy (not_le.1 hxy).le))
  · rintro (h | h)
    · exact roundDigits_le hp hy h
    · exact h.le

/-- Rounding moves a number by at most half a unit in its last place. -/
theorem roundDigits_error (p : ℕ) (x : ℚ) : 2 * (10 : ℚ) ^ (p - 1 : ℤ) * |x - roundDigits p x| ≤ |x| := by
  by_cases hx : x = 0
  · rw [hx, roundDigits_zero]
    simp
  have hpos := ten_zpow_pos (lastPlace p x)
  have hsplit : x - roundDigits p x =
      (x / (10 : ℚ) ^ lastPlace p x - nearestEven (x / (10 : ℚ) ^ lastPlace p x)) * (10 : ℚ) ^ lastPlace p x := by
    unfold roundDigits
    rw [sub_mul, div_mul_cancel₀ _ hpos.ne']
  have hplace : (10 : ℚ) ^ (p - 1 : ℤ) * (10 : ℚ) ^ lastPlace p x = (10 : ℚ) ^ Int.log 10 |x| := by
    rw [← ten_zpow_add, lastPlace]
    congr 1
    omega
  have herror := nearestEven_error (x / (10 : ℚ) ^ lastPlace p x)
  calc 2 * (10 : ℚ) ^ (p - 1 : ℤ) * |x - roundDigits p x|
      = 2 * |x / (10 : ℚ) ^ lastPlace p x - nearestEven (x / (10 : ℚ) ^ lastPlace p x)| *
          ((10 : ℚ) ^ (p - 1 : ℤ) * (10 : ℚ) ^ lastPlace p x) := by
        rw [hsplit, abs_mul, abs_of_pos hpos]
        ring
    _ ≤ 1 * (10 : ℚ) ^ Int.log 10 |x| := by
        rw [hplace]
        exact mul_le_mul_of_nonneg_right herror (ten_zpow_pos _).le
    _ ≤ |x| := by
        rw [one_mul]
        exact log_low hx

end

end Motte.Foundation
