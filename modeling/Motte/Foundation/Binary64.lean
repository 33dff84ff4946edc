import Mathlib.Data.Int.Log
import Motte.Foundation.Document
import Motte.Foundation.Rounding

/-! Rounding to binary64.

A rational is rounded to the nearest number with a significand of 53 bits, a tie to the even
one, and to an infinity when it is too large. -/
namespace Motte.Foundation.Number

/-- The exponent of the last of 53 bits, not below that of the smallest number. -/
def lastBit (q : ℚ) : ℤ := max (Int.log 2 |q| - 52) (-1074)

/-- The nearest binary64 number. -/
@[irreducible] def binary64 (q : ℚ) : Number :=
  let rounded := (nearestEven (q / (2 : ℚ) ^ lastBit q) : ℚ) * (2 : ℚ) ^ lastBit q
  if 2 ^ 1024 ≤ |rounded| then .infinite (q < 0) else .finite rounded

/-- `math.isclose` with an absolute tolerance alone. -/
def isClose (tolerance : ℚ) : Number → Number → Bool
  | .finite a, .finite b =>
    a = b || match binary64 (b - a), binary64 tolerance with
      | .finite difference, .finite bound => |difference| ≤ bound
      | _, _ => false
  | .infinite a, .infinite b => a = b
  | _, _ => false

theorem isClose_self (tolerance a : ℚ) : isClose tolerance (.finite a) (.finite a) = true := by
  simp [isClose]

end Motte.Foundation.Number
