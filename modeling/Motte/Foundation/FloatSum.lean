import Mathlib.Data.Rat.Defs
import Mathlib.Algebra.Order.Ring.Unbundled.Rat

/-! Sums of binary64 numbers.

`floatSum` is the sum of a language whose built-in `sum` compensates for
rounding (the improved Kahan–Babuška algorithm of Neumaier, which Python uses
since 3.12): the rounding error of each addition is collected in a second
accumulator and added once at the end. `exactValue` reads a finite number as
the rational it stands for. -/
namespace Motte.Foundation

/-- The running total and the collected error, over the remaining items. -/
def floatSumFrom (total error : Float) : List Float → Float
  | [] => if error != 0.0 && error.isFinite then total + error else total
  | x :: rest =>
    let t := total + x
    let lost := if total.abs >= x.abs then (total - t) + x else (x - t) + total
    floatSumFrom t (error + lost) rest

/-- The start value of a sum is the integer zero, so the first item is taken as it is. -/
def floatSum : List Float → Float
  | [] => 0.0
  | x :: rest => floatSumFrom x 0.0 rest

/-- The rational a finite number stands for; infinities and NaN stand for none. -/
def exactValue (x : Float) : Option ℚ :=
  match x.toModel.unpack with
  | .infinity _ => none
  | .notANumber => none
  | .zero _ => some 0
  | .finite sign mantissa exponent _ =>
    let magnitude : ℚ := if 0 ≤ exponent then mantissa * 2 ^ exponent.toNat else mantissa / 2 ^ (-exponent).toNat
    some (match sign with | .positive => magnitude | .negative => -magnitude)

end Motte.Foundation
