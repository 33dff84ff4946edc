import Mathlib.Algebra.Order.Ring.Unbundled.Rat
import Motte.Foundation.Document

/-! Binary64 numbers as they are compared and converted.

A number is its 64 bits. It is compared by the number it stands for, so that the
order is that of the rationals with two infinities, and NaN stands in no order. -/
namespace Motte.Foundation

namespace Number

/-- `<=` -/
def le : Number → Number → Bool
  | .nan, _ | _, .nan => false
  | .infinite true, _ | _, .infinite false => true
  | .finite a, .finite b => a ≤ b
  | _, _ => false

/-- `<` -/
def lt (a b : Number) : Bool := a.le b && !b.le a

def isNan : Number → Bool
  | .nan => true
  | _ => false

def isInfinite : Number → Bool
  | .infinite _ => true
  | _ => false

variable {a b c : Number}

theorem le_trans (hab : a.le b = true) (hbc : b.le c = true) : a.le c = true := by
  cases a with
  | nan => cases hab
  | infinite s =>
    cases s with
    | true =>
      cases c with
      | nan => cases b <;> simp [le] at hbc
      | infinite t => rfl
      | finite z => rfl
    | false =>
      cases b with
      | nan => cases hab
      | finite y => cases hab
      | infinite t =>
        cases t with
        | true => cases hab
        | false => exact hbc
  | finite x =>
    cases b with
    | nan => cases hab
    | infinite t =>
      cases t with
      | true => cases hab
      | false =>
        cases c with
        | nan => cases hbc
        | finite z => cases hbc
        | infinite u =>
          cases u with
          | true => cases hbc
          | false => rfl
    | finite y =>
      cases c with
      | nan => cases hbc
      | infinite u =>
        cases u with
        | true => cases hbc
        | false => rfl
      | finite z =>
        have hxy : x ≤ y := by simpa [le] using hab
        have hyz : y ≤ z := by simpa [le] using hbc
        simpa [le] using hxy.trans hyz

/-- Two numbers other than NaN are ordered. -/
theorem le_total (ha : a.isNan = false) (hb : b.isNan = false) : a.le b = true ∨ b.le a = true := by
  cases a with
  | nan => cases ha
  | infinite s =>
    cases b with
    | nan => cases hb
    | infinite t => cases s <;> cases t <;> simp [le]
    | finite y => cases s <;> simp [le]
  | finite x =>
    cases b with
    | nan => cases hb
    | infinite t => cases t <;> simp [le]
    | finite y => simpa [le] using Rat.le_total (a := x) (b := y)

theorem lt_eq_false (ha : a.isNan = false) (hb : b.isNan = false) : a.lt b = false ↔ b.le a = true := by
  have total := le_total ha hb
  simp only [lt, Bool.and_eq_false_iff, Bool.not_eq_false']
  constructor
  · rintro (h | h)
    · exact total.resolve_left (by simp [h])
    · exact h
  · intro h
    exact .inr h

theorem not_nan_of_le (h : a.le b = true) : a.isNan = false ∧ b.isNan = false := by
  cases a <;> cases b <;> simp_all [le, isNan]

end Number

/-- A binary64 number. -/
structure Double where
  bits : UInt64
deriving DecidableEq

namespace Double

def number (x : Double) : Number := .ofBits x.bits

def isNan (x : Double) : Bool := x.number.isNan

def isInfinite (x : Double) : Bool := x.number.isInfinite

/-- Neither an infinity nor a NaN. -/
def isFinite (x : Double) : Bool := !x.isNan && !x.isInfinite

def le (x y : Double) : Bool := x.number.le y.number

def lt (x y : Double) : Bool := x.number.lt y.number

/-- The difference, rounded. -/
def sub (x y : Double) : Double := ⟨(Float.ofBits x.bits - Float.ofBits y.bits).toBits⟩

/-- `float` of an integer, which fails on one that is too large. -/
def ofInt (n : Int) : Option Double :=
  let x := Float.ofInt n
  if x.isInf then none else some ⟨x.toBits⟩

def zero : Double := ⟨0⟩

def one : Double := ⟨0x3ff0000000000000⟩

/-- In the unit interval. -/
def isRatio (x : Double) : Bool := zero.le x && x.le one

end Double

end Motte.Foundation
