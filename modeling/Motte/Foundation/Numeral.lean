import Mathlib.Algebra.Order.Ring.Int
import Motte.Foundation.Value

/-! Whole numbers as text. -/
namespace Motte.Foundation

/-- The zeros of the decimal digits of Unicode. -/
def decimalZeros : List Nat :=
  [0x30, 0x660, 0x6f0, 0x7c0, 0x966, 0x9e6, 0xa66, 0xae6, 0xb66, 0xbe6, 0xc66, 0xce6, 0xd66, 0xde6, 0xe50, 0xed0, 0xf20,
    0x1040, 0x1090, 0x17e0, 0x1810, 0x1946, 0x19d0, 0x1a80, 0x1a90, 0x1b50, 0x1bb0, 0x1c40, 0x1c50, 0xa620, 0xa8d0, 0xa900,
    0xa9d0, 0xa9f0, 0xaa50, 0xabf0, 0xff10, 0x104a0, 0x10d30, 0x11066, 0x110f0, 0x11136, 0x111d0, 0x112f0, 0x11450, 0x114d0,
    0x11650, 0x116c0, 0x11730, 0x118e0, 0x11950, 0x11c50, 0x11d50, 0x11da0, 0x11f50, 0x16a60, 0x16ac0, 0x16b50, 0x1d7ce,
    0x1d7d8, 0x1d7e2, 0x1d7ec, 0x1d7f6, 0x1e140, 0x1e2f0, 0x1e4f0, 0x1e950, 0x1fbf0]

def digitValue (c : Char) : Option Nat :=
  (decimalZeros.find? (fun start => start ≤ c.toNat ∧ c.toNat < start + 10)).map (c.toNat - ·)

theorem digitValue_of_isDigit {c : Char} (h : c.isDigit) : digitValue c = some (c.toNat - 48) := by
  have bounds : 48 ≤ c.toNat ∧ c.toNat < 48 + 10 := by
    simp only [Char.isDigit, Bool.and_eq_true, decide_eq_true_eq, ge_iff_le] at h
    have lower : 48 ≤ c.toNat := h.1
    have upper : c.toNat ≤ 57 := h.2
    omega
  rw [digitValue, decimalZeros, List.find?_cons_of_pos (by simpa using bounds)]
  rfl

/-- Digits, with single underscores between them; `digit` says that one came last. -/
def digitsFrom : Nat → Bool → List Char → Option Nat
  | value, digit, [] => if digit then some value else none
  | value, digit, c :: rest =>
    match digitValue c with
    | some d => digitsFrom (10 * value + d) true rest
    | none => if c = '_' ∧ digit then digitsFrom value false rest else none

/-- `int(text)` -/
def readInt (text : String) : Option Int :=
  let body := ((text.toList.dropWhile isSpace).reverse.dropWhile isSpace).reverse
  match body with
  | '-' :: rest => (digitsFrom 0 false rest).map (fun value => -(value : Int))
  | '+' :: rest => (digitsFrom 0 false rest).map Int.ofNat
  | rest => (digitsFrom 0 false rest).map Int.ofNat

theorem digitsFrom_eq {digits : List Char} (h : ∀ c ∈ digits, c.isDigit) (value : Nat) (digit : Bool) (hdigit : digit ∨ digits ≠ []) :
    digitsFrom value digit digits = some (Nat.ofDigitChars 10 digits value) := by
  induction digits generalizing value digit with
  | nil =>
    rcases hdigit with hdigit | hne
    · rw [digitsFrom, if_pos hdigit]
      rfl
    · exact absurd rfl hne
  | cons c rest ih =>
    rw [digitsFrom, digitValue_of_isDigit (h c (List.mem_cons_self ..))]
    simp only
    rw [ih (fun c hc => h c (List.mem_cons_of_mem _ hc)) _ true (.inl rfl)]
    rfl

theorem isDigit_bounds {c : Char} (h : c.isDigit) : 48 ≤ c.toNat ∧ c.toNat ≤ 57 := by
  simp only [Char.isDigit, Bool.and_eq_true, decide_eq_true_eq, ge_iff_le] at h
  exact ⟨h.1, h.2⟩

theorem dropWhile_isSpace {digits : List Char} (h : ∀ c ∈ digits, c.isDigit) : digits.dropWhile isSpace = digits := by
  cases digits with
  | nil => rfl
  | cons c rest =>
    obtain ⟨lower, upper⟩ := isDigit_bounds (h c (List.mem_cons_self ..))
    have hspace : isSpace c = false := by
      unfold isSpace
      simp only [decide_eq_false_iff_not]
      simp
      omega
    rw [List.dropWhile_cons, hspace]
    rfl

/-- A number that is written out is read back. -/
theorem readInt_toString (n : Nat) : readInt (toString n) = some (n : Int) := by
  have hlist : (toString n).toList = Nat.toDigits 10 n := Nat.toList_repr
  have hdigits : ∀ c ∈ Nat.toDigits 10 n, c.isDigit := fun c hc => Nat.isDigit_of_mem_toDigits (by decide) (by decide) hc
  have hvalue : digitsFrom 0 false (Nat.toDigits 10 n) = some n := by
    rw [digitsFrom_eq hdigits 0 false (.inr Nat.toDigits_ne_nil), Nat.ofDigitChars_ten_toDigits]
  unfold readInt
  rw [hlist, dropWhile_isSpace hdigits, dropWhile_isSpace (fun c hc => hdigits c (List.mem_reverse.1 hc)), List.reverse_reverse]
  simp only
  -- No digit is a sign.
  split
  · rename_i rest hsign
    exact absurd (hdigits '-' (hsign ▸ List.mem_cons_self ..)) (by decide)
  · rename_i rest hsign
    exact absurd (hdigits '+' (hsign ▸ List.mem_cons_self ..)) (by decide)
  · rw [hvalue]
    rfl

end Motte.Foundation
