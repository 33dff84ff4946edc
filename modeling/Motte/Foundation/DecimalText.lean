import Mathlib.Data.List.TakeWhile
import Mathlib.Data.Nat.Digits.Lemmas
import Motte.Foundation.Decimal

/-! Decimal numbers as text.

A numeral is read digit by digit, in any script that has decimal digits, and refused when
its exponent is beyond what a number may have. A number written without an exponent, its
last zeros dropped, is read back as a number of the same value. -/
namespace Motte.Foundation

/-! ### Characters -/

/-- What is asked of characters: their value as a decimal digit, and whether they are space. -/
structure Unicode where
  digit : Char → Option ℕ
  space : Char → Bool
  digit_lt : ∀ {c n}, digit c = some n → n < 10
  digit_ascii : ∀ {c}, c.toNat < 128 → digit c = if c.isDigit then some (c.toNat - 48) else none
  digit_space : ∀ {c n}, digit c = some n → space c = false
  space_ascii : ∀ {c}, c.toNat < 128 → space c = decide (c.toNat ∈ [9, 10, 11, 12, 13, 28, 29, 30, 31, 32])

/-- Only what is ASCII. -/
def Unicode.ascii : Unicode where
  digit c := if c.isDigit then some (c.toNat - 48) else none
  space c := decide (c.toNat ∈ [9, 10, 11, 12, 13, 28, 29, 30, 31, 32])
  digit_lt := by
    intro c n h
    split at h
    · rename_i hc
      unfold Char.isDigit at hc
      have hle := (Bool.and_eq_true _ _ ▸ hc).2
      have hle' : c.toNat ≤ 57 := UInt32.le_iff_toNat_le.1 (of_decide_eq_true hle)
      cases h
      omega
    · cases h
  digit_ascii _ := rfl
  digit_space := by
    intro c n h
    split at h
    · rename_i hc
      unfold Char.isDigit at hc
      have hge := (Bool.and_eq_true _ _ ▸ hc).1
      have hge' : 48 ≤ c.toNat := UInt32.le_iff_toNat_le.1 (of_decide_eq_true hge)
      simp
      omega
    · cases h
  space_ascii _ := rfl

def Unicode.isDigit (u : Unicode) (c : Char) : Bool := (u.digit c).isSome

/-- `str.strip` -/
def Unicode.strip (u : Unicode) (text : List Char) : List Char :=
  ((text.dropWhile u.space).reverse.dropWhile u.space).reverse

/-- The digits in front, and what follows them. -/
def Unicode.readDigits (u : Unicode) : List Char → List ℕ × List Char
  | [] => ([], [])
  | c :: rest =>
    match u.digit c with
    | some n => (n :: (u.readDigits rest).1, (u.readDigits rest).2)
    | none => ([], c :: rest)

/-- The number with these digits, the first the highest. -/
def ofDigits (digits : List ℕ) : ℕ := Nat.ofDigits 10 digits.reverse

/-! ### Reading a numeral -/

/-- `Decimal` -/
inductive Decimal where
  | finite (x : FiniteDecimal)
  | infinite (negative : Bool)
  | nan (negative signaling : Bool) (payload : ℕ)
deriving DecidableEq

def readSign : List Char → Bool × List Char
  | '-' :: rest => (true, rest)
  | '+' :: rest => (false, rest)
  | rest => (false, rest)

/-- `[eE][+-]?\d+` or nothing. -/
def readExponent (u : Unicode) : List Char → Option ℤ
  | [] => some 0
  | c :: rest =>
    if c = 'e' ∨ c = 'E' then
      match u.readDigits (readSign rest).2 with
      | (d :: digits, []) =>
        some (if (readSign rest).1 then -(ofDigits (d :: digits) : ℤ) else ofDigits (d :: digits))
      | _ => none
    else none

/-- The digits after the point, if there is one. -/
def readFraction (u : Unicode) : List Char → List ℕ × List Char
  | '.' :: rest => u.readDigits rest
  | rest => ([], rest)

def readFinite (u : Unicode) (negative : Bool) (text : List Char) : Option FiniteDecimal :=
  let (whole, rest) := u.readDigits text
  let (fraction, rest) := readFraction u rest
  if whole = [] ∧ fraction = [] then none
  else (readExponent u rest).map (fun e =>
    { negative, coefficient := ofDigits (whole ++ fraction), exponent := e - fraction.length })

/-- `MIN_ETINY` and `MAX_EMAX`: the exponents a number may have. -/
def minEtiny : ℤ := -1999999999999999997
def maxEmax : ℤ := 999999999999999999

def FiniteDecimal.adjusted (x : FiniteDecimal) : ℤ := x.exponent + (numDigits x.coefficient - 1)

/-- The number is within the limits of the module. -/
def FiniteDecimal.withinLimits (x : FiniteDecimal) : Bool := minEtiny ≤ x.exponent && x.adjusted ≤ maxEmax

/-- The text, with its letters in lower case. -/
def lowered (text : List Char) : List Char := text.map Char.toLower

def readNan (u : Unicode) (negative signaling : Bool) (rest : List Char) : Except DecimalException Decimal :=
  match u.readDigits rest with
  | (digits, []) => .ok (.nan negative signaling (ofDigits digits))
  | _ => .error .invalidOperation

/-- `Decimal(text)` -/
def Decimal.ofText (u : Unicode) (text : List Char) : Except DecimalException Decimal :=
  let (negative, body) := readSign ((u.strip text).filter (· ≠ '_'))
  if lowered body = "inf".toList ∨ lowered body = "infinity".toList then .ok (.infinite negative)
  else if lowered (body.take 3) = "nan".toList then readNan u negative false (body.drop 3)
  else if lowered (body.take 4) = "snan".toList then readNan u negative true (body.drop 4)
  else match readFinite u negative body with
    | some x => if x.withinLimits then .ok (.finite x) else .error .invalidOperation
    | none => .error .invalidOperation

/-- `Decimal(n)` -/
def Decimal.ofInt (n : ℤ) : Decimal := .finite { negative := n < 0, coefficient := n.natAbs, exponent := 0 }

/-! ### Writing a number -/

namespace FiniteDecimal

/-- The digits of a coefficient, the highest first. -/
def digits (x : FiniteDecimal) : List ℕ := (Nat.digits 10 x.coefficient).reverse

/-- The digits before the point and those after it. -/
def places (x : FiniteDecimal) : List ℕ × List ℕ :=
  let left := x.exponent + x.digits.length
  if left ≤ 0 then ([0], List.replicate (-left).toNat 0 ++ x.digits)
  else if x.digits.length < left then (x.digits ++ List.replicate x.exponent.toNat 0, [])
  else (x.digits.take left.toNat, x.digits.drop left.toNat)

/-- The digits without the zeros at their end. -/
def trimmed (digits : List ℕ) : List ℕ := (digits.reverse.dropWhile (· = 0)).reverse

def digitText (digits : List ℕ) : List Char := digits.map Nat.digitChar

/-- `format(value, "f")`, without the zeros after the point that end it. -/
def plainText (x : FiniteDecimal) : List Char :=
  (if x.negative then ['-'] else []) ++ digitText x.places.1 ++
    (if trimmed x.places.2 = [] then [] else '.' :: digitText (trimmed x.places.2))

end FiniteDecimal

/-! ### Reading back what was written -/

section
variable {u : Unicode} {digits more : List ℕ} {x : FiniteDecimal}

theorem ofDigits_append (digits more : List ℕ) : ofDigits (digits ++ more) = ofDigits digits * 10 ^ more.length + ofDigits more := by
  unfold ofDigits
  rw [List.reverse_append, Nat.ofDigits_append, List.length_reverse]
  ring

@[simp] theorem ofDigits_zeros (k : ℕ) : ofDigits (List.replicate k 0) = 0 := by
  unfold ofDigits
  rw [List.reverse_replicate, Nat.ofDigits_replicate_zero]

theorem ofDigits_digits (x : FiniteDecimal) : ofDigits x.digits = x.coefficient := by
  unfold ofDigits FiniteDecimal.digits
  rw [List.reverse_reverse, Nat.ofDigits_digits]

theorem digitChar_ascii {d : ℕ} (h : d < 10) :
    (Nat.digitChar d).toNat = d + 48 ∧ (Nat.digitChar d).isDigit = true := by
  interval_cases d <;> decide

theorem Unicode.digit_digitChar (u : Unicode) {d : ℕ} (h : d < 10) : u.digit (Nat.digitChar d) = some d := by
  obtain ⟨hvalue, hdigit⟩ := digitChar_ascii h
  rw [u.digit_ascii (by omega), if_pos hdigit, hvalue]
  rfl

/-- The text does not begin with a digit. -/
def NoDigit (u : Unicode) (rest : List Char) : Prop := ∀ c ∈ rest.head?, u.digit c = none

theorem readDigits_noDigit {rest : List Char} (h : NoDigit u rest) : u.readDigits rest = ([], rest) := by
  cases rest with
  | nil => rfl
  | cons c rest =>
    unfold Unicode.readDigits
    rw [h c rfl]

theorem readDigits_digitText {rest : List Char} (hdigits : ∀ d ∈ digits, d < 10) (hrest : NoDigit u rest) :
    u.readDigits (FiniteDecimal.digitText digits ++ rest) = (digits, rest) := by
  induction digits with
  | nil => exact readDigits_noDigit hrest
  | cons d digits ih =>
    have ih' := ih (fun d' hd' => hdigits d' (List.mem_cons_of_mem _ hd'))
    simp only [FiniteDecimal.digitText] at ih'
    simp only [FiniteDecimal.digitText, List.map_cons, List.cons_append, Unicode.readDigits]
    rw [u.digit_digitChar (hdigits d (.head _)), ih']

theorem digits_lt (x : FiniteDecimal) : ∀ d ∈ x.digits, d < 10 := by
  intro d hd
  exact Nat.digits_lt_base (by norm_num) (List.mem_reverse.1 hd)

theorem places_lt (x : FiniteDecimal) : (∀ d ∈ x.places.1, d < 10) ∧ ∀ d ∈ x.places.2, d < 10 := by
  have hdigits := digits_lt x
  unfold FiniteDecimal.places
  simp only
  split
  · refine ⟨by simp, fun d hd => ?_⟩
    obtain hd | hd := List.mem_append.1 hd
    · rw [List.eq_of_mem_replicate hd]
      norm_num
    · exact hdigits d hd
  · split
    · refine ⟨fun d hd => ?_, by simp⟩
      obtain hd | hd := List.mem_append.1 hd
      · exact hdigits d hd
      · rw [List.eq_of_mem_replicate hd]
        norm_num
    · exact ⟨fun d hd => hdigits d (List.mem_of_mem_take hd), fun d hd => hdigits d (List.mem_of_mem_drop hd)⟩

/-- The digits on both sides of the point make up the number. -/
theorem places_value (x : FiniteDecimal) :
    (ofDigits (x.places.1 ++ x.places.2) : ℚ) * (10 : ℚ) ^ (-(x.places.2.length : ℤ)) =
      x.coefficient * (10 : ℚ) ^ x.exponent := by
  unfold FiniteDecimal.places
  simp only
  split
  · rename_i hleft
    have hlength : (-((List.replicate (-(x.exponent + x.digits.length)).toNat 0 ++ x.digits).length : ℤ)) = x.exponent := by
      rw [List.length_append, List.length_replicate]
      omega
    have hnumber : ofDigits ([0] ++ (List.replicate (-(x.exponent + x.digits.length)).toNat 0 ++ x.digits)) = x.coefficient := by
      rw [← List.append_assoc, ofDigits_append, ofDigits_digits]
      have hzero := ofDigits_zeros ((-(x.exponent + x.digits.length)).toNat + 1)
      rw [List.replicate_succ] at hzero
      rw [List.singleton_append, hzero, Nat.zero_mul, Nat.zero_add]
    simp only
    rw [hlength, hnumber]
  · split
    · rename_i hleft hlong
      have hpow := ten_zpow_int (e := x.exponent) (by omega)
      push_cast at hpow
      simp only [List.append_nil, List.length_nil]
      rw [ofDigits_append, ofDigits_digits, ofDigits_zeros, List.length_replicate, hpow]
      simp
    · rename_i hleft hlong
      have hlength : (-((x.digits.drop (x.exponent + x.digits.length).toNat).length : ℤ)) = x.exponent := by
        rw [List.length_drop]
        omega
      simp only
      rw [List.take_append_drop, ofDigits_digits, hlength]

theorem trimmed_append (digits : List ℕ) :
    ∃ k, digits = FiniteDecimal.trimmed digits ++ List.replicate k 0 := by
  refine ⟨(digits.reverse.takeWhile (· = 0)).length, ?_⟩
  have hsplit := congrArg List.reverse (List.takeWhile_append_dropWhile (p := (· = 0)) (l := digits.reverse))
  rw [List.reverse_append, List.reverse_reverse] at hsplit
  have hzeros : (digits.reverse.takeWhile (· = 0)).reverse = List.replicate (digits.reverse.takeWhile (· = 0)).length 0 := by
    rw [List.eq_replicate_iff]
    refine ⟨List.length_reverse, fun d hd => ?_⟩
    have hd' := List.mem_takeWhile_imp (List.mem_reverse.1 hd)
    simpa using hd'
  rw [hzeros] at hsplit
  exact hsplit.symm

/-- The zeros at the end of the fraction do not count. -/
theorem trimmed_value (whole fraction : List ℕ) :
    (ofDigits (whole ++ FiniteDecimal.trimmed fraction) : ℚ) * (10 : ℚ) ^ (-((FiniteDecimal.trimmed fraction).length : ℤ)) =
      ofDigits (whole ++ fraction) * (10 : ℚ) ^ (-(fraction.length : ℤ)) := by
  obtain ⟨k, hk⟩ := trimmed_append fraction
  have hlength : (fraction.length : ℤ) = (FiniteDecimal.trimmed fraction).length + k := by
    have h := congrArg List.length hk
    rw [List.length_append, List.length_replicate] at h
    omega
  have hnumber : ofDigits (whole ++ fraction) = ofDigits (whole ++ FiniteDecimal.trimmed fraction) * 10 ^ k := by
    rw [hk, ← List.append_assoc, ofDigits_append, ofDigits_zeros, List.length_replicate, ← hk, Nat.add_zero]
  rw [hnumber, hlength, neg_add, ten_zpow_add]
  push_cast
  rw [zpow_neg (10 : ℚ) (k : ℤ), zpow_natCast]
  field_simp

/-- What a written number is made of. -/
def Plain (c : Char) : Prop := c = '-' ∨ c = '.' ∨ ∃ d < 10, c = Nat.digitChar d

theorem Plain.read {c : Char} (h : Plain c) : u.space c = false ∧ c ≠ '_' := by
  have hascii : c.toNat < 128 ∧ c.toNat ∉ [9, 10, 11, 12, 13, 28, 29, 30, 31, 32] ∧ c ≠ '_' := by
    obtain rfl | rfl | ⟨d, hd, rfl⟩ := h
    · decide
    · decide
    · interval_cases d <;> decide
  rw [u.space_ascii hascii.1]
  exact ⟨decide_eq_false hascii.2.1, hascii.2.2⟩

theorem digitText_plain (hdigits : ∀ d ∈ digits, d < 10) : ∀ c ∈ FiniteDecimal.digitText digits, Plain c := by
  intro c hc
  obtain ⟨d, hd, rfl⟩ := List.mem_map.1 hc
  exact .inr (.inr ⟨d, hdigits d hd, rfl⟩)

theorem trimmed_lt (hdigits : ∀ d ∈ digits, d < 10) : ∀ d ∈ FiniteDecimal.trimmed digits, d < 10 := by
  obtain ⟨k, hk⟩ := trimmed_append digits
  intro d hd
  refine hdigits d ?_
  rw [hk]
  exact List.mem_append_left _ hd

theorem plainText_plain (x : FiniteDecimal) : ∀ c ∈ x.plainText, Plain c := by
  intro c hc
  unfold FiniteDecimal.plainText at hc
  simp only [List.mem_append] at hc
  obtain (hc | hc) | hc := hc
  · split at hc
    · exact .inl (List.mem_singleton.1 hc)
    · cases hc
  · exact digitText_plain (places_lt x).1 c hc
  · split at hc
    · cases hc
    · obtain rfl | hc := List.mem_cons.1 hc
      · exact .inr (.inl rfl)
      · exact digitText_plain (trimmed_lt (places_lt x).2) c hc

theorem strip_plain {text : List Char} (h : ∀ c ∈ text, Plain c) : (u.strip text).filter (· ≠ '_') = text := by
  have hstrip : ∀ l : List Char, (∀ c ∈ l, Plain c) → l.dropWhile u.space = l := by
    intro l hl
    cases l with
    | nil => rfl
    | cons c l => rw [List.dropWhile_cons_of_neg (by rw [((hl c (.head _)).read).1]; exact Bool.false_ne_true)]
  unfold Unicode.strip
  rw [hstrip text h, hstrip text.reverse (fun c hc => h c (List.mem_reverse.1 hc)), List.reverse_reverse,
    List.filter_eq_self]
  intro c hc
  simpa using ((h c hc).read (u := u)).2

theorem places_ne_nil (x : FiniteDecimal) : x.places.1 ≠ [] := by
  unfold FiniteDecimal.places
  simp only
  split
  · simp
  · split
    · intro hnil
      rw [List.append_eq_nil_iff] at hnil
      rename_i hleft hlong
      rw [hnil.1] at hleft hlong
      have hzero : x.exponent.toNat = 0 := by simpa using congrArg List.length hnil.2
      simp only [List.length_nil] at hleft
      omega
    · rename_i hleft hlong
      intro hnil
      have hlength := congrArg List.length hnil
      rw [List.length_take, List.length_nil] at hlength
      omega

theorem noDigit_point (rest : List Char) : NoDigit u ('.' :: rest) := by
  intro c hc
  cases hc
  rw [u.digit_ascii (by decide)]
  rfl

/-- The digits of a written number are read back. -/
theorem readFinite_plain (negative : Bool) (x : FiniteDecimal) :
    readFinite u negative (FiniteDecimal.digitText x.places.1 ++
      (if FiniteDecimal.trimmed x.places.2 = [] then [] else '.' :: FiniteDecimal.digitText (FiniteDecimal.trimmed x.places.2))) =
    some { negative, coefficient := ofDigits (x.places.1 ++ FiniteDecimal.trimmed x.places.2),
           exponent := -((FiniteDecimal.trimmed x.places.2).length : ℤ) } := by
  have hwhole := (places_lt x).1
  have hfraction := trimmed_lt (places_lt x).2
  unfold readFinite
  by_cases hnone : FiniteDecimal.trimmed x.places.2 = []
  · rw [if_pos hnone, readDigits_digitText hwhole (fun c hc => by cases hc), hnone]
    simp [readFraction, readExponent, places_ne_nil x]
  · rw [if_neg hnone]
    have hend : u.readDigits (FiniteDecimal.digitText (FiniteDecimal.trimmed x.places.2) ++ []) =
        (FiniteDecimal.trimmed x.places.2, []) := readDigits_digitText hfraction (fun c hc => by cases hc)
    rw [List.append_nil] at hend
    rw [readDigits_digitText hwhole (noDigit_point _)]
    simp only [readFraction, hend, places_ne_nil x, false_and, if_false, readExponent, Option.map_some, zero_sub]

/-- A word does not begin with a digit. -/
theorem lowered_digit {d : ℕ} (hd : d < 10) (rest : List Char) (n : ℕ) {w : Char} {word : List Char}
    (hw : w = 'i' ∨ w = 'n' ∨ w = 's') :
    lowered (Nat.digitChar d :: rest) ≠ w :: word ∧ lowered ((Nat.digitChar d :: rest).take (n + 1)) ≠ w :: word := by
  have hne : (Nat.digitChar d).toLower ≠ w := by
    obtain rfl | rfl | rfl := hw <;> interval_cases d <;> decide
  unfold lowered
  constructor
  · intro h
    exact hne (List.cons.inj h).1
  · intro h
    exact hne (List.cons.inj h).1

/-- The sign of a written number is read back. -/
theorem readSign_plain (x : FiniteDecimal) : readSign x.plainText = (x.negative, FiniteDecimal.digitText x.places.1 ++
    (if FiniteDecimal.trimmed x.places.2 = [] then [] else '.' :: FiniteDecimal.digitText (FiniteDecimal.trimmed x.places.2))) := by
  obtain ⟨d, rest, hd, hwhole⟩ : ∃ d rest, d < 10 ∧ FiniteDecimal.digitText x.places.1 = Nat.digitChar d :: rest := by
    cases hp : x.places.1 with
    | nil => exact absurd hp (places_ne_nil x)
    | cons d ds => exact ⟨d, _, (places_lt x).1 d (by rw [hp]; exact .head _), rfl⟩
  unfold FiniteDecimal.plainText
  rw [hwhole]
  cases x.negative
  · have hsign : ∀ more, readSign (Nat.digitChar d :: more) = (false, Nat.digitChar d :: more) := by
      intro more
      unfold readSign
      interval_cases d <;> rfl
    exact hsign _
  · rfl

/-- What was written is read back as a number of the same value. -/
theorem ofText_plainText (hlimits : ∀ y : FiniteDecimal, y.coefficient = ofDigits (x.places.1 ++ FiniteDecimal.trimmed x.places.2) →
      y.exponent = -((FiniteDecimal.trimmed x.places.2).length : ℤ) → y.withinLimits = true) :
    ∃ y : FiniteDecimal, Decimal.ofText u x.plainText = .ok (.finite y) ∧ y.value = x.value := by
  have hread := readSign_plain x
  obtain ⟨d, rest, hd, hwhole⟩ : ∃ d rest, d < 10 ∧ FiniteDecimal.digitText x.places.1 = Nat.digitChar d :: rest := by
    cases hp : x.places.1 with
    | nil => exact absurd hp (places_ne_nil x)
    | cons d ds => exact ⟨d, _, (places_lt x).1 d (by rw [hp]; exact .head _), rfl⟩
  refine ⟨{ negative := x.negative, coefficient := ofDigits (x.places.1 ++ FiniteDecimal.trimmed x.places.2),
            exponent := -((FiniteDecimal.trimmed x.places.2).length : ℤ) }, ?_, ?_⟩
  · unfold Decimal.ofText
    rw [strip_plain (plainText_plain x), hread]
    simp only
    rw [readFinite_plain]
    simp only
    have hinf : "inf".toList = ['i', 'n', 'f'] := rfl
    have hinfinity : "infinity".toList = ['i', 'n', 'f', 'i', 'n', 'i', 't', 'y'] := rfl
    have hnan : "nan".toList = ['n', 'a', 'n'] := rfl
    have hsnan : "snan".toList = ['s', 'n', 'a', 'n'] := rfl
    rw [if_pos (hlimits _ rfl rfl), hwhole, List.cons_append, hinf, hinfinity, hnan, hsnan]
    rw [if_neg (not_or.2 ⟨(lowered_digit hd _ 0 (.inl rfl)).1, (lowered_digit hd _ 0 (.inl rfl)).1⟩),
      if_neg (lowered_digit hd _ 2 (.inr (.inl rfl))).2, if_neg (lowered_digit hd _ 3 (.inr (.inr rfl))).2]
  · unfold FiniteDecimal.value FiniteDecimal.sign
    simp only
    rw [mul_assoc, mul_assoc, trimmed_value, places_value]

/-! ### One text for each value -/

theorem ofDigits_lt (h : ∀ d ∈ digits, d < 10) : ofDigits digits < 10 ^ digits.length := by
  unfold ofDigits
  rw [← List.length_reverse]
  exact Nat.ofDigits_lt_base_pow_length (by norm_num) (fun d hd => h d (List.mem_reverse.1 hd))

theorem ofDigits_inj (hlength : digits.length = more.length) (h : ∀ d ∈ digits, d < 10) (h' : ∀ d ∈ more, d < 10)
    (heq : ofDigits digits = ofDigits more) : digits = more := by
  have hreverse := Nat.ofDigits_inj_of_len_eq (by norm_num) (by rw [List.length_reverse, List.length_reverse, hlength])
    (fun d hd => h d (List.mem_reverse.1 hd)) (fun d hd => h' d (List.mem_reverse.1 hd)) heq
  exact List.reverse_injective hreverse

/-- The digits before a point: a zero by itself, or a number that does not begin with one. -/
def WholeDigits (digits : List ℕ) : Prop := digits = [0] ∨ ∃ h : digits ≠ [], digits.head h ≠ 0

theorem wholeDigits_inj (hw : WholeDigits digits) (hw' : WholeDigits more) (h : ∀ d ∈ digits, d < 10)
    (h' : ∀ d ∈ more, d < 10) (heq : ofDigits digits = ofDigits more) : digits = more := by
  have hread : ∀ {l : List ℕ}, (∀ d ∈ l, d < 10) → (∃ hne : l ≠ [], l.head hne ≠ 0) → Nat.digits 10 (ofDigits l) = l.reverse := by
    rintro l hl ⟨hne, hhead⟩
    refine Nat.digits_ofDigits 10 (by norm_num) l.reverse (fun d hd => hl d (List.mem_reverse.1 hd)) (fun hrev => ?_)
    rw [List.getLast_reverse]
    exact hhead
  have hzero : ofDigits [0] = 0 := rfl
  obtain rfl | hhead := hw
  · obtain rfl | hhead' := hw'
    · rfl
    · have hdigits := hread h' hhead'
      rw [← heq, hzero, Nat.digits_zero] at hdigits
      obtain ⟨hne, -⟩ := hhead'
      exact absurd (List.reverse_eq_nil_iff.1 hdigits.symm) hne
  · obtain rfl | hhead' := hw'
    · have hdigits := hread h hhead
      rw [heq, hzero, Nat.digits_zero] at hdigits
      obtain ⟨hne, -⟩ := hhead
      exact absurd (List.reverse_eq_nil_iff.1 hdigits.symm) hne
    · have hdigits := hread h hhead
      rw [heq, hread h' hhead'] at hdigits
      exact (List.reverse_injective hdigits).symm

theorem places_whole (hx : x.coefficient ≠ 0) : WholeDigits x.places.1 := by
  have hne : x.digits ≠ [] := by
    unfold FiniteDecimal.digits
    rw [Ne, List.reverse_eq_nil_iff, Nat.digits_eq_nil_iff_eq_zero]
    exact hx
  have hhead : x.digits.head hne ≠ 0 := by
    have hlast := Nat.getLast_digit_ne_zero 10 hx
    exact (List.head_reverse (l := Nat.digits 10 x.coefficient) hne).trans_ne hlast
  unfold FiniteDecimal.places
  simp only
  split
  · exact .inl rfl
  · rename_i hleft
    split
    · right
      refine ⟨List.append_ne_nil_of_left_ne_nil hne _, ?_⟩
      rw [List.head_append_of_ne_nil hne]
      exact hhead
    · right
      have hpos : 0 < (x.exponent + x.digits.length).toNat := by omega
      refine ⟨?_, ?_⟩
      · rw [Ne, List.take_eq_nil_iff]
        exact not_or.2 ⟨hpos.ne', hne⟩
      · rw [List.head_take]
        exact hhead

theorem trimmed_last (digits : List ℕ) (hne : FiniteDecimal.trimmed digits ≠ []) :
    (FiniteDecimal.trimmed digits).getLast hne ≠ 0 := by
  unfold FiniteDecimal.trimmed at hne ⊢
  rw [List.getLast_reverse]
  have hne' : digits.reverse.dropWhile (· = 0) ≠ [] := by simpa using hne
  have hhead := List.head_dropWhile_not (fun d : ℕ => decide (d = 0)) hne'
  simpa using hhead

/-- A fraction that ends in a digit is not made longer by another of the same value. -/
theorem fraction_length {whole whole' fraction fraction' : List ℕ}
    (hlast : ∀ hne : fraction' ≠ [], fraction'.getLast hne ≠ 0) (hlt : ∀ d ∈ fraction', d < 10)
    (heq : (ofDigits (whole ++ fraction) : ℚ) * (10 : ℚ) ^ (-(fraction.length : ℤ)) =
      ofDigits (whole' ++ fraction') * (10 : ℚ) ^ (-(fraction'.length : ℤ))) :
    fraction'.length ≤ fraction.length := by
  by_contra hlonger
  have hne : fraction' ≠ [] := by
    intro hnil
    rw [hnil, List.length_nil] at hlonger
    omega
  obtain ⟨k, hk⟩ : ∃ k : ℕ, fraction'.length = fraction.length + k + 1 := ⟨fraction'.length - fraction.length - 1, by omega⟩
  have hscaled : (ofDigits (whole ++ fraction) : ℚ) * 10 ^ (k + 1) = ofDigits (whole' ++ fraction') := by
    have hpow : (10 : ℚ) ^ (-(fraction.length : ℤ)) = (10 : ℚ) ^ (-(fraction'.length : ℤ)) * 10 ^ (k + 1) := by
      rw [← zpow_natCast (10 : ℚ) (k + 1), ← ten_zpow_add]
      congr 1
      omega
    rw [hpow] at heq
    have hpos := (ten_zpow_pos (-(fraction'.length : ℤ))).ne'
    have hcancel : (10 : ℚ) ^ (-(fraction'.length : ℤ)) * ((ofDigits (whole ++ fraction) : ℚ) * 10 ^ (k + 1)) =
        (10 : ℚ) ^ (-(fraction'.length : ℤ)) * ofDigits (whole' ++ fraction') := by
      rw [mul_comm _ (ofDigits (whole' ++ fraction') : ℚ), ← heq]
      ring
    exact mul_left_cancel₀ hpos hcancel
  have hnat : ofDigits (whole ++ fraction) * 10 ^ (k + 1) = ofDigits (whole' ++ fraction') := by exact_mod_cast hscaled
  have hsplit := List.dropLast_concat_getLast hne
  have hdigit : fraction'.getLast hne < 10 := hlt _ (List.getLast_mem hne)
  have hlastdigit : ofDigits (whole' ++ fraction') % 10 = fraction'.getLast hne := by
    generalize fraction'.getLast hne = d at *
    have hone : ofDigits [d] = d := by simp [ofDigits]
    rw [← hsplit, ← List.append_assoc, ofDigits_append, List.length_singleton, pow_one, hone]
    omega
  rw [← hnat, pow_succ, ← Nat.mul_assoc, Nat.mul_mod_left] at hlastdigit
  exact hlast hne hlastdigit.symm

theorem negative_iff (hx : x.coefficient ≠ 0) : x.negative = true ↔ x.value < 0 := by
  have hpos : (0 : ℚ) < x.coefficient * (10 : ℚ) ^ x.exponent :=
    mul_pos (Nat.cast_pos.2 (Nat.pos_of_ne_zero hx)) (ten_zpow_pos _)
  unfold FiniteDecimal.value FiniteDecimal.sign
  rw [mul_assoc]
  cases x.negative with
  | true => simpa using hpos
  | false => simpa using hpos.le

/-- The value of a number, from the digits that are written. -/
theorem value_eq_written (x : FiniteDecimal) : x.value = x.sign *
    ((ofDigits (x.places.1 ++ FiniteDecimal.trimmed x.places.2) : ℚ) * (10 : ℚ) ^ (-((FiniteDecimal.trimmed x.places.2).length : ℤ))) := by
  unfold FiniteDecimal.value
  rw [trimmed_value, places_value, mul_assoc]

/-- The text gives the value. -/
theorem value_of_plainText {y : FiniteDecimal} (h : x.plainText = y.plainText) : x.value = y.value := by
  have hread := congrArg readSign h
  rw [readSign_plain, readSign_plain, Prod.mk.injEq] at hread
  have hfinite := congrArg (readFinite Unicode.ascii true) hread.2
  rw [readFinite_plain, readFinite_plain, Option.some.injEq, FiniteDecimal.mk.injEq] at hfinite
  obtain ⟨-, hcoefficient, hexponent⟩ := hfinite
  rw [value_eq_written x, value_eq_written y, hcoefficient, hexponent]
  unfold FiniteDecimal.sign
  rw [hread.1]

/-- Numbers other than zero have one text exactly when they have one value. -/
theorem plainText_eq_iff {y : FiniteDecimal} (hx : x.coefficient ≠ 0) (hy : y.coefficient ≠ 0) :
    x.plainText = y.plainText ↔ x.value = y.value := by
  constructor
  · exact value_of_plainText
  · intro h
    have hnegative : x.negative = y.negative := by
      rw [Bool.eq_iff_iff, negative_iff hx, negative_iff hy, h]
    have hsize : (ofDigits (x.places.1 ++ FiniteDecimal.trimmed x.places.2) : ℚ) * (10 : ℚ) ^ (-((FiniteDecimal.trimmed x.places.2).length : ℤ)) =
        ofDigits (y.places.1 ++ FiniteDecimal.trimmed y.places.2) * (10 : ℚ) ^ (-((FiniteDecimal.trimmed y.places.2).length : ℤ)) := by
      have hsign : (x.sign : ℚ) ≠ 0 := by
        obtain hs | hs := x.sign_cases <;> rw [hs] <;> norm_num
      have hsame : x.sign = y.sign := by
        unfold FiniteDecimal.sign
        rw [hnegative]
      rw [value_eq_written x, value_eq_written y, ← hsame] at h
      exact mul_left_cancel₀ hsign h
    have hlt := trimmed_lt (places_lt x).2
    have hlt' := trimmed_lt (places_lt y).2
    have hlength : (FiniteDecimal.trimmed x.places.2).length = (FiniteDecimal.trimmed y.places.2).length :=
      le_antisymm (fraction_length (trimmed_last _) hlt hsize.symm) (fraction_length (trimmed_last _) hlt' hsize)
    have hnumber : ofDigits (x.places.1 ++ FiniteDecimal.trimmed x.places.2) = ofDigits (y.places.1 ++ FiniteDecimal.trimmed y.places.2) := by
      rw [hlength] at hsize
      exact_mod_cast mul_right_cancel₀ (ten_zpow_pos _).ne' hsize
    have hfraction_lt := ofDigits_lt hlt
    have hfraction_lt' := ofDigits_lt hlt'
    rw [ofDigits_append, ofDigits_append, hlength] at hnumber
    rw [hlength] at hfraction_lt
    have hpos : 0 < 10 ^ (FiniteDecimal.trimmed y.places.2).length := Nat.pow_pos (by norm_num)
    have hwhole : ofDigits x.places.1 = ofDigits y.places.1 := by
      have hdiv := congrArg (· / 10 ^ (FiniteDecimal.trimmed y.places.2).length) hnumber
      simp only [Nat.mul_comm _ (10 ^ (FiniteDecimal.trimmed y.places.2).length)] at hdiv
      rwa [Nat.mul_add_div hpos, Nat.mul_add_div hpos, Nat.div_eq_of_lt hfraction_lt, Nat.div_eq_of_lt hfraction_lt',
        Nat.add_zero, Nat.add_zero] at hdiv
    have hfraction : ofDigits (FiniteDecimal.trimmed x.places.2) = ofDigits (FiniteDecimal.trimmed y.places.2) := by
      rw [hwhole] at hnumber
      omega
    have hwhole' := wholeDigits_inj (places_whole hx) (places_whole hy) (places_lt x).1 (places_lt y).1 hwhole
    have hfraction' := ofDigits_inj hlength hlt hlt' hfraction
    unfold FiniteDecimal.plainText
    rw [hnegative, hwhole', hfraction']

end

end Motte.Foundation
