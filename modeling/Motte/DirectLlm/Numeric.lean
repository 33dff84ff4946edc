import Mathlib.Data.List.Sort
import Motte.Foundation.DecimalText
import Motte.Foundation.Table

/-! The numeric scorer.

A number is parsed from the final marker, kept within bounds on its digits, its exponent and
its length, and compared with the expected one: exactly, or within an absolute or a relative
tolerance. A fraction is divided when it is parsed; differences and products are computed when
numbers are compared, with twice the digits a number may have. -/
namespace Motte.DirectLlm
open Foundation

/-! ### Limits -/

def maxNumberLength : ℕ := 256
def maxNumberSignificantDigits : ℕ := 128
def maxNumberAbsoluteExponent : ℕ := 1000
def maxNormalizedNumberLength : ℕ := 1024
def numericDivisionPrecision : ℕ := maxNumberSignificantDigits
def numericOperationPrecision : ℕ := 256
def numericOperationExponentLimit : ℤ := 4096

/-- `_numeric_context` -/
def numericContext (precision : ℕ) : DecimalContext :=
  { prec := precision, emin := -numericOperationExponentLimit, emax := numericOperationExponentLimit }

structure ParseFailure where
  code : String
deriving DecidableEq

/-- What is raised: a `ValueError`, a `_NumericOperationError`, or a `DecimalException` that nobody caught. -/
inductive ScorerError where
  | value (message : String)
  | operation (code : String)
  | decimal (exception : DecimalException)
deriving DecidableEq

/-- A value of a configuration or of an expectation. -/
inductive Scalar where
  | none
  | bool (b : Bool)
  | int (n : ℤ)
  | float
  | decimal (d : Decimal)
  | text (s : List Char)
  | list (items : List Scalar)
  | other

/-! ### Bounds -/

/-- `_decimal_text` -/
def decimalText : Decimal → List Char
  | .nan negative _ _ => (if negative then "-NaN" else "NaN").toList
  | .infinite negative => (if negative then "-Infinity" else "Infinity").toList
  | .finite x => if x.isZero then ['0'] else x.plainText

/-- `_numeric_bounds_failure` -/
def numericBoundsFailure : Decimal → Option ParseFailure
  | .finite x =>
    if maxNumberSignificantDigits < numDigits x.coefficient then some ⟨"too_many_significant_digits"⟩
    else if maxNumberAbsoluteExponent < x.exponent.natAbs then some ⟨"exponent_out_of_bounds"⟩
    else if maxNormalizedNumberLength < (decimalText (.finite x)).length then some ⟨"normalized_number_too_long"⟩
    else none
  | _ => none

/-- `_bounded_numeric_text` -/
def boundedNumericText (x : Decimal) : Except ScorerError (List Char) :=
  match numericBoundsFailure x with
  | some failure => .error (.operation failure.code)
  | none => .ok (decimalText x)

/-! ### Configuration -/

def belowZero (x : FiniteDecimal) : Bool := x.negative && !x.isZero

/-- `_config_decimal`, as far as the value is a number at all. -/
def configNumber (u : Unicode) (value : Scalar) (field : String) : Except ScorerError Decimal :=
  match value with
  | .int n => .ok (Decimal.ofInt n)
  | .decimal d => .ok d
  | .text s =>
    if maxNumberLength < s.length then .error (.value s!"{field} exceeds numeric bounds: number_too_long")
    else match Decimal.ofText u s with
      | .ok d => .ok d
      | .error _ => .error (.value s!"{field} must be a decimal value")
  | _ => .error (.value s!"{field} must be a decimal string, integer, or Decimal")

/-- `_config_decimal` -/
def configDecimal (u : Unicode) (value : Scalar) (field : String) : Except ScorerError FiniteDecimal :=
  match configNumber u value field with
  | .error e => .error e
  | .ok (.finite x) =>
    if belowZero x then .error (.value s!"{field} must be finite and non-negative")
    else match numericBoundsFailure (.finite x) with
      | some failure => .error (.value s!"{field} exceeds numeric bounds: {failure.code}")
      | none => .ok x
  | .ok _ => .error (.value s!"{field} must be finite and non-negative")

/-- A mode, with the text of its tolerance. -/
inductive NumericMode where
  | exact
  | absoluteTolerance (tolerance : List Char)
  | relativeTolerance (tolerance : List Char)
deriving DecidableEq

structure NumericConfig where
  mode : NumericMode
  allowSign : Bool
  allowThousands : Bool
  allowScientific : Bool
  allowFraction : Bool
  allowNonFinite : Bool
deriving DecidableEq

def numericFields : List String :=
  ["absolute_tolerance", "allow_fraction", "allow_non_finite", "allow_scientific", "allow_sign", "allow_thousands", "mode",
   "relative_tolerance"]

/-- `_unknown_config` -/
def unknownConfig (config : Table String Scalar) (allowed : List String) : Except ScorerError Unit :=
  let unknown := ((config.rows.map Prod.fst).filter (fun field => field ∉ allowed)).insertionSort (· ≤ ·)
  if unknown = [] then .ok ()
  else .error (.value ("unknown scorer config fields: " ++ ", ".intercalate unknown))

/-- A field that is given, and is not `None`. -/
def given (config : Table String Scalar) (field : String) : Option Scalar :=
  match config.get field with
  | some .none => none
  | value => value

/-- A field that must be a boolean. -/
def booleanField (config : Table String Scalar) (field : String) (default : Bool) : Except ScorerError Bool :=
  match config.get field with
  | none => .ok default
  | some (.bool b) => .ok b
  | some _ => .error (.value s!"{field} must be a boolean")

/-- The mode that is named, or follows from the tolerance that is given. -/
def modeName (config : Table String Scalar) : Except ScorerError String :=
  match given config "mode" with
  | none =>
    .ok (if (given config "absolute_tolerance").isSome then "absolute_tolerance"
      else if (given config "relative_tolerance").isSome then "relative_tolerance" else "exact")
  | some (.text s) =>
    if String.ofList s ∈ ["exact", "absolute_tolerance", "relative_tolerance"] then .ok (String.ofList s)
    else .error (.value "numeric mode must be exact, absolute_tolerance, or relative_tolerance")
  | some _ => .error (.value "numeric mode must be exact, absolute_tolerance, or relative_tolerance")

/-- The mode and its tolerance. -/
def numericMode (u : Unicode) (config : Table String Scalar) : Except ScorerError NumericMode := do
  let absolute := given config "absolute_tolerance"
  let relative := given config "relative_tolerance"
  if absolute.isSome && relative.isSome then
    throw (.value "absolute_tolerance and relative_tolerance are mutually exclusive")
  match ← modeName config, absolute, relative with
  | "exact", none, none => return .exact
  | "exact", _, _ => throw (.value "exact mode cannot include a tolerance")
  | "absolute_tolerance", some value, none =>
    let tolerance ← configDecimal u value "absolute_tolerance"
    return .absoluteTolerance (← boundedNumericText (.finite tolerance))
  | "absolute_tolerance", _, _ => throw (.value "absolute_tolerance mode requires only absolute_tolerance")
  | _, none, some value =>
    let tolerance ← configDecimal u value "relative_tolerance"
    return .relativeTolerance (← boundedNumericText (.finite tolerance))
  | _, _, _ => throw (.value "relative_tolerance mode requires only relative_tolerance")

/-- `NumericScorer.normalize_config` -/
def normalizeNumericConfig (u : Unicode) (config : Table String Scalar) : Except ScorerError NumericConfig := do
  unknownConfig config numericFields
  let mode ← numericMode u config
  let allowSign ← booleanField config "allow_sign" true
  let allowThousands ← booleanField config "allow_thousands" true
  let allowScientific ← booleanField config "allow_scientific" false
  let allowFraction ← booleanField config "allow_fraction" false
  let allowNonFinite ← booleanField config "allow_non_finite" false
  if allowNonFinite && mode ≠ .exact then throw (.value "non-finite numbers are only supported in exact mode")
  return { mode, allowSign, allowThousands, allowScientific, allowFraction, allowNonFinite }

/-! ### Parsing a number -/

def nonfiniteNumbers : List (List Char) :=
  ["NaN", "+NaN", "-NaN", "Infinity", "+Infinity", "-Infinity"].map String.toList

def allDigits (u : Unicode) (text : List Char) : Bool := text ≠ [] && text.all u.isDigit

/-- `\d+`, or groups of three digits where they are allowed. -/
def isUnsigned (u : Unicode) (allowThousands : Bool) (text : List Char) : Bool :=
  allDigits u text || allowThousands &&
    match text.splitOn ',' with
    | first :: group :: groups =>
      allDigits u first && first.length ≤ 3 && (group :: groups).all (fun g => allDigits u g && g.length = 3)
    | _ => false

def isExponent (u : Unicode) (allowScientific : Bool) (text : List Char) : Bool :=
  text = [] || allowScientific && (readExponent u text).isSome

/-- `_numeric_pattern(config).fullmatch` -/
def matchesNumber (u : Unicode) (config : NumericConfig) (token : List Char) : Bool :=
  let body := if config.allowSign then (readSign token).2 else token
  let unsigned := body.takeWhile (fun c => u.isDigit c || c = ',')
  isUnsigned u config.allowThousands unsigned &&
    match body.drop unsigned.length with
    | '.' :: rest =>
      allDigits u (rest.takeWhile u.isDigit) && isExponent u config.allowScientific (rest.dropWhile u.isDigit)
    | rest => isExponent u config.allowScientific rest

/-- `([+-]?\d+)/(\d+)`, with the sign where it is allowed. -/
def fractionParts (u : Unicode) (allowSign : Bool) (token : List Char) : Option (List Char × List Char) :=
  let numerator := token.takeWhile (· ≠ '/')
  let denominator := (token.dropWhile (· ≠ '/')).drop 1
  if allDigits u (if allowSign then (readSign numerator).2 else numerator) && allDigits u denominator then
    some (numerator, denominator)
  else none

/-- The quotient of two operands within bounds. -/
def parseFraction (u : Unicode) (numerator denominator : List Char) : Except ParseFailure Decimal :=
  match Decimal.ofText u numerator, Decimal.ofText u denominator with
  | .ok (.finite a), .ok (.finite b) =>
    match (numericBoundsFailure (.finite a)).or (numericBoundsFailure (.finite b)) with
    | some failure => .error failure
    | none =>
      if b.isZero then .error ⟨"division_by_zero"⟩
      else match (numericContext numericDivisionPrecision).div a b with
        | .error _ => .error ⟨"numeric_operation_failed"⟩
        | .ok parsed =>
          match numericBoundsFailure (.finite parsed) with
          | some failure => .error failure
          | none => .ok (.finite parsed)
  | _, _ => .error ⟨"numeric_operation_failed"⟩

/-- `_parse_numeric_token` -/
def parseNumericToken (u : Unicode) (token : List Char) (config : NumericConfig) : Except ParseFailure Decimal :=
  if maxNumberLength < token.length then .error ⟨"number_too_long"⟩
  else if token ∈ nonfiniteNumbers then
    if !config.allowNonFinite then .error ⟨"non_finite_not_allowed"⟩
    else if (token.head? = some '+' ∨ token.head? = some '-') ∧ !config.allowSign then .error ⟨"invalid_number"⟩
    else match Decimal.ofText u token with
      | .ok d => .ok d
      | .error _ => .error ⟨"invalid_number"⟩
  else if '/' ∈ token then
    if !config.allowFraction then .error ⟨"fraction_not_allowed"⟩
    else match fractionParts u config.allowSign token with
      | none => .error ⟨"invalid_fraction"⟩
      | some (numerator, denominator) => parseFraction u numerator denominator
  else if ('e' ∈ token ∨ 'E' ∈ token) ∧ !config.allowScientific then .error ⟨"scientific_not_allowed"⟩
  else if !matchesNumber u config token then .error ⟨"invalid_number"⟩
  else match Decimal.ofText u (token.filter (· ≠ ',')) with
    | .error _ => .error ⟨"invalid_number"⟩
    | .ok parsed =>
      match numericBoundsFailure parsed with
      | some failure => .error failure
      | none => .ok parsed

/-! ### Comparing -/

/-- `==` of two numbers, neither of them a NaN. -/
def Decimal.same : Decimal → Decimal → Bool
  | .finite x, .finite y => x.equals y
  | .infinite a, .infinite b => a = b
  | _, _ => false

def isNan : Decimal → Bool
  | .nan .. => true
  | _ => false

/-- The comparison within a tolerance, in the context of the operations. -/
def withinTolerance (u : Unicode) (tolerance : List Char) (relative : Bool) (parsed expected : FiniteDecimal) :
    Except DecimalException Bool := do
  let c := numericContext numericOperationPrecision
  match ← Decimal.ofText u tolerance with
  | .finite tolerance =>
    let difference ← c.abs (← c.sub parsed expected)
    if relative then return difference.atMost (← c.mul tolerance (← c.abs expected))
    else return difference.atMost tolerance
  -- the tolerance of a configuration is finite
  | _ => throw .invalidOperation

/-- The end of the comparison, where a `DecimalException` is one of the scorer's own. -/
def operated {α : Type} : Except DecimalException α → Except ScorerError α
  | .ok x => .ok x
  | .error _ => .error (.operation "numeric_operation_failed")

/-- `NumericScorer.compare` -/
def compareNumeric (u : Unicode) (parsed expected : Decimal) (config : NumericConfig) : Except ScorerError Bool :=
  if isNan parsed || isNan expected then .ok (parsed = expected)
  else match config.mode with
    | .exact => .ok (Decimal.same parsed expected)
    | .absoluteTolerance tolerance =>
      match parsed, expected with
      | .finite p, .finite e => operated (withinTolerance u tolerance false p e)
      | _, _ => .ok false
    | .relativeTolerance tolerance =>
      match parsed, expected with
      | .finite p, .finite e => operated (withinTolerance u tolerance true p e)
      | _, _ => .ok false

/-- `NumericScorer.validate_expected` -/
def validateNumericExpected (u : Unicode) (expected : Scalar) (config : NumericConfig) : Except ScorerError Decimal :=
  let parsed : Except ScorerError Decimal :=
    match expected with
    | .bool _ | .float => .error (.value "numeric expected must not be a boolean or binary float")
    | .decimal d => .ok d
    | .int n => .ok (Decimal.ofInt n)
    | .text s =>
      match parseNumericToken u s config with
      | .ok d => .ok d
      | .error failure => .error (.value s!"invalid numeric expected: {failure.code}")
    | _ => .error (.value "numeric expected must be a decimal string, integer, or Decimal")
  match parsed with
  | .error e => .error e
  | .ok d =>
    match d, config.allowNonFinite with
    | .finite x, _ =>
      match numericBoundsFailure (.finite x) with
      | some failure => .error (.value s!"invalid numeric expected: {failure.code}")
      | none => .ok d
    | d, true => .ok d
    | _, false => .error (.value "invalid numeric expected: non_finite_not_allowed")

end Motte.DirectLlm
