import Motte.DirectLlm.JsonText
import Motte.Foundation.Json

/-! Scoring one result.

A specification is resolved to one of four scorers with its configuration. A result is
parsed by the scorer, compared with the expected value and written down; what goes wrong in
parsing, comparing or writing becomes an outcome of its own. What a scorer reads of a text
is done here on its characters. -/
namespace Motte.DirectLlm
open Foundation

/-! ### Lines and markers -/

/-- The characters at which a line ends. -/
def isLineBreak (c : Char) : Bool := c.toNat ∈ [10, 11, 12, 13, 28, 29, 30, 133, 8232, 8233]

/-- `str.splitlines`, after the part of a line that was read. -/
def splitLines (line : List Char) : List Char → List (List Char)
  | [] => if line = [] then [] else [line]
  | '\r' :: '\n' :: rest => line :: splitLines [] rest
  | c :: rest => if isLineBreak c then line :: splitLines [] rest else splitLines (line ++ [c]) rest

/-- `_last_nonempty_line` -/
def lastNonemptyLine (u : Unicode) (content : List Char) : Option (List Char) :=
  ((splitLines [] content).filter (fun line => u.strip line ≠ [])).getLast?

def markerStart : List Char := "[ANSWER:".toList

def markerOf (token : List Char) : List Char := markerStart ++ token ++ [']']

/-- How much of a marker was read: what of its start is still to come, or its token. -/
inductive MarkerState where
  | outside (expected : List Char)
  | inside (token : List Char)

/-- `_MARKER.findall` -/
def markers : MarkerState → List Char → List (List Char)
  | _, [] => []
  | .outside expected, c :: rest =>
    match expected with
    | [] => []
    | e :: expected =>
      if c = e then markers (if expected = [] then .inside [] else .outside expected) rest
      else if c = '[' then markers (.outside (markerStart.drop 1)) rest
      else markers (.outside markerStart) rest
  | .inside token, c :: rest =>
    if c = ']' then token :: markers (.outside markerStart) rest
    else if c = '\r' ∨ c = '\n' then markers (.outside markerStart) rest
    else markers (.inside (token ++ [c])) rest

/-! ### Scorers -/

/-- A scorer with its configuration. -/
inductive Scorer where
  | exact (normalizeWhitespace caseSensitive : Bool)
  | choice (labels : List (List Char)) (allowBareFinalLabel : Bool)
  | numeric (config : NumericConfig)
  | jsonEqual

/-- What is asked of the environment: the tables of characters, folding of case, how many containers
a JSON text may have open, and the digest of a configuration. -/
structure Setup where
  unicode : Unicode
  casefold : List Char → List Char
  jsonLimit : ℕ
  sha : Scorer → String

/-- A parsed value, or an expected one. -/
inductive Parsed where
  | text (s : List Char)
  | number (d : Decimal)
  | json (v : JsonValue)

def words (u : Unicode) (text : List Char) : List (List Char) := (text.splitOnP u.space).filter (· ≠ [])

/-- `_normalize_exact_text` -/
def normalizeExactText (s : Setup) (normalizeWhitespace caseSensitive : Bool) (value : List Char) : List Char :=
  let stripped := s.unicode.strip value
  let folded := if normalizeWhitespace then List.intercalate [' '] (words s.unicode stripped) else stripped
  if caseSensitive then folded else s.casefold folded

/-- `ExactScorer.normalize_config` -/
def normalizeExactConfig (config : Table String Scalar) : Except ScorerError Scorer := do
  unknownConfig config ["normalize_whitespace", "case_sensitive"]
  let normalizeWhitespace ← booleanField config "normalize_whitespace" false
  let caseSensitive ← booleanField config "case_sensitive" true
  return .exact normalizeWhitespace caseSensitive

def isAsciiLabel : Scalar → Option (List Char)
  | .text [c] => if 'A' ≤ c ∧ c ≤ 'Z' then some [c] else none
  | _ => none

/-- `ChoiceScorer.normalize_config` -/
def normalizeChoiceConfig (config : Table String Scalar) : Except ScorerError Scorer := do
  unknownConfig config ["labels", "allow_bare_final_label"]
  match config.get "labels" with
  | some (.list labels) =>
    if ¬ (2 ≤ labels.length ∧ labels.length ≤ 26) then throw (.value "choice labels must contain 2-26 values")
    match labels.mapM isAsciiLabel with
    | none => throw (.value "choice labels must be single uppercase ASCII letters")
    | some labels =>
      if ¬ labels.Nodup then throw (.value "choice labels must not contain duplicates")
      let allowBare ← booleanField config "allow_bare_final_label" false
      return .choice labels allowBare
  | _ => throw (.value "choice labels must be a list")

/-- `implementation.normalize_config` -/
def normalizeConfig (s : Setup) (id : String) (config : Table String Scalar) : Except ScorerError Scorer :=
  match id with
  | "exact" => normalizeExactConfig config
  | "choice" => normalizeChoiceConfig config
  | "numeric" => (normalizeNumericConfig s.unicode config).map .numeric
  | "json_equal" => (unknownConfig config []).map (fun _ => .jsonEqual)
  | _ => .error (.value "unsupported scorer")

def Scorer.id : Scorer → String
  | .exact .. => "exact"
  | .choice .. => "choice"
  | .numeric _ => "numeric"
  | .jsonEqual => "json_equal"

structure ScorerSpec where
  id : String
  version : String
  config : Table String Scalar
  configSha256 : String

/-- `resolve_scorer` -/
def resolveScorer (s : Setup) (spec : ScorerSpec) : Except ScorerError Scorer :=
  if spec.version ≠ "1" then .error (.value s!"unsupported scorer: {spec.id}@{spec.version}")
  else match normalizeConfig s spec.id spec.config with
    | .error e => .error e
    | .ok scorer =>
      if spec.configSha256 ≠ s.sha scorer then .error (.value "scorer config_sha256 mismatch after normalization")
      else .ok scorer

/-! ### Expected values, outputs and comparison -/

-- Membership of a text in a list of texts.
local instance lawfulLabels : LawfulBEq (List Char) := inferInstance

/-- `ChoiceScorer.parse_output` -/
def parseChoiceOutput (u : Unicode) (labels : List (List Char)) (allowBare : Bool) (content : List Char) :
    Except ParseFailure (List Char) :=
  match lastNonemptyLine u content with
  | none => .error ⟨"empty_output"⟩
  | some finalLine =>
    match markers (.outside markerStart) content with
    | [] => if allowBare && finalLine ∈ labels then .ok finalLine else .error ⟨"missing_marker"⟩
    | [marker] =>
      if finalLine ≠ markerOf marker then .error ⟨"marker_not_final_line"⟩
      else if marker ∉ labels then .error ⟨"invalid_label"⟩
      else .ok marker
    | _ => .error ⟨"multiple_markers"⟩

/-- `NumericScorer.parse_output` -/
def parseNumericOutput (u : Unicode) (config : NumericConfig) (content : List Char) : Except ParseFailure Decimal :=
  match lastNonemptyLine u content with
  | none => .error ⟨"empty_output"⟩
  | some finalLine =>
    match markers (.outside markerStart) content with
    | [] => .error ⟨"missing_marker"⟩
    | [token] =>
      if finalLine ≠ markerOf token then .error ⟨"marker_not_final_line"⟩ else parseNumericToken u token config
    | _ => .error ⟨"multiple_markers"⟩

/-- `validate_expected` -/
def validateExpected (s : Setup) (scorer : Scorer) (expected : Scalar) : Except ScorerError Parsed :=
  match scorer, expected with
  | .exact normalizeWhitespace caseSensitive, .text e =>
    if s.unicode.strip e = [] then .error (.value "exact expected must be a non-empty string")
    else .ok (.text (normalizeExactText s normalizeWhitespace caseSensitive e))
  | .exact _ _, _ => .error (.value "exact expected must be a non-empty string")
  | .choice labels _, .text e =>
    if e ∈ labels then .ok (.text e) else .error (.value "choice expected must be exactly one configured label")
  | .choice _ _, _ => .error (.value "choice expected must be exactly one configured label")
  | .numeric config, e => (validateNumericExpected s.unicode e config).map .number
  | .jsonEqual, .text e =>
    match parseJson s.unicode s.jsonLimit e with
    | .error e => .error e
    | .ok (.error failure) => .error (.value s!"invalid JSON expected: {failure.code}")
    | .ok (.ok v) => .ok (.json v)
  | .jsonEqual, _ => .error (.value "json_equal expected must be a JSON string")

/-- A parse that gives a failure or a value. -/
def parsedAs {α : Type} (value : α → Parsed) : Except ParseFailure α → Except ParseFailure Parsed
  | .ok a => .ok (value a)
  | .error failure => .error failure

/-- `parse_output`; a content that is no text is `none`. -/
def parseOutput (s : Setup) (scorer : Scorer) (content : Option (List Char)) :
    Except ScorerError (Except ParseFailure Parsed) :=
  match content with
  | none => .ok (.error ⟨"output_not_text"⟩)
  | some text =>
    match scorer with
    | .exact normalizeWhitespace caseSensitive =>
      .ok (.ok (.text (normalizeExactText s normalizeWhitespace caseSensitive text)))
    | .choice labels allowBare => .ok (parsedAs .text (parseChoiceOutput s.unicode labels allowBare text))
    | .numeric config => .ok (parsedAs .number (parseNumericOutput s.unicode config text))
    | .jsonEqual => (parseJson s.unicode s.jsonLimit text).map (parsedAs .json)

/-- `compare` -/
def compareParsed (s : Setup) (scorer : Scorer) (parsed expected : Parsed) : Except ScorerError Bool :=
  match scorer, parsed, expected with
  | .exact _ _, .text a, .text b => .ok (a = b)
  | .choice _ _, .text a, .text b => .ok (a = b)
  | .numeric config, .number a, .number b => compareNumeric s.unicode a b config
  | .jsonEqual, .json a, .json b => .ok (jsonEqual a b)
  | _, _, _ => .ok false

/-- `serialize_parsed` -/
def serializeParsed : Parsed → Except ScorerError (List ℕ)
  | .text s => .ok (points s)
  | .number d => (boundedNumericText d).map points
  | .json v => .ok (canonicalJson v)

/-! ### Scores -/

inductive ScoreOutcome where
  | correct
  | wrongAnswer
  | invalidFormat
  | callFailed
  | noExpectation
  | notAttempted
deriving DecidableEq

/-- What a result is scored as. -/
structure ScoreRecord where
  passed : Bool := false
  attempted : Bool
  responded : Bool := false
  judged : Bool
  scorer : String
  scorerVersion : String := "1"
  configSha256 : String
  outcome : ScoreOutcome
  errorClass : Json := .null
  parseFailure : Option ParseFailure := none
  parsed : Option (List ℕ) := none

/-- The text of a result. -/
def contentOf (result : Json) : Option (List Char) :=
  match if result.isObj then result.get "content" else result with
  | .str text => some text.toList
  | _ => none

/-- The error of a result that is a record. -/
def errorOf (result : Json) : Json := if result.isObj then result.get "error" else .null

/-- Whether the result was attempted, as the caller says or the result does. -/
def isAttempted (result : Json) (attempted : Option Bool) : Bool :=
  attempted.getD (!(result.isObj && result.get "outcome" = .str "not_attempted"))

/-- The expected value, validated when there is one. -/
def expectedOf (s : Setup) (scorer : Scorer) : Scalar → Except ScorerError (Option Parsed)
  | .none => .ok none
  | expected => (validateExpected s scorer expected).map some

/-- The record of a result that was answered and has an expected value. -/
def judge (s : Setup) (scorer : Scorer) (base : ScoreRecord) (content : Option (List Char)) (expected : Parsed) :
    Except ScorerError ScoreRecord :=
  match parseOutput s scorer content with
  | .error e => .error e
  | .ok (.error failure) => .ok { base with outcome := .invalidFormat, parseFailure := some failure }
  | .ok (.ok parsed) =>
    let outcome := do return (← compareParsed s scorer parsed expected, ← serializeParsed parsed)
    match outcome with
    | .error (.operation code) => .ok { base with outcome := .invalidFormat, parseFailure := some ⟨code⟩ }
    | .error (.decimal _) => .ok { base with outcome := .invalidFormat, parseFailure := some ⟨"numeric_operation_failed"⟩ }
    | .error e => .error e
    | .ok (passed, serialized) =>
      .ok { base with outcome := if passed then .correct else .wrongAnswer, passed, parsed := some serialized }

/-- `score`, of a resolved scorer. -/
def scoreResolved (s : Setup) (scorer : Scorer) (result : Json) (expected : Scalar) (attempted : Option Bool) :
    Except ScorerError ScoreRecord :=
  match expectedOf s scorer expected with
  | .error e => .error e
  | .ok normalized =>
    let tried := isAttempted result attempted
    let base : ScoreRecord :=
      { attempted := tried, judged := normalized.isSome && tried, scorer := scorer.id, configSha256 := s.sha scorer,
        outcome := .notAttempted }
    if !tried then .ok { base with judged := false }
    else if (errorOf result).truthy then
      .ok { base with outcome := .callFailed, errorClass := (errorOf result).get "class", judged := false }
    else match normalized with
      | none => .ok { base with responded := true, outcome := .noExpectation, judged := false }
      | some expected => judge s scorer { base with responded := true } (contentOf result) expected

/-- `score` -/
def score (s : Setup) (spec : ScorerSpec) (result : Json) (expected : Scalar) (attempted : Option Bool) :
    Except ScorerError ScoreRecord :=
  match resolveScorer s spec with
  | .error e => .error e
  | .ok scorer => scoreResolved s scorer result expected attempted

end Motte.DirectLlm
