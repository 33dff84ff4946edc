import Motte.DirectLlm.Scoring
import Motte.Foundation.Value
import Motte.Foundation.Words

/-! The rules that an output is held against.

A rule judges a text twice. The strict judgement takes the text as it is; the loose one folds
white space, takes a fence away or counts only words with a letter or a digit. -/
namespace Motte.IFEval
open Foundation DirectLlm

/-- What a rule can raise. -/
inductive RuleError where
  | value (message : String)
  | recursion
deriving DecidableEq

/-- What is asked of characters, of the parser and of digests: folding of case works character by
character, and no character becomes white space or stops being it. -/
structure Setup where
  unicode : Unicode
  fold : Char → List Char
  keeps : KeepsWords unicode.space unicode.space fold
  alnum : Char → Bool
  jsonLimit : ℕ
  sha : Value → String
  digest : List Char → String
  repr : String → String

/-- `str.casefold` -/
def Setup.casefold (s : Setup) (text : List Char) : List Char := text.flatMap s.fold

/-- `str.split` -/
def Setup.split (s : Setup) (text : List Char) : List (List Char) := wordsOf s.unicode.space text

/-! ### JSON objects -/

/-- `int` takes so many digits of a text, and no more. -/
def maxIntDigits : ℕ := 4300

/-- A numeral is a number, unless it is an integer of too many digits. -/
def readNumeral (read : List Char) (part : Numeral) : Except JsonFault JsonValue :=
  if (part = .zero ∨ part = .whole) ∧ maxIntDigits < (read.filter Char.isDigit).length then .error .decode
  else .ok (.number ((readFinite .ascii (readSign read).1 (readSign read).2).getD
    { negative := false, coefficient := 0, exponent := 0 }))

/-- One character of the text. A numeral ends with the character after it. -/
def stepText (limit : ℕ) (m : Machine) (c : Char) : Except JsonFault Machine :=
  match m.mode with
  | .number read part =>
    match stepNumeral part c with
    | .more part => .ok { stack := m.stack, mode := .number (read ++ [c]) part }
    | .infinity => .ok { stack := m.stack, mode := .word ['n', 'f', 'i', 'n', 'i', 't', 'y'] .constant }
    | .broken => .error .decode
    | .ended =>
      match readNumeral read part with
      | .error e => .error e
      | .ok v => stepPlain limit (endValue m.stack v) c
  | _ => stepPlain limit m c

/-- The value of a whole text, if it is not a number. -/
def endText (m : Machine) : Except JsonFault JsonValue :=
  match m.mode with
  | .done v => .ok v
  | _ => .error .decode

def loadsText (limit : ℕ) (text : List Char) : Except JsonFault JsonValue := do
  endText (← text.foldlM (stepText limit) .start)

/-- The keys of what `_parse_json_object` gives. -/
def parseJsonObject (limit : ℕ) (text : List Char) : Except RuleError (Option (List (List ℕ))) :=
  match loadsText limit text with
  | .error .recursion => .error .recursion
  | .error _ => .ok none
  | .ok (.object members) => .ok (some (members.map Prod.fst))
  | .ok _ => .ok none

/-- `_unwrap_json_fence` -/
def unwrapJsonFence (s : Setup) (value : List Char) : List Char :=
  let stripped := s.unicode.strip value
  match splitLines [] stripped with
  | first :: second :: third :: more =>
    let lines := first :: second :: third :: more
    let opening := s.casefold (s.unicode.strip first)
    if (opening = "```".toList ∨ opening = "```json".toList) ∧ s.unicode.strip (lines.getLastD []) = "```".toList then
      s.unicode.strip (List.intercalate ['\n'] lines.tail.dropLast)
    else stripped
  | _ => stripped

/-! ### Rules and their configuration -/

inductive TextOperation where
  | contains
  | startsWith
  | endsWith
deriving DecidableEq

inductive Rule where
  | text (operation : TextOperation)
  | jsonObject
  | maxWords
deriving DecidableEq

/-- `RULE_REGISTRY`, at version 1. -/
def ruleRegistry : List (String × Rule) :=
  [("contains", .text .contains), ("starts_with", .text .startsWith), ("ends_with", .text .endsWith),
   ("json_object", .jsonObject), ("max_words", .maxWords)]

/-- A normalized configuration. -/
inductive RuleConfig where
  | text (value : String) (caseSensitive : Bool)
  | jsonObject (requiredKeys : List String) (allowExtraKeys : Bool)
  | maxWords (maximum : ℤ)
deriving DecidableEq

abbrev RawConfig := List (String × Value)

/-- The configuration as it is written. -/
def RuleConfig.asValue : RuleConfig → Value
  | .text value caseSensitive => .obj [("value", .str value), ("case_sensitive", .bool caseSensitive)]
  | .jsonObject requiredKeys allowExtraKeys =>
    .obj [("required_keys", .arr (requiredKeys.map .str)), ("allow_extra_keys", .bool allowExtraKeys)]
  | .maxWords maximum => .obj [("max_words", .int maximum)]

/-- `_unknown_config` -/
def unknownConfig (config : RawConfig) (allowed : List String) : Except RuleError Unit :=
  let unknown := ((config.map Prod.fst).filter (· ∉ allowed)).insertionSort (· ≤ ·)
  if unknown = [] then .ok ()
  else .error (.value ("unknown rule config fields: " ++ ", ".intercalate unknown))

/-- A field that is a boolean, true unless it is given. -/
def booleanField (config : RawConfig) (field : String) : Except RuleError Bool :=
  match config.lookup field with
  | none => .ok true
  | some (.bool b) => .ok b
  | some _ => .error (.value s!"{field} must be a boolean")

/-- `_nonempty_text`, of a text. -/
def nonemptyText (s : Setup) (value : String) (label : String) : Except RuleError Unit :=
  if s.unicode.strip value.toList = [] then .error (.value s!"{label} must be non-empty text") else .ok ()

/-- `_text_config` -/
def textConfig (s : Setup) (config : RawConfig) : Except RuleError RuleConfig := do
  unknownConfig config ["value", "case_sensitive"]
  match config.lookup "value" with
  | some (.str value) =>
    nonemptyText s value "rule config value"
    return .text value (← booleanField config "case_sensitive")
  | _ => throw (.value "rule config value must be non-empty text")

/-- The keys of a list, if all of them are texts that are not blank. -/
def keyTexts (s : Setup) : List Value → Except RuleError (List String)
  | [] => .ok []
  | .str key :: keys =>
    if s.unicode.strip key.toList = [] then .error (.value "required_keys must contain non-empty strings")
    else (keyTexts s keys).map (key :: ·)
  | _ :: _ => .error (.value "required_keys must contain non-empty strings")

/-- `_JsonObjectRule.normalize_config` -/
def jsonObjectConfig (s : Setup) (config : RawConfig) : Except RuleError RuleConfig := do
  unknownConfig config ["required_keys", "allow_extra_keys"]
  match (config.lookup "required_keys").getD (.arr []) with
  | .arr items =>
    let keys ← keyTexts s items
    if ¬ keys.Nodup then throw (.value "required_keys must not contain duplicates")
    return .jsonObject (keys.insertionSort (· ≤ ·)) (← booleanField config "allow_extra_keys")
  | _ => throw (.value "required_keys must be a list")

/-- `_MaxWordsRule.normalize_config` -/
def maxWordsConfig (config : RawConfig) : Except RuleError RuleConfig := do
  unknownConfig config ["max_words"]
  match config.lookup "max_words" with
  | some (.int maximum) =>
    if maximum ≤ 0 then throw (.value "max_words must be a positive integer")
    return .maxWords maximum
  | _ => throw (.value "max_words must be a positive integer")

/-- `normalize_config` -/
def normalizeConfig (s : Setup) (rule : Rule) (config : RawConfig) : Except RuleError RuleConfig :=
  match rule with
  | .text _ => textConfig s config
  | .jsonObject => jsonObjectConfig s config
  | .maxWords => maxWordsConfig config

/-! ### Judging -/

/-- `_loose_text` -/
def looseText (s : Setup) (value : List Char) : List Char := foldedBy s.unicode.space [' '] value

/-- `_comparable` -/
def comparable (s : Setup) (caseSensitive : Bool) (value : List Char) : List Char :=
  if caseSensitive then value else s.casefold value

def TextOperation.holds (operation : TextOperation) (value output : List Char) : Bool :=
  match operation with
  | .contains => decide (value <:+: output)
  | .startsWith => decide (value <+: output)
  | .endsWith => decide (value <:+ output)

-- Membership of a key in a list of keys.
local instance lawfulKeys : LawfulBEq (List ℕ) := inferInstance

/-- `_JsonObjectRule._passes` -/
def passes (requiredKeys : List String) (allowExtraKeys : Bool) (parsed : Option (List (List ℕ))) : Bool :=
  match parsed with
  | none => false
  | some actual =>
    let required := requiredKeys.map (fun key => points key.toList)
    required.all (· ∈ actual) && (allowExtraKeys || actual.all (· ∈ required))

/-- The keys of an object without white space around it. -/
def strictObject (s : Setup) (output : List Char) : Except RuleError (Option (List (List ℕ))) :=
  if output ≠ s.unicode.strip output then .ok none else parseJsonObject s.jsonLimit output

/-- `evaluate`: the strict judgement and the loose one. -/
def evaluate (s : Setup) (rule : Rule) (config : RuleConfig) (output : List Char) : Except RuleError (Bool × Bool) :=
  match rule, config with
  | .text operation, .text value caseSensitive =>
    .ok (operation.holds (comparable s caseSensitive value.toList) (comparable s caseSensitive output),
      operation.holds (comparable s caseSensitive (looseText s value.toList)) (comparable s caseSensitive (looseText s output)))
  | .jsonObject, .jsonObject requiredKeys allowExtraKeys => do
    let strict ← strictObject s output
    let loose ← parseJsonObject s.jsonLimit (unwrapJsonFence s output)
    return (passes requiredKeys allowExtraKeys strict, passes requiredKeys allowExtraKeys loose)
  | .maxWords, .maxWords maximum =>
    let strictTokens := s.split output
    let looseTokens := strictTokens.filter (fun token => token.any s.alnum)
    .ok (decide ((strictTokens.length : ℤ) ≤ maximum), decide ((looseTokens.length : ℤ) ≤ maximum))
  | _, _ => .error (.value "rule config")

end Motte.IFEval
