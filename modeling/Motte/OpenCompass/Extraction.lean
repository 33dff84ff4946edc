import Motte.Foundation.Document
import Motte.Foundation.Pattern

/-! Answers in the text of a model.

An answer is one of four letters. It is taken from a stated conclusion when there is one,
the last that the first pattern with any finds; else what was extracted before is kept. -/
namespace Motte.OpenCompass
open Foundation Pattern

/-- What is asked of the standard library. `str` is asked of values that are no text. -/
structure Python where
  str : Value → String
  upper : String → String

/-- `str(value)` -/
def Python.text (py : Python) : Value → String
  | .str s => s
  | v => py.str v

/-- `str(value or "")` -/
def Python.textOrEmpty (py : Python) (v : Value) : String := if v.truthy then py.text v else ""

/-! ### Patterns -/

def letter : Pattern := group (oneOf "ABCD")

def spaces : Pattern := many isSpace

/-- What may not follow a letter. -/
def wordEnd : Pattern := never (one (fun c => c.isAlpha || c.isDigit))

/-- `_ANSWER_EXPLICIT_RE` -/
def answerExplicit : Pattern := seqs [word "答案", maybe (oneOf ":："), spaces, maybe (char '('), letter, maybe (char ')')]

/-- `_ANSWER_LINE_RE` -/
def answerLine : Pattern :=
  seqs [alts [start, char '\n', char '。', char ',', char ',', char ';', char ';'], spaces, maybe (char '('), letter, maybe (char ')'),
    one (fun c => c ∈ ['.', '。', '、'] || isSpace c)]

/-- `_ANSWER_ANY_RE` -/
def answerAny : Pattern := seqs [maybe (char '('), letter, maybe (char ')')]

/-- `_CONCLUSION_PATTERNS` -/
def conclusionPatterns : List Pattern :=
  [seqs [word "答案", maybe (alt (seq (char '应') (maybe (char '该'))) (char '就')), maybe (oneOf "是为选"), spaces, maybe (oneOf ":："),
      spaces, many (· = '*'), spaces, maybe (seq (word "选项") spaces), maybe (char '('), letter, maybe (char ')'), wordEnd],
   seqs [char '选', maybe (char '项'), spaces, maybe (char '('), letter, maybe (char ')'), spaces, maybe (oneOf "是为"), word "正确的"],
   seqs [word "正确", maybe (char '的'), word "一项", few (· ≠ '\n') 6, letter, wordEnd]]

/-- `_CONCLUSION_NEGATIVE_RE` -/
def conclusionNegative : Pattern := seq (word "答案") (oneOf "不没无未")

/-! ### Extraction -/

/-- `_extract_conclusion`, of a text -/
def extractConclusion (text : String) : Option String :=
  if !nonBlank text then none
  else conclusionPatterns.findSome? (fun r =>
    ((r.findIter text.toList).filter (fun found => !conclusionNegative.matchesAt found.1)).getLast?.map
      (fun found => String.ofList (found.2.captured.getD [])))

/-- `_extract_option`, of a text -/
def extractOption (text : String) : Option String :=
  if !nonBlank text then none
  else match (answerExplicit.findAll text.toList).head? with
    | some found => some (String.ofList found)
    | none => match (answerLine.findAll text.toList).head? with
      | some found => some (String.ofList found)
      | none => (answerAny.findAll text.toList).getLast?.map String.ofList

inductive Extraction where
  | conclusion
  | official
  | fallbackRegex
deriving DecidableEq

/-- What a text was resolved to. -/
structure Resolved where
  prediction : Value
  extraction : Extraction
  official : Value

/-- `str.strip` -/
def strip (s : String) : String := String.ofList ((s.toList.dropWhile isSpace).reverse.dropWhile isSpace).reverse

/-- `_resolve_prediction` -/
def resolvePrediction (py : Python) (rawOutput officialPred : Value) : Resolved :=
  match extractConclusion (py.textOrEmpty rawOutput) with
  | some conclusion =>
    let official := match officialPred with
      | .str s => .str (strip s)
      | v => v
    { prediction := .str conclusion, extraction := .conclusion, official := if Value.str conclusion ≠ official then official else .null }
  | none =>
    { prediction := if officialPred.truthy then officialPred else .null
      extraction := if officialPred.truthy then .official else .fallbackRegex, official := .null }

end Motte.OpenCompass
