import Motte.Foundation.Table
import Motte.IFEval.Loose

/-! The report over cases.

Each case has rules, and an output or none. Every rule of a case with an output is judged; the
evidence is checked against the rules that were selected and counted twice, by prompts and by
rules, each time strictly and loosely. -/
namespace Motte.IFEval
open Foundation DirectLlm

structure RuleSpec where
  id : String
  version : String
  config : RawConfig
  configSha256 : String

structure IFEvalCase where
  caseId : String
  prompt : String
  rules : List RuleSpec

/-! ### Rules and cases that are accepted -/

/-- `RuleSpec.__post_init__` -/
def RuleSpec.check (s : Setup) (spec : RuleSpec) : Except RuleError Unit := do
  nonemptyText s spec.id "rule id"
  nonemptyText s spec.version "rule version"
  if spec.configSha256 ≠ s.sha (.obj spec.config) then throw (.value "rule config_sha256 mismatch")

structure ResolvedRule where
  implementation : Rule
  config : RuleConfig
  configSha256 : String

/-- `resolve_rule` -/
def resolveRule (s : Setup) (spec : RuleSpec) : Except RuleError ResolvedRule := do
  spec.check s
  match if spec.version = "1" then ruleRegistry.lookup spec.id else none with
  | none => throw (.value s!"unsupported IFEval preview rule: {spec.id}@{spec.version}")
  | some rule =>
    let config ← normalizeConfig s rule spec.config
    if spec.configSha256 ≠ s.sha config.asValue then throw (.value "rule config_sha256 mismatch after normalization")
    return { implementation := rule, config, configSha256 := s.sha config.asValue }

/-- `_coerce_case` -/
def IFEvalCase.check (s : Setup) (case : IFEvalCase) : Except RuleError Unit := do
  nonemptyText s case.caseId "case_id"
  nonemptyText s case.prompt "prompt"
  case.rules.forM (RuleSpec.check s)
  if case.rules = [] then throw (.value "IFEval case requires at least one rule")
  case.rules.forM (fun rule => (resolveRule s rule).map (fun _ => ()))
  if ¬ (case.rules.map (fun rule => (rule.id, rule.version))).Nodup then throw (.value "duplicate rule in IFEval case")

/-! ### Evidence -/

structure OutputSummary where
  sha256 : String
  utf8Bytes : ℕ
  characters : ℕ
  lines : ℕ
  words : ℕ
  empty : Bool

/-- Every line ends with a line feed. -/
def lineFeeds : List Char → List Char
  | '\r' :: '\n' :: rest => '\n' :: lineFeeds rest
  | '\r' :: rest => '\n' :: lineFeeds rest
  | c :: rest => c :: lineFeeds rest
  | [] => []

/-- `_normalized_output_summary` -/
def normalizedOutputSummary (s : Setup) (output : List Char) : OutputSummary :=
  let lines := ((lineFeeds output).splitOn '\n').map (fun line => (line.reverse.dropWhile s.unicode.space).reverse)
  let normalized := s.unicode.strip (List.intercalate ['\n'] lines)
  { sha256 := s.digest normalized, utf8Bytes := (String.ofList normalized).utf8ByteSize, characters := normalized.length
    lines := if normalized = [] then 0 else normalized.count '\n' + 1, words := (s.split normalized).length
    empty := normalized = [] }

structure Judgement where
  strictPassed : Bool
  loosePassed : Bool
  normalizedOutput : OutputSummary

/-- The evidence of a rule: its judgement, or none when it was not attempted. -/
structure Evidence where
  caseId : String
  ruleId : String
  ruleVersion : String
  configSha256 : String
  judgement : Option Judgement

abbrev RuleKey := String × String × String

def Evidence.key (row : Evidence) : RuleKey := (row.caseId, row.ruleId, row.ruleVersion)

/-- `evaluate_rule` -/
def evaluateRule (s : Setup) (caseId : String) (spec : RuleSpec) (output : List Char) : Except RuleError Evidence := do
  nonemptyText s caseId "case_id"
  let resolved ← resolveRule s spec
  let (strictPassed, loosePassed) ← evaluate s resolved.implementation resolved.config output
  return { caseId, ruleId := spec.id, ruleVersion := spec.version, configSha256 := resolved.configSha256
           judgement := some { strictPassed, loosePassed, normalizedOutput := normalizedOutputSummary s output } }

/-- `_not_attempted` -/
def notAttempted (caseId : String) (rule : RuleSpec) : Evidence :=
  { caseId, ruleId := rule.id, ruleVersion := rule.version, configSha256 := rule.configSha256, judgement := none }

/-- `sha256:` and 64 digits. -/
def isSha256 (text : String) : Bool :=
  text.toList.take 7 = "sha256:".toList && (text.toList.drop 7).length = 64 &&
    (text.toList.drop 7).all (· ∈ "0123456789abcdef".toList)

/-- `_validate_evidence`, as far as its types leave it open. -/
def Evidence.check (s : Setup) (row : Evidence) : Except RuleError Unit := do
  nonemptyText s row.caseId "evidence case_id"
  nonemptyText s row.ruleId "evidence rule_id"
  nonemptyText s row.ruleVersion "evidence rule_version"
  if !isSha256 row.configSha256 then throw (.value "evidence config_sha256 must be canonical")
  match row.judgement with
  | some judgement =>
    if !isSha256 judgement.normalizedOutput.sha256 then throw (.value "normalized output sha256 must be canonical")
  | none => return ()

/-! ### Aggregation -/

/-- `required` -/
def requiredRules (cases : List IFEvalCase) : Table RuleKey RuleSpec :=
  (cases.flatMap (fun case => case.rules.map (fun rule => ((case.caseId, rule.id, rule.version), rule)))).foldl
    (fun table row => table.set row.1 row.2) ∅

def showKey (s : Setup) (key : RuleKey) : String := s!"({s.repr key.1}, {s.repr key.2.1}, {s.repr key.2.2})"

/-- A row of evidence is taken once, for a rule that was selected. -/
def supply (s : Setup) (required : Table RuleKey RuleSpec) (supplied : Table RuleKey Evidence) (row : Evidence) :
    Except RuleError (Table RuleKey Evidence) := do
  row.check s
  match required.get row.key with
  | none => throw (.value s!"rule evidence is not selected: {showKey s row.key}")
  | some rule =>
    if (supplied.get row.key).isSome then throw (.value s!"duplicate rule evidence: {showKey s row.key}")
    if row.configSha256 ≠ rule.configSha256 then
      throw (.value "rule evidence config_sha256 does not match selected rule")
    return supplied.set row.key row

inductive CaseOutcome where
  | judged
  | incomplete
  | notAttempted
deriving DecidableEq

structure CaseReport where
  caseId : String
  outcome : CaseOutcome
  promptStrict : Option Bool
  promptLoose : Option Bool
  rules : List Evidence

/-- The report of a case, from the rows of its rules. -/
def caseReport (caseId : String) (rules : List Evidence) : CaseReport :=
  let judged := rules.filterMap Evidence.judgement
  if judged = [] then { caseId, outcome := .notAttempted, promptStrict := none, promptLoose := none, rules }
  else if judged.length ≠ rules.length then { caseId, outcome := .incomplete, promptStrict := none, promptLoose := none, rules }
  else { caseId, outcome := .judged, promptStrict := some (judged.all Judgement.strictPassed)
         promptLoose := some (judged.all Judgement.loosePassed), rules }

/-- `_metric`; the rates are exact. -/
structure Metric where
  selected : ℕ
  judged : ℕ
  passed : ℕ
  rate : Option ℚ
  coverage : Option ℚ

def metric (selected judged passed : ℕ) : Metric :=
  { selected, judged, passed, rate := if judged = 0 then none else some (passed / judged)
    coverage := if selected = 0 then none else some (judged / selected) }

structure Report where
  schemaVersion : ℕ
  suite : String
  official : Bool
  sourceStatus : String
  fullCaseCount : ℕ
  selectedCaseIds : List String
  cases : List CaseReport
  promptLevelStrict : Metric
  promptLevelLoose : Metric
  instructionLevelStrict : Metric
  instructionLevelLoose : Metric

/-- The report, from the reports of the cases. -/
def reportOf (selectedCaseIds : List String) (cases : List CaseReport) : Report :=
  let rows := cases.flatMap CaseReport.rules
  let prompts := cases.filter (fun case => case.outcome = .judged)
  let instructions := rows.filterMap Evidence.judgement
  { schemaVersion := 1, suite := "ifeval-preview", official := false, sourceStatus := "pending", fullCaseCount := 541
    selectedCaseIds, cases
    promptLevelStrict := metric cases.length prompts.length (prompts.countP (fun case => case.promptStrict = some true))
    promptLevelLoose := metric cases.length prompts.length (prompts.countP (fun case => case.promptLoose = some true))
    instructionLevelStrict := metric rows.length instructions.length (instructions.countP Judgement.strictPassed)
    instructionLevelLoose := metric rows.length instructions.length (instructions.countP Judgement.loosePassed) }

/-- The rows of a case: what was supplied for its rules. -/
def caseRows (supplied : Table RuleKey Evidence) (case : IFEvalCase) : List Evidence :=
  case.rules.map (fun rule => (supplied.get (case.caseId, rule.id, rule.version)).getD (notAttempted case.caseId rule))

/-- `aggregate_ifeval` -/
def aggregateIFEval (s : Setup) (cases : List IFEvalCase) (evidence : List Evidence) : Except RuleError Report := do
  cases.forM (IFEvalCase.check s)
  if ¬ (cases.map IFEvalCase.caseId).Nodup then throw (.value "duplicate IFEval case_id")
  let supplied ← evidence.foldlM (supply s (requiredRules cases)) ∅
  return reportOf (cases.map IFEvalCase.caseId) (cases.map (fun case => caseReport case.caseId (caseRows supplied case)))

/-- The evidence of a case: that of each of its rules, when it has an output, which must be a text. -/
def caseEvidence (s : Setup) (outputs : Table String (Option (List Char))) (case : IFEvalCase) : Except RuleError (List Evidence) :=
  match outputs.get case.caseId with
  | none => .ok []
  | some none => .error (.value "IFEval output must be text")
  | some (some output) => case.rules.mapM (fun rule => evaluateRule s case.caseId rule output)

/-- No output is of a case that is not selected. -/
def selectedOnly : List String → Except RuleError Unit
  | [] => .ok ()
  | first :: _ => .error (.value s!"output case_id is not selected: {first}")

/-- `evaluate_cases`; an output that is no text is `none`. -/
def evaluateCases (s : Setup) (cases : List IFEvalCase) (outputs : Table String (Option (List Char))) : Except RuleError Report := do
  cases.forM (IFEvalCase.check s)
  if ¬ (cases.map IFEvalCase.caseId).Nodup then throw (.value "duplicate IFEval case_id")
  let unknown := ((outputs.rows.map Prod.fst).filter (· ∉ cases.map IFEvalCase.caseId)).insertionSort (· ≤ ·)
  selectedOnly unknown
  let evidence ← cases.mapM (caseEvidence s outputs)
  aggregateIFEval s cases evidence.flatten

/-! ### Counting -/

/-- What passed strictly passed loosely. -/
def Evidence.Loose (row : Evidence) : Prop := ∀ judgement ∈ row.judgement, judgement.strictPassed = true → judgement.loosePassed = true

section
variable {s : Setup} {cases : List IFEvalCase} {outputs : Table String (Option (List Char))} {report : Report} {rows : List Evidence}

theorem evaluateRule_loose {caseId : String} {spec : RuleSpec} {output : List Char} {row : Evidence}
    (h : evaluateRule s caseId spec output = .ok row) : row.Loose := by
  simp only [evaluateRule, except_bind_ok_iff, except_pure_ok_iff] at h
  obtain ⟨-, -, resolved, -, ⟨strict, loose⟩, hevaluate, rfl⟩ := h
  intro judgement hjudgement
  cases hjudgement
  exact evaluate_loose hevaluate

theorem caseEvidence_loose {case : IFEvalCase} (h : caseEvidence s outputs case = .ok rows) : ∀ row ∈ rows, row.Loose := by
  unfold caseEvidence at h
  split at h
  · cases h
    exact fun row hrow => by cases hrow
  · cases h
  · intro row hrow
    obtain ⟨rule, -, hrule⟩ := exists_of_forall₂ (mapM_ok h).flip hrow
    exact evaluateRule_loose hrule

/-- What is supplied is evidence that was given. -/
theorem supply_loose {required : Table RuleKey RuleSpec} {supplied supplied' : Table RuleKey Evidence} {row : Evidence}
    (hrow : row.Loose) (hsupplied : ∀ key found, supplied.get key = some found → found.Loose)
    (h : supply s required supplied row = .ok supplied') : ∀ key found, supplied'.get key = some found → found.Loose := by
  unfold supply at h
  simp only [except_bind_ok_iff] at h
  obtain ⟨-, -, h⟩ := h
  cases hrequired : required.get row.key with
  | none =>
    rw [hrequired] at h
    cases h
  | some rule =>
    rw [hrequired] at h
    simp only at h
    split at h
    · cases h
    · split at h
      · cases h
      · cases h
        intro key found hfound
        rw [Table.get_set] at hfound
        split at hfound
        · cases hfound
          exact hrow
        · exact hsupplied key found hfound

theorem supplied_loose {required : Table RuleKey RuleSpec} {supplied supplied' : Table RuleKey Evidence} {evidence : List Evidence}
    (hevidence : ∀ row ∈ evidence, row.Loose) (hsupplied : ∀ key found, supplied.get key = some found → found.Loose)
    (h : evidence.foldlM (supply s required) supplied = .ok supplied') : ∀ key found, supplied'.get key = some found → found.Loose := by
  induction evidence generalizing supplied with
  | nil =>
    cases h
    exact hsupplied
  | cons row evidence ih =>
    rw [List.foldlM_cons, except_bind_ok_iff] at h
    obtain ⟨next, hnext, hrest⟩ := h
    exact ih (fun r hr => hevidence r (.tail _ hr)) (supply_loose (hevidence row (.head _)) hsupplied hnext) hrest

theorem caseRows_loose {supplied : Table RuleKey Evidence} (h : ∀ key found, supplied.get key = some found → found.Loose)
    (case : IFEvalCase) : ∀ row ∈ caseRows supplied case, row.Loose := by
  intro row hrow
  obtain ⟨rule, -, rfl⟩ := List.mem_map.1 hrow
  cases hfound : supplied.get (case.caseId, rule.id, rule.version) with
  | none => exact fun judgement hjudgement => by cases hjudgement
  | some found => exact h _ found hfound

/-- A prompt that passes strictly passes loosely. -/
theorem caseReport_loose {caseId : String} (h : ∀ row ∈ rows, row.Loose)
    (hstrict : (caseReport caseId rows).promptStrict = some true) : (caseReport caseId rows).promptLoose = some true := by
  simp only [caseReport] at hstrict ⊢
  split at hstrict
  · cases hstrict
  · split at hstrict
    · cases hstrict
    · rename_i hsome hall
      rw [if_neg hsome, if_neg hall]
      simp only [Option.some.injEq, List.all_eq_true] at hstrict ⊢
      intro judgement hmem
      obtain ⟨row, hrow, hjudgement⟩ := List.mem_filterMap.1 hmem
      exact h row hrow judgement hjudgement (hstrict judgement hmem)

theorem caseReport_rules (caseId : String) (rows : List Evidence) : (caseReport caseId rows).rules = rows := by
  simp only [caseReport]
  split
  · rfl
  · split <;> rfl

/-- The report counts at least as many loose passes as strict ones. -/
theorem reportOf_loose {selected : List String} {reports : List CaseReport} (hrows : ∀ case ∈ reports, ∀ row ∈ case.rules, row.Loose)
    (hprompts : ∀ case ∈ reports, case.promptStrict = some true → case.promptLoose = some true) :
    (reportOf selected reports).promptLevelStrict.passed ≤ (reportOf selected reports).promptLevelLoose.passed ∧
      (reportOf selected reports).instructionLevelStrict.passed ≤ (reportOf selected reports).instructionLevelLoose.passed := by
  constructor
  · refine List.countP_mono_left fun case hcase hstrict => ?_
    exact decide_eq_true (hprompts case (List.mem_of_mem_filter hcase) (of_decide_eq_true hstrict))
  · refine List.countP_mono_left fun judgement hmem hstrict => ?_
    obtain ⟨row, hrow, hjudgement⟩ := List.mem_filterMap.1 hmem
    obtain ⟨case, hcase, hrow⟩ := List.mem_flatMap.1 hrow
    exact hrows case hcase row hrow judgement hjudgement hstrict

theorem evaluateCases_loose (h : evaluateCases s cases outputs = .ok report) :
    report.promptLevelStrict.passed ≤ report.promptLevelLoose.passed ∧
      report.instructionLevelStrict.passed ≤ report.instructionLevelLoose.passed := by
  unfold evaluateCases at h
  simp only [except_bind_ok_iff] at h
  obtain ⟨-, -, h⟩ := h
  split at h
  · cases h
  · simp only [except_bind_ok_iff] at h
    obtain ⟨-, -, evidence, hevidence, h⟩ := h
    unfold aggregateIFEval at h
    simp only [except_bind_ok_iff] at h
    obtain ⟨-, -, h⟩ := h
    split at h
    · cases h
    · simp only [except_bind_ok_iff, except_pure_ok_iff] at h
      obtain ⟨supplied, hsupplied, rfl⟩ := h
      have hloose : ∀ row ∈ evidence.flatten, row.Loose := by
        intro row hrow
        obtain ⟨rows, hrows, hrow⟩ := List.mem_flatten.1 hrow
        obtain ⟨case, -, hcase⟩ := exists_of_forall₂ (mapM_ok hevidence).flip hrows
        exact caseEvidence_loose hcase row hrow
      have hfound := supplied_loose hloose (fun key found hnone => by cases hnone) hsupplied
      refine reportOf_loose (fun report hreport => ?_) (fun report hreport => ?_)
      · obtain ⟨case, -, rfl⟩ := List.mem_map.1 hreport
        rw [caseReport_rules]
        exact caseRows_loose hfound case
      · obtain ⟨case, -, rfl⟩ := List.mem_map.1 hreport
        exact caseReport_loose (caseRows_loose hfound case)

end

end Motte.IFEval
