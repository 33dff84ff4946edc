import Motte.Foundation.Double
import Motte.Foundation.Json

/-! Gate rules, versioned gate policies and the metrics they name.

A policy is a list of rules under an id and a version. A rule names what it looks
at by its kind; which of its fields are required depends on the kind. A metric is
found by its id, with or without its version after an `@`. -/
namespace Motte.Gate
open Foundation

/-- `GateDecision`. -/
inductive GateDecision where
  | pass
  | qualityFail
  | insufficientEvidence
  | notComparable
  | executionError
  | safetyBlock
deriving DecidableEq

def GateDecision.name : GateDecision → String
  | .pass => "pass"
  | .qualityFail => "quality_fail"
  | .insufficientEvidence => "insufficient_evidence"
  | .notComparable => "not_comparable"
  | .executionError => "execution_error"
  | .safetyBlock => "safety_block"

/-- `DECISION_PRIORITY`, the highest first. -/
def decisionPriority : List GateDecision :=
  [.safetyBlock, .executionError, .insufficientEvidence, .notComparable, .qualityFail, .pass]

inductive RuleKind where
  | metricThreshold
  | baselineDelta
  | criticalCase
  | coverage
  | modelIdentity
  | cost
  | latency
  | noSideEffect
  | safetyMarker
deriving DecidableEq

namespace RuleKind

def name : RuleKind → String
  | metricThreshold => "metric_threshold"
  | baselineDelta => "baseline_delta"
  | criticalCase => "critical_case"
  | coverage => "coverage"
  | modelIdentity => "model_identity"
  | cost => "cost"
  | latency => "latency"
  | noSideEffect => "no_side_effect"
  | safetyMarker => "safety_marker"

/-- The kinds that read one metric. -/
def readsMetric : RuleKind → Bool
  | metricThreshold | baselineDelta | cost | latency => true
  | _ => false

theorem name_injective {a b : RuleKind} (h : a.name = b.name) : a = b := by
  cases a <;> cases b <;> first | rfl | (exact absurd h (by decide))

end RuleKind

inductive GateOperator where
  | gte
  | lte
  | gt
  | lt
deriving DecidableEq

namespace GateOperator

def name : GateOperator → String
  | gte => "gte"
  | lte => "lte"
  | gt => "gt"
  | lt => "lt"

/-- `_GATE_OPS`. -/
def holds : GateOperator → Double → Double → Bool
  | gte, value, threshold => threshold.le value
  | lte, value, threshold => value.le threshold
  | gt, value, threshold => threshold.lt value
  | lt, value, threshold => value.lt threshold

def ofName (name : String) : Option GateOperator := [gte, lte, gt, lt].find? (fun op => op.name = name)

theorem name_injective {a b : GateOperator} (h : a.name = b.name) : a = b := by
  cases a <;> cases b <;> first | rfl | (exact absurd h (by decide))

end GateOperator

inductive RequiredComparability where
  | comparable
  | partially
deriving DecidableEq

def RequiredComparability.name : RequiredComparability → String
  | .comparable => "comparable"
  | .partially => "partial"

inductive MissingPolicy where
  | failClosed
  | diagnosticSkip
deriving DecidableEq

def MissingPolicy.name : MissingPolicy → String
  | .failClosed => "fail_closed"
  | .diagnosticSkip => "diagnostic_skip"

inductive Severity where
  | block
  | warn
deriving DecidableEq

def Severity.name : Severity → String
  | .block => "block"
  | .warn => "warn"

inductive Lifecycle where
  | draft
  | published
  | deprecated
deriving DecidableEq

def Lifecycle.name : Lifecycle → String
  | .draft => "draft"
  | .published => "published"
  | .deprecated => "deprecated"

/-! ### Metrics -/

structure MetricDefinition where
  metricId : String
  version : String := "1"
  unit : String
  /-- `gte` where more is better, `lte` where less is. -/
  direction : GateOperator
  aggregation : String
  denominator : String
  eligibility : String
  requiredEvidence : List String := []
  missingPolicy : String := "fail_closed"
  description : String

namespace MetricDefinition

/-- `metric_id@version`. -/
def qualified (d : MetricDefinition) : String := d.metricId ++ "@" ++ d.version

def dump (d : MetricDefinition) : Value :=
  .obj [("metric_id", .str d.metricId), ("version", .str d.version), ("unit", .str d.unit),
    ("direction", .str d.direction.name), ("aggregation", .str d.aggregation), ("denominator", .str d.denominator),
    ("eligibility", .str d.eligibility), ("required_evidence", .arr (d.requiredEvidence.map .str)),
    ("missing_policy", .str d.missingPolicy), ("description", .str d.description)]

end MetricDefinition

/-- `METRIC_REGISTRY` of `motte_contracts.metrics`, version 1. -/
def metricRegistry : List MetricDefinition := [
  { metricId := "accuracy", unit := "ratio", direction := .gte, aggregation := "ratio"
    denominator := "selected_cases", eligibility := "all selected cases judged"
    description := "selected-case accuracy (platform recomputation)" },
  { metricId := "judged_accuracy", unit := "ratio", direction := .gte, aggregation := "ratio"
    denominator := "judged_cases", eligibility := "cases with expectation and deterministic judgement"
    missingPolicy := "excluded_by_design", description := "judged-case accuracy (Direct LLM denominator)" },
  { metricId := "valid_trial_pass_rate", unit := "ratio", direction := .gte, aggregation := "ratio"
    denominator := "valid_trials", eligibility := "valid trials (Harbor rewards)"
    description := "Terminal-Bench valid-Trial pass rate" },
  { metricId := "valid_trial_coverage", unit := "ratio", direction := .gte, aggregation := "ratio"
    denominator := "planned_trials", eligibility := "valid trials over frozen trial plan"
    description := "valid Trials over the frozen trial plan (Harbor)" },
  { metricId := "cost.total_usd", unit := "USD", direction := .lte, aggregation := "sum"
    denominator := "run", eligibility := "all usages priced in one currency", requiredEvidence := ["price_table"]
    description := "total observed run cost (USD only; no conversion)" },
  { metricId := "cost.per_success_usd", unit := "USD", direction := .lte, aggregation := "sum"
    denominator := "run", eligibility := "at least one success", requiredEvidence := ["price_table"]
    description := "cost per successful case/trial; not applicable at zero successes" },
  { metricId := "pass_at_k", unit := "ratio", direction := .gte, aggregation := "pass_at_k"
    denominator := "tasks", eligibility := "planned, independent, complete trials (n>=k>=1)"
    description := "pass@k over pre-planned independent trials" },
  { metricId := "latency.p50_ms", unit := "ms", direction := .lte, aggregation := "median"
    denominator := "run", eligibility := "observed case latencies"
    description := "median case latency in milliseconds" }]

/-- `_pairwise_definition`: the one metric that only the second version of the registry has. -/
def pairwiseDefinition : MetricDefinition :=
  { metricId := "pairwise_challenger_score", unit := "ratio", direction := .gte, aggregation := "mean"
    denominator := "planned_pairs"
    eligibility := "complete unique successful planned calls and explicit challenger/reference roles"
    requiredEvidence := ["pairwise_roles", "frozen_plan", "invocation_ledger"]
    description := "equal planned-pair mean of challenger wins (1), reference wins (0) and explicit ties (0.5)" }

/-- The text before the first `@`, and the text after it if there is one. -/
def splitVersion (metricId : String) : String × Option String :=
  let chars := metricId.toList
  let base := chars.takeWhile (· ≠ '@')
  (String.ofList base, (chars.drop base.length).tail?.map String.ofList)

/-- `lookup_metric` in the first version of the registry. -/
def lookupMetric (metricId : String) : Option MetricDefinition :=
  let (base, version) := splitVersion metricId
  (metricRegistry.find? (fun d => d.metricId = base)).filter (fun d => version.all (· = d.version))

/-! ### Rules -/

/-- `GateRule`. -/
structure GateRule where
  ruleId : String
  kind : RuleKind
  metricId : Option String := none
  metricVersion : Option String := none
  operator : Option GateOperator := none
  threshold : Option Double := none
  maxRegression : Option Double := none
  criticalCaseIds : List String := []
  minSamples : Option Nat := none
  minCoverage : Option Double := none
  requiredComparability : Option RequiredComparability := none
  missingPolicy : MissingPolicy := .failClosed
  severity : Severity := .block
  evidenceRequirements : List String := []
  requiresSuccessfulRun : Bool := false
  experimentalEvidence : Bool := false
  expected : Option String := none
  /-- The fields that were given explicitly; not part of the rule's content. -/
  modelFieldsSet : List String := []
deriving DecidableEq

namespace GateRule

/-- The field checks of `GateRule`. -/
structure Valid (r : GateRule) : Prop where
  ruleId : r.ruleId ≠ ""
  threshold : ∀ t, r.threshold = some t → t.isFinite = true
  maxRegression : ∀ t, r.maxRegression = some t → t.isFinite = true
  minCoverage : ∀ t, r.minCoverage = some t → t.isRatio = true
  metric : r.kind.readsMetric = true → r.metricId ≠ none ∧ r.metricId ≠ some ""
  metricThreshold : r.kind = .metricThreshold → r.operator ≠ none ∧ r.threshold ≠ none
  baselineDelta : r.kind = .baselineDelta → r.maxRegression ≠ none
  criticalCase : r.kind = .criticalCase → r.criticalCaseIds ≠ []
  modelIdentity : r.kind = .modelIdentity → r.expected ≠ none

/-- The field checks, as they are made. -/
def check (r : GateRule) : Bool :=
  r.ruleId ≠ "" && r.threshold.all Double.isFinite && r.maxRegression.all Double.isFinite &&
    r.minCoverage.all Double.isRatio && (!r.kind.readsMetric || r.metricId.any (· ≠ "")) &&
    (r.kind ≠ .metricThreshold || (r.operator.isSome && r.threshold.isSome)) &&
    (r.kind ≠ .baselineDelta || r.maxRegression.isSome) && (r.kind ≠ .criticalCase || r.criticalCaseIds ≠ []) &&
    (r.kind ≠ .modelIdentity || r.expected.isSome)

theorem valid_iff (r : GateRule) : r.Valid ↔ r.check = true := by
  have hall : ∀ (o : Option Double) (f : Double → Bool), o.all f = true ↔ ∀ t, o = some t → f t = true := by
    intro o f
    cases o <;> simp
  have hmetric : (!r.kind.readsMetric || r.metricId.any (· ≠ "")) = true ↔
      (r.kind.readsMetric = true → r.metricId ≠ none ∧ r.metricId ≠ some "") := by
    cases r.kind.readsMetric <;> cases r.metricId <;> simp
  simp only [check, Bool.and_eq_true, hall, hmetric, Bool.or_eq_true, decide_eq_true_eq, Option.isSome_iff_ne_none,
    ne_eq, ← imp_iff_not_or, and_assoc]
  constructor
  · intro h
    exact ⟨h.ruleId, h.threshold, h.maxRegression, h.minCoverage, h.metric, h.metricThreshold, h.baselineDelta,
      h.criticalCase, h.modelIdentity⟩
  · rintro ⟨ruleId, threshold, maxRegression, minCoverage, metric, metricThreshold, baselineDelta, criticalCase, identity⟩
    exact ⟨ruleId, threshold, maxRegression, minCoverage, metric, metricThreshold, baselineDelta, criticalCase, identity⟩

instance (r : GateRule) : Decidable r.Valid := decidable_of_iff _ (valid_iff r).symm

def nullable {α : Type} (f : α → Value) : Option α → Value
  | none => .null
  | some a => f a

/-- `model_dump` -/
def dump (r : GateRule) : Value :=
  .obj [("rule_id", .str r.ruleId), ("kind", .str r.kind.name), ("metric_id", nullable .str r.metricId),
    ("metric_version", nullable .str r.metricVersion), ("operator", nullable (.str ·.name) r.operator),
    ("threshold", nullable (.float ·.bits) r.threshold), ("max_regression", nullable (.float ·.bits) r.maxRegression),
    ("critical_case_ids", .arr (r.criticalCaseIds.map .str)), ("min_samples", nullable (fun n => .int n) r.minSamples),
    ("min_coverage", nullable (.float ·.bits) r.minCoverage),
    ("required_comparability", nullable (.str ·.name) r.requiredComparability),
    ("missing_policy", .str r.missingPolicy.name), ("severity", .str r.severity.name),
    ("evidence_requirements", .arr (r.evidenceRequirements.map .str)),
    ("requires_successful_run", .bool r.requiresSuccessfulRun),
    ("experimental_evidence", .bool r.experimentalEvidence), ("expected", nullable .str r.expected)]

/-- The content of the rule. -/
def content (r : GateRule) : GateRule := { r with modelFieldsSet := [] }

end GateRule

/-! ### Policies -/

/-- `GatePolicyVersion`. -/
structure GatePolicyVersion where
  policyId : String
  version : String
  lifecycle : Lifecycle := .published
  rules : List GateRule
  diagnostic : Bool := false
  createdBy : String
  reason : String
  createdAt : Option String := none
  policyId_nonempty : policyId ≠ ""
  version_nonempty : version ≠ ""
  createdBy_nonempty : createdBy ≠ ""
  reason_nonempty : reason ≠ ""
  rules_nonempty : rules ≠ []
  rules_valid : ∀ r ∈ rules, r.Valid
  ids_nodup : (rules.map GateRule.ruleId).Nodup
  /-- Only a diagnostic policy may skip what is missing. -/
  skips_diagnostic : ∀ r ∈ rules, r.missingPolicy = .diagnosticSkip → diagnostic = true

namespace GatePolicyVersion

/-- `model_dump` -/
def dump (p : GatePolicyVersion) : Value :=
  .obj [("policy_id", .str p.policyId), ("version", .str p.version), ("lifecycle", .str p.lifecycle.name),
    ("rules", .arr (p.rules.map GateRule.dump)), ("diagnostic", .bool p.diagnostic),
    ("created_by", .str p.createdBy), ("reason", .str p.reason), ("created_at", GateRule.nullable .str p.createdAt)]

end GatePolicyVersion

theorem sampleId_nonempty : "policy" ≠ "" := by simp

theorem sampleVersion_nonempty : "1" ≠ "" := by simp

theorem sampleAuthor_nonempty : "operator" ≠ "" := by simp

/-- A formal policy of one rule. -/
def formalPolicy (r : GateRule) (valid : r.Valid) (closed : r.missingPolicy = .failClosed) : GatePolicyVersion where
  policyId := "policy"
  version := "1"
  rules := [r]
  createdBy := "operator"
  reason := "release"
  policyId_nonempty := sampleId_nonempty
  version_nonempty := sampleVersion_nonempty
  createdBy_nonempty := sampleAuthor_nonempty
  reason_nonempty := by simp
  rules_nonempty := by simp
  rules_valid := by simpa using valid
  ids_nodup := by simp
  skips_diagnostic := by simp [closed]

/-! ### Pairwise policies -/

inductive GateErr where
  /-- `GateInputError` -/
  | input (code message : String)
  /-- A built-in conversion fails. -/
  | value
deriving DecidableEq

def pairwiseQualityMetric : String := "pairwise_challenger_score"

def pairwiseQualityQualified : String := "pairwise_challenger_score@1"

/-- The metric is of the pairwise family, whatever version it names. -/
def namesPairwise (metricId : Option String) : Bool := metricId.any (starts pairwiseQualityMetric)

/-- `references_pairwise_quality` -/
def referencesPairwiseQuality (p : GatePolicyVersion) : Bool := p.rules.any (fun r => namesPairwise r.metricId)

def invalidPolicy {α : Type} (message : String) : Except GateErr α := .error (.input "PAIRWISE_POLICY_INVALID" message)

def unsupportedPolicy {α : Type} (message : String) : Except GateErr α :=
  .error (.input "PAIRWISE_POLICY_UNSUPPORTED" message)

/-- `ratio`; a number that a rule carries is a float. -/
def requireRatio (value : Option Double) (label : String) : Except GateErr Unit :=
  if value.any Double.isRatio then .ok ()
  else invalidPolicy s!"{label} requires an explicit finite non-Boolean number in [0,1]"

/-- `identity`: the rule names the first version of the pairwise metric. -/
def selectsPairwise (r : GateRule) : Bool :=
  (r.metricId = some pairwiseQualityQualified && (r.metricVersion = none || r.metricVersion = some "1")) ||
  (r.metricId = some pairwiseQualityMetric && r.metricVersion = some "1")

def unsupportedMetrics : List String := ["pass_at_k", "pass@k", "paired_difference", "paired_inference"]

/-- The check of one rule that reads the pairwise metric; true when it is a threshold. -/
def validatePairwiseRule (r : GateRule) : Except GateErr Bool := do
  if !selectsPairwise r then
    invalidPolicy "pairwise quality/coverage requires the explicit pairwise metric version 1"
  if !r.modelFieldsSet.contains "metric_id" ||
      (r.metricId = some pairwiseQualityMetric && !r.modelFieldsSet.contains "metric_version") then
    invalidPolicy "pairwise quality/coverage requires explicitly supplied metric identity"
  if r.kind ≠ .metricThreshold && r.kind ≠ .coverage then
    invalidPolicy "pairwise metric supports only threshold and coverage rules"
  if r.severity ≠ .block || r.missingPolicy ≠ .failClosed then
    invalidPolicy "pairwise quality/coverage requires blocking, fail-closed rules"
  if r.kind = .metricThreshold then
    if r.minSamples.isSome || r.minCoverage.isSome then
      invalidPolicy "pairwise sample/coverage limits require an explicit coverage rule"
    if !r.modelFieldsSet.contains "operator" || r.operator ≠ some .gte then
      invalidPolicy "pairwise threshold operator must be explicitly gte"
    if !r.modelFieldsSet.contains "threshold" then
      invalidPolicy "pairwise threshold must be explicitly supplied"
    requireRatio r.threshold "pairwise threshold"
    return true
  else
    if !r.modelFieldsSet.contains "min_coverage" then
      invalidPolicy "pairwise coverage must be explicitly supplied"
    requireRatio r.minCoverage "pairwise coverage"
    if !r.minCoverage.any (fun c => c.number.equals (.finite 1)) then
      invalidPolicy "pairwise coverage must be exactly 1.0"
    if r.minSamples = some 0 then invalidPolicy "pairwise min_samples must be a positive strict integer"
    return false

/-- The check of one rule of a pairwise policy; true when it is a pairwise threshold. -/
def validateRule (r : GateRule) : Except GateErr Bool := do
  if unsupportedMetrics.any (fun name => r.metricId.any (fun m => m = name || starts (name ++ "@") m)) then
    unsupportedPolicy "pairwise paired inference and pass@k are unsupported"
  if r.kind = .baselineDelta || r.kind = .criticalCase || r.requiredComparability.isSome ||
      r.maxRegression.isSome || !r.criticalCaseIds.isEmpty then
    unsupportedPolicy "pairwise comparison and critical-case rules are unsupported"
  if r.kind = .metricThreshold || r.kind = .coverage || selectsPairwise r || namesPairwise r.metricId then
    validatePairwiseRule r
  else return false

/-- `validate_pairwise_quality_policy` of a typed policy. -/
def validatePairwiseQualityPolicy (p : GatePolicyVersion) : Except GateErr Unit := do
  if p.diagnostic then invalidPolicy "pairwise quality policy cannot be diagnostic"
  let thresholds ← p.rules.mapM validateRule
  if !thresholds.contains true then invalidPolicy "pairwise policy requires a blocking quality threshold rule"

end Motte.Gate
