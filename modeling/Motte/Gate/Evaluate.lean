import Motte.Gate.Evidence

/-! `evaluate_gate_policy`: a policy against fixed evidence.

Every rule gives one result; the qualifications of the judges and the absence of a
Boolean quality metric give further ones. The decision is the highest in priority
of the decisions that blocking results carry, and never a pass when a rule was
skipped for diagnosis. -/
namespace Motte.Gate
open Foundation

inductive Status where
  | pass
  | fail
  | insufficient
  | notApplicable
  | skippedDiagnostic
deriving DecidableEq

def Status.name : Status → String
  | .pass => "pass"
  | .fail => "fail"
  | .insufficient => "insufficient"
  | .notApplicable => "not_applicable"
  | .skippedDiagnostic => "skipped_diagnostic"

structure RuleResult where
  ruleId : String
  kind : String
  status : Status
  severity : Severity := .block
  decision : Option GateDecision
  reason : String
  diagnosticSkipped : Bool := false
deriving DecidableEq

namespace RuleResult

def dump (r : RuleResult) : Value :=
  .obj [("rule_id", .str r.ruleId), ("kind", .str r.kind), ("status", .str r.status.name),
    ("severity", .str r.severity.name), ("decision", GateRule.nullable (.str ·.name) r.decision),
    ("reason", .str r.reason), ("diagnostic_skipped", .bool r.diagnosticSkipped)]

end RuleResult

/-- A skipped rule counts as insufficient evidence. -/
def finish (r : GateRule) (status : Status) (reason : String) (decision : Option GateDecision) : RuleResult where
  ruleId := r.ruleId
  kind := r.kind.name
  status := status
  severity := r.severity
  decision := if status = .skippedDiagnostic && decision = none then some .insufficientEvidence else decision
  reason := reason
  diagnosticSkipped := status = .skippedDiagnostic

/-- What cannot be judged is skipped by a rule that may skip, and held against the candidate otherwise. -/
def finishMissing (r : GateRule) (reason : String) (decision : GateDecision) : RuleResult :=
  if r.missingPolicy = .diagnosticSkip then finish r .skippedDiagnostic reason none
  else finish r .insufficient reason (some decision)

/-! ### The rules -/

/-- The operator goes the way the metric goes. -/
def GateOperator.agrees (op direction : GateOperator) : Bool :=
  op = direction || (op = .gt && direction = .gte) || (op = .lt && direction = .lte)

/-- `_rule_direction_reason` -/
def ruleDirectionReason (b : Builtins) (r : GateRule) (d : MetricDefinition) : Option String :=
  match r.operator with
  | none => none
  | some op =>
    if op.agrees d.direction then none
    else
      let metricId := b.str (GateRule.nullable .str r.metricId)
      some s!"rule operator {b.repr (.str op.name)} contradicts metric direction {b.repr (.str d.direction.name)} for {metricId}"

/-- The part of a comparison whose eligibility the rule depends on. -/
def GateRule.scope (r : GateRule) : String := if starts "cost." (r.metricId.getD "") then "cost" else "quality"

/-- `_comparability_gate` -/
def comparabilityGate (r : GateRule) (level : Option ComparabilityLevel) (eligibility : Table String (Option Bool)) :
    Option (String × GateDecision) :=
  match r.requiredComparability, level with
  | none, _ => none
  | some _, none => some ("no comparison result available", .notComparable)
  | some required, some level =>
    if required = .comparable && level ≠ .comparable then
      some (s!"comparison level {level.value} does not satisfy required_comparability=comparable", .notComparable)
    else if required = .partially && level = .notComparable then
      some ("comparison level not_comparable does not satisfy required_comparability=partial", .notComparable)
    else if level = .partiallyComparable && eligibility.get r.scope = some (some false) then
      some (s!"metric scope {r.scope} ineligible under partial comparability", .insufficientEvidence)
    else none

section Rules
variable (b : Builtins) (C : PairwiseContracts) (p : GatePolicyVersion) (x : Evaluation)

/-- The rule reads the pairwise metric, not one of the snapshot's values. -/
def readsPairwise (r : GateRule) : Bool := referencesPairwiseQuality p && r.kind = .metricThreshold

def metricReading (r : GateRule) : Except String Double :=
  if readsPairwise p r then pairwiseResolved C x else metricValue b x.candidate (r.metricId.getD "")

def metricDefinition (r : GateRule) : Option MetricDefinition :=
  if readsPairwise p r then some pairwiseDefinition else lookupMetric (r.metricId.getD "")

/-- The name of a metric in a reason. -/
def metricLabel (r : GateRule) (d : MetricDefinition) : String := r.metricId.getD "" ++ "@" ++ d.version

/-- How far the candidate falls behind the baseline, in the metric's direction. -/
def regression (d : MetricDefinition) (value base : Double) : Double :=
  if d.direction = .gte then base.sub value else value.sub base

def baselineNote (base : Double) : String :=
  if base.number.equals (.finite 0) then " (baseline=0: relative regression treated as absolute delta)" else ""

/-- The end of a `baseline_delta` rule. -/
def baselineRule (r : GateRule) (d : MetricDefinition) (value : Double) : RuleResult :=
  match x.baseline, x.baselineRef with
  | some baseline, some _ =>
    match metricValue b baseline (r.metricId.getD "") with
    | .error reason =>
      finish r .insufficient s!"baseline metric unavailable: {reason}" (some .insufficientEvidence)
    | .ok base =>
      let lost := regression d value base
      let note := baselineNote base
      let limit := r.maxRegression.getD .zero
      if lost.le limit then
        finish r .pass s!"{metricLabel r d} regression {b.text (b.round lost)} <= {b.text limit}{note}" none
      else
        finish r .fail s!"{metricLabel r d} regression {b.text (b.round lost)} > {b.text limit}{note}" (some .qualityFail)
  | _, _ => finish r .insufficient "baseline_delta requires a baseline report" (some .insufficientEvidence)

/-- The end of a threshold, cost or latency rule; without a threshold the value has to be known and no more. -/
def thresholdRule (r : GateRule) (d : MetricDefinition) (value : Double) : RuleResult :=
  match r.threshold, r.operator with
  | some threshold, some op =>
    let verdict := s!"{metricLabel r d}={b.text value} ({d.unit}) {op.name} {b.text threshold}"
    if op.holds value threshold then finish r .pass verdict none
    else finish r .fail (verdict ++ " NOT satisfied") (some .qualityFail)
  | _, _ => finish r .pass s!"{metricLabel r d}={b.text value} observed and known" none

/-- The kinds that read one metric. -/
def metricRule (r : GateRule) : Except GateErr RuleResult :=
  match metricDefinition p r with
  | none =>
    let reason := match metricReading b C p x r with
      | .error reason => reason
      | .ok _ => ""
    .ok (finish r .insufficient reason (some .insufficientEvidence))
  | some d =>
    match ruleDirectionReason b r d with
    | some reason => .error (.input "RULE_DIRECTION_INVALID" reason)
    | none =>
      match metricReading b C p x r with
      | .error reason => .ok (finishMissing r reason .insufficientEvidence)
      | .ok value =>
        if r.kind = .baselineDelta then .ok (baselineRule b x r d value) else .ok (thresholdRule b r d value)

/-- The coverage that the rule reads, null when there is none. -/
def coverageOf : Value :=
  if referencesPairwiseQuality p then
    match pairwiseResolved C x with
    | .ok _ => ((pairwiseSection x.candidate).get? "coverage").getD .null
    | .error _ => .null
  else GateRule.nullable (.float ·.bits) x.candidate.coverage

/-- The number of samples that the rule reads, if there is one. -/
def samplesOf : Option Int :=
  if referencesPairwiseQuality p then
    match ((pairwiseSection x.candidate).get? "planned_pairs").getD (.int 0) with
    | .int n => if 0 ≤ n then some n else none
    | _ => none
  else sampleCount x.candidate

/-- What the coverage falls short of. -/
def coverageProblems (r : GateRule) (coverage : Value) : Except GateErr (List String) :=
  match r.minCoverage with
  | none => .ok []
  | some required =>
    if coverage = .null then .ok ["coverage missing (empty denominator)"]
    else
      match b.float coverage with
      | none => .error .value
      | some c => .ok (if c.lt required then [s!"coverage {b.str coverage} < required {b.text required}"] else [])

/-- What the number of samples falls short of; a number that is not there falls short of nothing. -/
def sampleProblems (r : GateRule) (samples : Option Int) : List String :=
  match r.minSamples, samples with
  | some required, some n => if n < required then [s!"samples {n} < required {required}"] else []
  | _, _ => []

def coverageRule (r : GateRule) : Except GateErr RuleResult := do
  let coverage := coverageOf C p x
  let samples := samplesOf p x
  let problems := (← coverageProblems b r coverage) ++ sampleProblems r samples
  if problems = [] then
    let count := b.str (GateRule.nullable .int samples)
    return finish r .pass s!"coverage {b.str coverage} and samples {count} satisfy minimums" none
  else return finishMissing r ("; ".intercalate problems) .insufficientEvidence

/-- The critical cases that failed. -/
def failures (r : GateRule) : List String :=
  r.criticalCaseIds.filter (fun c => caseOutcome x.candidate c = some .fail)

/-- The critical cases that cannot be judged, with what is said of them. -/
def undecided (r : GateRule) : List String :=
  r.criticalCaseIds.filterMap (fun c =>
    match caseOutcome x.candidate c with
    | some .unknown => some c
    | none => some s!"{c} (missing/no-expectation)"
    | _ => none)

def criticalCaseRule (r : GateRule) : RuleResult :=
  let failed := failures x r
  let unknown := undecided x r
  if failed = [] && unknown = [] then
    finish r .pass ("all critical cases passed: " ++ ",".intercalate r.criticalCaseIds) none
  else
    let parts := (if failed = [] then [] else ["failed: " ++ ",".intercalate failed]) ++
      (if unknown = [] then [] else ["unknown/missing: " ++ ",".intercalate unknown])
    let reason := "critical cases " ++ "; ".intercalate parts
    if failed = [] then finishMissing r reason .insufficientEvidence
    else finish r .fail reason (some .qualityFail)

def modelIdentityRule (r : GateRule) : RuleResult :=
  let reported := x.evidence.modelIdentity
  let expected := GateRule.nullable .str r.expected
  if reported = .null then
    finish r .insufficient
      "actual model identity not reported (requested model never substitutes for the reported one)"
      (some .insufficientEvidence)
  else if b.str reported ≠ b.str expected then
    finish r .fail s!"actual model identity {b.repr reported} != expected {b.repr expected}" (some .qualityFail)
  else finish r .pass s!"actual model identity {b.repr reported} matches" none

/-- `marker if isinstance(marker, int) else len(marker)` -/
def violationCount : Value → Option Value
  | .bool v => some (.bool v)
  | .int n => some (.int n)
  | .str s => some (.int s.length)
  | .arr items => some (.int items.length)
  | .obj members => some (.int members.length)
  | _ => none

def unobservable (key : String) : String :=
  s!"{key} not observable from the fixed report (absence of evidence is not evidence of absence)"

def sideEffectRule (r : GateRule) : Except GateErr RuleResult :=
  let marker := x.evidence.sideEffectViolations
  if marker = .null then
    .ok (finish r .insufficient (unobservable "side_effect_violations") (some .insufficientEvidence))
  else
    match violationCount marker with
    | none => .error .value
    | some count =>
      if count.truthy then
        .ok (finish r .fail s!"{b.str count} side-effect violation(s) observed" (some .safetyBlock))
      else .ok (finish r .pass "no side-effect violations observed" none)

/-- A marker that is not a list is one marker. -/
def markerItems : Value → List Value
  | .arr items => items
  | marker => [marker]

def safetyMarkerRule (r : GateRule) : RuleResult :=
  let marker := x.evidence.safetyMarkers
  if marker = .null then
    finish r .insufficient (unobservable "safety_markers") (some .insufficientEvidence)
  else if markerItems marker = [] then finish r .pass "no safety markers present" none
  else
    finish r .fail ("safety markers present: " ++ ",".intercalate ((markerItems marker).map b.str)) (some .safetyBlock)

/-- The evaluation by kind. -/
def evaluateKind (r : GateRule) : Except GateErr RuleResult :=
  match r.kind with
  | .metricThreshold | .baselineDelta | .cost | .latency => metricRule b C p x r
  | .coverage => coverageRule b C p x r
  | .criticalCase => .ok (criticalCaseRule x r)
  | .modelIdentity => .ok (modelIdentityRule b x r)
  | .noSideEffect => sideEffectRule b x r
  | .safetyMarker => .ok (safetyMarkerRule b x r)

/-- One turn of the loop over the rules. -/
def evaluateRule (r : GateRule) : Except GateErr RuleResult :=
  if r.requiresSuccessfulRun && x.candidateRunStatus ≠ "completed" then
    let status := b.repr (.str x.candidateRunStatus)
    .ok (finish r .fail
      s!"run status {status} is not completed; execution error does not overwrite scores but blocks release"
      (some .executionError))
  else if r.experimentalEvidence && !p.diagnostic then
    .ok (finish r .insufficient
      "experimental evidence source (uncalibrated judge / unknown runtime identity) is fail-closed in formal gates"
      (some .insufficientEvidence))
  else
    match comparabilityGate r x.comparisonLevel x.metricEligibility with
    | some (reason, decision) => .ok (finishMissing r reason decision)
    | none => evaluateKind b C p x r

/-! ### Beside the rules -/

/-- The result for the qualification of one judge, if it is required. -/
def qualificationResult (role : String) (qualification : Value) : Option RuleResult :=
  if ((qualification.get? "required").getD .null).truthy then
    let eligible := qualification.get? "gate_eligible" = some (.bool true)
    let reason := (qualification.get? "reason").getD .null
    some {
      ruleId := if role = "candidate" then "judge_qualification" else "baseline_judge_qualification"
      kind := "judge_qualification"
      status := if eligible then .pass else .insufficient
      decision := if eligible then none else some .insufficientEvidence
      reason := b.str (if reason.truthy then reason else .str "Judge qualification unknown") }
  else none

/-- The result for the qualification of the judge of a pairwise policy. -/
def pairwiseQualificationResult : RuleResult :=
  let checked := pairwiseQualification C ((x.evidence.judgeQualification.get "candidate").getD .null) x.candidate
  { ruleId := "judge_qualification"
    kind := "judge_qualification"
    status := if checked.1 then .pass else .insufficient
    decision := if checked.1 then none else some .insufficientEvidence
    reason := checked.2 }

def qualificationResults : List RuleResult :=
  if referencesPairwiseQuality p then
    pairwiseQualificationResult C x :: (x.evidence.judgeQualification.rows.filter (·.1 ≠ "candidate")).filterMap
      (fun item => qualificationResult b item.1 item.2)
  else x.evidence.judgeQualification.rows.filterMap (fun item => qualificationResult b item.1 item.2)

/-- A judge that was qualified on pairs only. -/
def pairwiseMode (qualification : Value) : Bool := qualification.get? "mode" = some (.str "pairwise")

/-- The rule is about a Boolean quality, which pairwise preferences do not give. -/
def GateRule.booleanQuality (r : GateRule) : Bool :=
  r.kind = .criticalCase ||
    r.metricId.any (· ∈ ["accuracy", "judged_accuracy", "valid_trial_pass_rate", "cost.per_success_usd"])

def pairwiseUnavailable : List RuleResult :=
  if x.evidence.judgeQualification.rows.any (fun item => pairwiseMode item.2) && p.rules.any GateRule.booleanQuality then
    [{ ruleId := "pairwise_quality_unavailable"
       kind := "quality_availability"
       status := .insufficient
       decision := some .insufficientEvidence
       reason := "pairwise preference has no supported Boolean quality metric" }]
  else []

def ruleResults : Except GateErr (List RuleResult) := do
  let results ← p.rules.mapM (evaluateRule b C p x)
  return results ++ (qualificationResults b C p x ++ pairwiseUnavailable p x)

end Rules

/-! ### The decision -/

/-- The decisions of the blocking results. -/
def contributions (results : List RuleResult) : List GateDecision :=
  (results.filter (·.severity = .block)).filterMap (·.decision)

/-- The first decision in order of priority that some blocking result carries. -/
def aggregate (results : List RuleResult) : GateDecision :=
  (decisionPriority.find? (· ∈ contributions results)).getD .pass

/-- A pass with a skipped rule is no pass. -/
def decisionOf (results : List RuleResult) : GateDecision :=
  if aggregate results = .pass && results.any (·.diagnosticSkipped) then .insufficientEvidence else aggregate results

/-! ### The result -/

/-- Digests and how they stand in a document. -/
structure Digests (δ : Type) where
  hash : Value → δ
  value : δ → Value

structure GateResult (δ : Type) where
  gateResultId : δ
  policyId : String
  policyVersion : String
  policyContentHash : δ
  baseline : Option (String × String)
  candidates : List RunReportRef
  decision : GateDecision
  ruleResults : List RuleResult
  evaluationInputHash : δ
  resultSemanticsHash : δ
  conclusionHash : δ
  evaluatedAt : Option String
  suggestedActions : List String
  judgeQualification : Document

section Result
variable {δ : Type} (b : Builtins) (C : PairwiseContracts) (H : Digests δ) (p : GatePolicyVersion) (x : Evaluation)

def contentHash : δ := H.hash p.dump

/-- `_qualification_source_digest` -/
def qualificationSourceDigest (qualification : Value) : δ :=
  H.hash ((qualification.get? "binding").getD .null)

def candidateQualification : Value := (x.evidence.judgeQualification.get "candidate").getD .null

/-- What `evaluation_input_hash` is the digest of. -/
def evaluationInput : Value :=
  .obj ([("policy", H.value (contentHash H p)), ("candidates", .arr [x.candidateRef.dump]),
    ("baseline", GateRule.nullable RunReportRef.dump x.baselineRef),
    ("statistical_policy", .str x.statisticalPolicyRef),
    ("judge_qualification", x.evidence.judgeQualification.value)] ++
    if referencesPairwiseQuality p then
      [("pairwise_quality_content_sha256", ((pairwiseSection x.candidate).get? "content_sha256").getD .null),
        ("pairwise_quality_input_sha256", H.value (H.hash (pairwiseSection x.candidate))),
        ("metric_definition_sha256", H.value (H.hash pairwiseDefinition.dump)),
        ("qualification_source_sha256", H.value (qualificationSourceDigest H (candidateQualification x)))]
    else [])

/-- Whether the source of a judge's calibration is part of the semantics. -/
def bindsJudge : Bool :=
  referencesPairwiseQuality p || !(pairwiseUnavailable p x).isEmpty ||
    x.evidence.judgeQualification.rows.any (fun item => ((item.2.get? "binding").getD .null).truthy)

/-- What `result_semantics_hash` is the digest of. -/
def resultSemantics : Value :=
  .obj ([("engine", .str (if referencesPairwiseQuality p then "gate-engine@3" else "gate-engine@2")),
    ("rule_registry", .str "gate-rules@1"),
    ("metric_registry", .str (if referencesPairwiseQuality p then "metric-registry@2" else "metric-registry@1")),
    ("statistical_policy", .str x.statisticalPolicyRef)] ++
    (if bindsJudge p x then [("judge_source", .str "calibration-binding@1")] else []) ++
    if referencesPairwiseQuality p then
      [("pairwise_algorithm", .str "pairwise-quality@1"),
        ("metric_definition_sha256", H.value (H.hash pairwiseDefinition.dump))]
    else [])

def suggestedActions (decision : GateDecision) : List String :=
  (if decision = .insufficientEvidence || decision = .notComparable then
    ["collect the missing evidence or re-score both sides from the same frozen evidence into a common scoring pass " ++
      "(explicit, possibly paid; never triggered automatically by the gate)"]
  else []) ++
  (if decision = .executionError then
    ["inspect the failing run; an explicit retry creates a superseding child run and preserves the original result"]
  else [])

/-- `compute_gate_result_id` -/
def computeGateResultId (input semantics : δ) : δ :=
  H.hash (.obj [("evaluation_input_hash", H.value input), ("result_semantics_hash", H.value semantics)])

/-- `compute_conclusion_hash` -/
def computeConclusionHash (decision : GateDecision) (results : List RuleResult) : δ :=
  H.hash (.obj [("decision", .str decision.name), ("rule_results", .arr (results.map RuleResult.dump))])

/-- The checks before a pairwise policy is evaluated. -/
def checkPairwise : Except GateErr Unit :=
  if referencesPairwiseQuality p then do
    validatePairwiseQualityPolicy p
    if x.baselineRef.isSome || x.baseline.isSome || x.comparisonLevel.isSome then
      unsupportedPolicy "pairwise baseline comparison is unsupported"
  else .ok ()

/-- `evaluate_gate_policy` -/
def evaluateGatePolicy : Except GateErr (GateResult δ) := do
  checkPairwise p x
  let results ← ruleResults b C p x
  let decision := decisionOf results
  let input := H.hash (evaluationInput H p x)
  let semantics := H.hash (resultSemantics H p x)
  return {
    gateResultId := computeGateResultId H input semantics
    policyId := p.policyId
    policyVersion := p.version
    policyContentHash := contentHash H p
    baseline := x.baselineRef.map (fun ref => (ref.runId, ref.scoringPassId))
    candidates := [x.candidateRef]
    decision := decision
    ruleResults := results
    evaluationInputHash := input
    resultSemanticsHash := semantics
    conclusionHash := computeConclusionHash H decision results
    evaluatedAt := x.evaluatedAt
    suggestedActions := suggestedActions decision
    judgeQualification :=
      if x.evidence.judgeQualification.rows.any (fun item => ((item.2.get? "required").getD .null).truthy) then
        x.evidence.judgeQualification
      else ∅ }

/-- The decision, if the evaluation comes to one. -/
def decisionAt : Option GateDecision :=
  match checkPairwise p x, ruleResults b C p x with
  | .ok _, .ok results => some (decisionOf results)
  | _, _ => none

end Result

/-- Digests that tell all documents apart: the canonical form itself. -/
def canonDigests : Digests Value where
  hash := Value.canon
  value := id

def sampleRef : RunReportRef := ⟨"run", "pass", "report-v1", "sha256:e"⟩

end Motte.Gate
