import Motte.Gate.Evaluate

/-! The first gate, its comparison, and the projection of its policies into rules.

`evaluate_gate` takes a policy as a dictionary and a coverage summary; here for the
policies that do not name the pairwise metric. `legacy_policy_to_rules` writes such
a policy as rules. `compare_run_reports` is given by the reasons that its checks of
the frozen conditions found, and by the costs. -/
namespace Motte.Gate
open Foundation

/-! ### The comparison of two reports -/

/-- What a comparison reads of the cost of one side. -/
structure CostView where
  known : Bool := false
  /-- `currencies`, or the one under `currency`. -/
  currencies : List String := ["USD"]

structure ComparisonResult where
  eligible : Bool
  reasons : List String
  metricEligibility : Table String (Option Bool)
  level : ComparabilityLevel
  structuralReasons : List String
  metricReasons : List String

/-- The reasons why two costs cannot be compared. -/
def costReasons (baseline candidate : CostView) : List String :=
  let same := baseline.currencies.all (· ∈ candidate.currencies) && candidate.currencies.all (· ∈ baseline.currencies)
  (if baseline.known then [] else ["COST_UNKNOWN:baseline"]) ++
    (if candidate.known then [] else ["COST_UNKNOWN:candidate"]) ++
    (if baseline.known && candidate.known && !same then ["COST_CURRENCY_MISMATCH"] else [])

/-- `compare_run_reports`; `pairwise` when either side carries pairwise evidence. -/
def compareRunReports (structural : List String) (baseline candidate : CostView) (pairwise : Bool) : ComparisonResult :=
  let structuralOk := structural = []
  let costs := costReasons baseline candidate
  let metricReasons := (if structuralOk then costs else []) ++
    (if pairwise then ["pairwise_baseline_comparison_unsupported"] else [])
  let plain := ((∅ : Table String (Option Bool)).set "quality" (some structuralOk)).set "cost"
    (some (structuralOk && costs = []))
  { eligible := structuralOk
    reasons := structural ++ metricReasons
    metricEligibility :=
      if pairwise then
        (plain.set "pairwise_challenger_score@1" (some false)).set "pairwise_challenger_score" (some false)
      else plain
    level :=
      if !structuralOk then .notComparable
      else if metricReasons ≠ [] then .partiallyComparable
      else .comparable
    structuralReasons := structural
    metricReasons := metricReasons }

/-- A comparison is eligible just when it is not structurally blocked. -/
theorem eligible_iff {structural : List String} {baseline candidate : CostView} {pairwise : Bool} :
    (compareRunReports structural baseline candidate pairwise).eligible = true ↔
      (compareRunReports structural baseline candidate pairwise).level ≠ .notComparable := by
  have hlevel : ∀ (q : Prop) [Decidable q],
      (if q then ComparabilityLevel.partiallyComparable else .comparable) ≠ .notComparable := by
    intro q _
    split <;> simp
  by_cases hstructural : structural = []
  · simp only [compareRunReports, hstructural, decide_true, Bool.not_true, Bool.false_eq_true, if_false, true_iff]
    exact hlevel _
  · simp [compareRunReports, hstructural]

/-! ### The first gate -/

/-- A metric of the first registry. -/
structure LiteMetric where
  metricId : String
  direction : GateOperator
  unit : String
  requiresCostKnown : Bool := false

/-- `METRIC_REGISTRY` of `motte_eval.gates`. -/
def liteRegistry : List LiteMetric := [
  { metricId := "accuracy", direction := .gte, unit := "ratio" },
  { metricId := "valid_trial_pass_rate", direction := .gte, unit := "ratio" },
  { metricId := "valid_trial_coverage", direction := .gte, unit := "ratio" },
  { metricId := "cost.total_usd", direction := .lte, unit := "USD", requiresCostKnown := true }]

/-- A policy as a dictionary. -/
structure LegacyPolicy where
  metric : Option String := none
  op : Option String := none
  threshold : Value := .null
  /-- Absent is not the same as null. -/
  requiredCoverage : Option Value := none
  requireCostKnown : Bool := false
  requireComparable : Bool := false
  policyId : Option String := none
  version : Option String := none

namespace LegacyPolicy

/-- `value or default` -/
def orElse (value : Option String) (default : String) : String :=
  match value with
  | some s => if s = "" then default else s
  | none => default

def metricId (P : LegacyPolicy) : String := orElse P.metric "accuracy"

def operation (P : LegacyPolicy) : String := orElse P.op "gte"

end LegacyPolicy

/-- The coverage summary of a candidate, with the qualifications of the judges. -/
structure Candidate where
  metricValues : Table String (Option Double)
  /-- The accuracy of an input that has no `metric_values`. -/
  metricValue : Option Double := none
  coverage : Option Double := none
  costPassable : Bool := false
  judgeQualification : Value := .null
  baselineJudgeQualification : Value := .null
  /-- A coverage is a ratio. -/
  coverage_ratio : ∀ c, coverage = some c → c.isRatio = true

structure LiteRule where
  id : String
  passed : Bool
  reason : String

structure LiteResult where
  schema : String := "gate-lite@2"
  policy : LegacyPolicy
  metricId : String
  passed : Bool
  rules : List LiteRule
  judgeQualification : List (String × Value)

/-- `isinstance(value, (int, float))` -/
def isNumber : Value → Bool
  | .bool _ | .int _ | .float _ => true
  | _ => false

section Lite
variable (b : Builtins) (P : LegacyPolicy) (c : Candidate) (comparison : Option ComparisonResult)

/-- `_resolve_metric_value` -/
def resolveMetricValue : Except String Double :=
  let metricId := P.metricId
  match liteRegistry.find? (·.metricId = metricId) with
  | none =>
    .error s!"unsupported metric: {b.repr (.str metricId)} (known: accuracy, cost.total_usd, valid_trial_coverage, valid_trial_pass_rate)"
  | some spec =>
    match c.metricValues.get metricId with
    | none =>
      match if metricId = "accuracy" then c.metricValue else none with
      | some v => .ok v
      | none => .error s!"metric value missing: {metricId} (insufficient evidence)"
    | some none =>
      if spec.requiresCostKnown then .error s!"cost unknown: {metricId} cannot pass without observed cost"
      else .error s!"metric value missing: {metricId} (empty denominator or unscored)"
    | some (some v) => if v.isNan then .error s!"metric value is NaN: {metricId}" else .ok v

def liteMetricRule : Except GateErr LiteRule :=
  match resolveMetricValue b P c with
  | .error reason => .ok ⟨"metric_threshold", false, reason⟩
  | .ok value =>
    match GateOperator.ofName P.operation with
    | none =>
      .ok ⟨"metric_threshold", false,
        s!"policy invalid: op={b.repr (.str P.operation)} threshold={b.repr P.threshold}"⟩
    | some op =>
      if !isNumber P.threshold then
        .ok ⟨"metric_threshold", false,
          s!"policy invalid: op={b.repr (.str P.operation)} threshold={b.repr P.threshold}"⟩
      else
        match b.float P.threshold with
        | none => .error .value
        | some threshold =>
          let unit := ((liteRegistry.find? (·.metricId = P.metricId)).map LiteMetric.unit).getD "None"
          let met := op.holds value threshold
          let word := if met then "" else "not "
          .ok ⟨"metric_threshold", met,
            s!"{P.metricId}={b.text value} ({unit}) {word}{P.operation} {b.str P.threshold}"⟩

/-- `float(policy.get("required_coverage", 0.0))` -/
def requiredCoverage : Except GateErr Double :=
  match P.requiredCoverage with
  | none => .ok .zero
  | some v =>
    match b.float v with
    | some required => .ok required
    | none => .error .value

def liteCoverageRule (required : Double) : LiteRule :=
  let coverage := GateRule.nullable (.float ·.bits) c.coverage
  if c.coverage.any (fun v => required.le v) then
    ⟨"coverage", true, s!"coverage {b.str coverage} >= {b.text required}"⟩
  else ⟨"coverage", false, s!"coverage {b.str coverage} < required {b.text required} (insufficient evidence)"⟩

def liteCostRules : List LiteRule :=
  if P.requireCostKnown then
    [⟨"cost_known", c.costPassable,
      if c.costPassable then "cost known" else "cost unknown; hard cost gate cannot pass"⟩]
  else []

def liteComparableRules : List LiteRule :=
  if P.requireComparable then
    let comparable := comparison.any (·.eligible)
    let reasons := (comparison.map ComparisonResult.reasons).getD []
    let told := if reasons = [] then ["no comparison result"] else reasons
    [⟨"comparable", comparable,
      if comparable then "reports comparable" else "reports not comparable: " ++ "; ".intercalate told⟩]
  else []

/-- A qualification that is a dictionary and required. -/
def isRequired (qualification : Value) : Bool := ((qualification.get? "required").getD .null).truthy

/-- The required qualifications, by key. -/
def requiredQualifications : List (String × Value) :=
  [("judge_qualification", c.judgeQualification), ("baseline_judge_qualification", c.baselineJudgeQualification)].filter
    (fun item => isRequired item.2)

def liteQualificationRules : List LiteRule :=
  (requiredQualifications c).map (fun item =>
    let reason := (item.2.get? "reason").getD .null
    ⟨item.1, item.2.get? "gate_eligible" = some (.bool true),
      if reason.truthy then b.str reason else "Judge qualification unknown"⟩)

def litePairwiseRules : List LiteRule :=
  if P.metricId ∈ ["accuracy", "judged_accuracy", "valid_trial_pass_rate"] &&
      (requiredQualifications c).any (fun item => pairwiseMode item.2) then
    [⟨"pairwise_quality_unavailable", false, "pairwise preference has no supported Boolean quality metric"⟩]
  else []

/-- `evaluate_gate` -/
def evaluateGate : Except GateErr LiteResult := do
  let metricRule ← liteMetricRule b P c
  let required ← requiredCoverage b P
  let rules := [metricRule, liteCoverageRule b c required] ++ liteCostRules P c ++ liteComparableRules P comparison ++
    liteQualificationRules b c ++ litePairwiseRules P c
  return {
    policy := P
    metricId := P.metricId
    passed := rules.all LiteRule.passed
    rules := rules
    judgeQualification := requiredQualifications c }

/-! ### The projection -/

/-- `float` of what is there; nothing stays nothing. -/
def floatOrNone : Value → Except GateErr (Option Double)
  | .null => .ok none
  | v =>
    match b.float v with
    | some x => .ok (some x)
    | none => .error .value

def thresholdLegacyRule (op : GateOperator) (threshold : Option Double) : GateRule :=
  { ruleId := "metric_threshold", kind := .metricThreshold, metricId := some P.metricId, operator := some op
    threshold := threshold }

def coverageLegacyRule (required : Double) : GateRule :=
  { ruleId := "coverage", kind := .coverage, minCoverage := some required }

def costLegacyRule : GateRule :=
  { ruleId := "cost_known", kind := .cost, metricId := some "cost.total_usd", operator := some .lte }

def comparableLegacyRule (op : GateOperator) (threshold : Option Double) : GateRule :=
  { ruleId := "comparable", kind := .metricThreshold, metricId := some P.metricId, operator := some op
    threshold := threshold, requiredComparability := some .comparable }

def legacyRules (op : GateOperator) (threshold : Option Double) (required : Double) : List GateRule :=
  [thresholdLegacyRule P op threshold, coverageLegacyRule required] ++
    (if P.requireCostKnown then [costLegacyRule] else []) ++
    (if P.requireComparable then [comparableLegacyRule P op threshold] else [])

theorem legacyRules_ids (op : GateOperator) (threshold : Option Double) (required : Double) :
    ((legacyRules P op threshold required).map GateRule.ruleId).Nodup := by
  unfold legacyRules
  cases P.requireCostKnown <;> cases P.requireComparable <;>
    simp [thresholdLegacyRule, coverageLegacyRule, costLegacyRule, comparableLegacyRule]

theorem legacyRules_closed (op : GateOperator) (threshold : Option Double) (required : Double) :
    ∀ r ∈ legacyRules P op threshold required, r.missingPolicy = .failClosed := by
  unfold legacyRules
  cases P.requireCostKnown <;> cases P.requireComparable <;>
    simp [thresholdLegacyRule, coverageLegacyRule, costLegacyRule, comparableLegacyRule]

theorem orElse_ne_empty {value : Option String} {default : String} (h : default ≠ "") :
    LegacyPolicy.orElse value default ≠ "" := by
  unfold LegacyPolicy.orElse
  split
  · split <;> assumption
  · exact h

/-- The policy of the rules, which is refused when a rule is not valid. -/
def legacyPolicy (rules : List GateRule) (nonempty : rules ≠ []) (nodup : (rules.map GateRule.ruleId).Nodup)
    (closed : ∀ r ∈ rules, r.missingPolicy = .failClosed) : Except GateErr GatePolicyVersion :=
  if valid : ∀ r ∈ rules, r.Valid then
    .ok {
      policyId := LegacyPolicy.orElse P.policyId "legacy-lite"
      version := LegacyPolicy.orElse P.version "1"
      rules := rules
      createdBy := "legacy-projection"
      reason := "gate-lite@2 dict policy projected to rule form"
      policyId_nonempty := orElse_ne_empty (by decide)
      version_nonempty := orElse_ne_empty (by decide)
      createdBy_nonempty := by decide
      reason_nonempty := by decide
      rules_nonempty := nonempty
      rules_valid := valid
      ids_nodup := nodup
      skips_diagnostic := fun r hr hskip => absurd (hskip.symm.trans (closed r hr)) (by decide) }
  else .error .value

/-- `legacy_policy_to_rules` -/
def legacyPolicyToRules : Except GateErr GatePolicyVersion := do
  let threshold ← floatOrNone b P.threshold
  let required ← floatOrNone b (P.requiredCoverage.getD .null)
  match GateOperator.ofName P.operation with
  | none => .error .value
  | some op =>
    legacyPolicy P (legacyRules P op threshold (required.getD .zero)) (by simp [legacyRules])
      (legacyRules_ids P op threshold _) (legacyRules_closed P op threshold _)

end Lite

end Motte.Gate
