import Motte.Gate.Policy

/-! What a gate evaluation reads.

A snapshot is the frozen view of one report. What has no entry and what is entered
as nothing are kept apart, because the source treats them differently in places. -/
namespace Motte.Gate
open Foundation

/-- What the language's own conversions give. Nothing is assumed of them but that the
representations of two texts differ. -/
structure Builtins where
  repr : Value → String
  str : Value → String
  /-- `round(x, 6)` -/
  round : Double → Double
  /-- `float` of a text. -/
  parse : String → Option Double
  repr_str : ∀ s t, repr (.str s) = repr (.str t) → s = t

namespace Builtins

/-- `float` of a value. -/
def float (b : Builtins) : Value → Option Double
  | .bool v => some (if v then .one else .zero)
  | .int n => Double.ofInt n
  | .float bits => some ⟨bits⟩
  | .str s => b.parse s
  | _ => none

/-- A number as it stands in a text. -/
def text (b : Builtins) (x : Double) : String := b.str (.float x.bits)

end Builtins

/-- The conversions of texts, integers and truth values. -/
def plainBuiltins : Builtins where
  repr
    | .str s => "'" ++ s ++ "'"
    | .int n => toString n
    | .bool v => if v then "True" else "False"
    | .null => "None"
    | _ => ""
  str
    | .str s => s
    | .int n => toString n
    | .bool v => if v then "True" else "False"
    | .null => "None"
    | _ => ""
  round := id
  parse _ := none
  repr_str s t h := by simpa [String.append_assoc] using h

/-- `ComparabilityLevel`. -/
inductive ComparabilityLevel where
  | comparable
  | partiallyComparable
  | notComparable
deriving DecidableEq

def ComparabilityLevel.value : ComparabilityLevel → String
  | .comparable => "comparable"
  | .partiallyComparable => "partially_comparable"
  | .notComparable => "not_comparable"

/-- `RunReportRef`. -/
structure RunReportRef where
  runId : String
  scoringPassId : String
  reportSchema : String
  evidenceHash : String
deriving DecidableEq

namespace RunReportRef

def dump (r : RunReportRef) : Value :=
  .obj [("run_id", .str r.runId), ("scoring_pass_id", .str r.scoringPassId),
    ("report_schema", .str r.reportSchema), ("evidence_hash", .str r.evidenceHash)]

/-- `model_validate`: the four texts, none empty, and nothing else. -/
def validate (v : Value) : Option RunReportRef := do
  let .obj members := v | none
  if !members.all (fun m => m.1 ∈ ["run_id", "scoring_pass_id", "report_schema", "evidence_hash"]) then none
  let runId ← v.textAt? "run_id"
  let scoringPassId ← v.textAt? "scoring_pass_id"
  let reportSchema ← v.textAt? "report_schema"
  let evidenceHash ← v.textAt? "evidence_hash"
  return ⟨runId, scoringPassId, reportSchema, evidenceHash⟩

end RunReportRef

/-- The view of a fixed report that the gate reads. -/
structure Snapshot where
  metricValues : Table String (Option Double) := ∅
  coverage : Option Double := none
  counts : Table String (Option Int) := ∅
  caseResults : Table String (Option Bool) := ∅
  /-- Case and disposition. -/
  caseDispositions : List (String × String) := []
  ref : Option Value := none
  scoringPassId : Option Value := none
  reportSchema : Option Value := none
  metricRegistryVersion : Option Value := none
  pairwiseQuality : Value := .null

/-- `candidate_evidence`; what is not reported is null. -/
structure Evidence where
  modelIdentity : Value := .null
  sideEffectViolations : Value := .null
  safetyMarkers : Value := .null
  judgeQualification : Document := ∅

/-- The arguments of one evaluation beside the policy. -/
structure Evaluation where
  candidateRef : RunReportRef
  candidate : Snapshot
  candidateRunStatus : String
  baselineRef : Option RunReportRef := none
  baseline : Option Snapshot := none
  comparisonLevel : Option ComparabilityLevel := none
  /-- No mapping is read as the empty one. -/
  metricEligibility : Table String (Option Bool) := ∅
  evidence : Evidence := {}
  statisticalPolicyRef : String := "statistical_policy@1"
  evaluatedAt : Option String := none

/-! ### Reading a snapshot -/

/-- `_metric_value`, with the reason when the value cannot be resolved. -/
def metricValue (b : Builtins) (s : Snapshot) (metricId : String) : Except String Double :=
  match lookupMetric metricId with
  | none => .error s!"unknown metric: {b.repr (.str metricId)} (registry metric-registry@1)"
  | some d =>
    let qualified := metricId ++ "@" ++ d.version
    match s.metricValues.get metricId with
    | none =>
      .error s!"metric value missing: {qualified} (insufficient evidence; missing values never become 0 or pass)"
    | some none =>
      if d.requiredEvidence.contains "price_table" then
        .error s!"cost unknown: {qualified} cannot pass without observed cost"
      else .error s!"metric value missing: {qualified} (empty denominator or unscored)"
    | some (some v) =>
      if v.isNan then .error s!"metric value is NaN: {qualified}"
      else if v.isInfinite then .error s!"metric value is infinite: {qualified}"
      else .ok v

inductive CaseOutcome where
  | pass
  | fail
  | unknown
deriving DecidableEq

/-- `_case_outcome`; none when the case is missing or has no expectation. -/
def caseOutcome (s : Snapshot) (caseId : String) : Option CaseOutcome :=
  match s.caseDispositions.find? (fun record => record.1 = caseId) with
  | none => none
  | some (_, disposition) =>
    if disposition = "judged" then
      match s.caseResults.get caseId with
      | some (some true) => some .pass
      | some (some false) => some .fail
      | _ => some .unknown
    else if disposition = "unknown" || disposition = "needs_review" then some .unknown
    else if disposition = "no_expectation" then none
    else if disposition = "call_failed" then some .fail
    else some .unknown

/-- `counts.get("selected", counts.get("judged", 0))` -/
def sampleCount (s : Snapshot) : Option Int :=
  match s.counts.get "selected" with
  | some n => n
  | none => (s.counts.get "judged").getD (some 0)

/-! ### Pairwise evidence -/

/-- What `PairwiseQualitySnapshot` holds of the fields that the gate reads. -/
structure PairwiseQuality where
  sourcePassId : String
  value : Option Double
  reasons : List String
  plannedPairs : Nat
  validPairs : Nat
  plannedCalls : Nat
  settledCalls : Nat
  coverage : Option Double

/-- The contracts of pairwise evidence: which values they accept. Their fields are
required, and are read from the value. -/
structure PairwiseContracts where
  /-- `PairwiseQualitySnapshot.model_validate` -/
  quality : Value → Option PairwiseQuality
  /-- `QualificationBinding.model_validate` accepts the value. -/
  binding : Value → Bool
  value_read : ∀ {v q}, quality v = some q → ∃ raw, v.get? "value" = some raw ∧ (raw = .null → q.value = none)
  coverage_read : ∀ {v q}, quality v = some q → ∃ raw, v.get? "coverage" = some raw ∧ (raw = .null → q.coverage = none)
  planned_read : ∀ {v q}, quality v = some q → v.get? "planned_pairs" = some (.int q.plannedPairs)

/-- No pairwise evidence is accepted. -/
def noContracts : PairwiseContracts where
  quality _ := none
  binding _ := false
  value_read h := by cases h
  coverage_read h := by cases h
  planned_read h := by cases h

/-- `_pairwise_section` -/
def pairwiseSection (s : Snapshot) : Value :=
  match s.pairwiseQuality with
  | .obj members => .obj members
  | _ => .obj []

def bindingMismatch : String := "pairwise selected source/report binding mismatch"

/-- `resolve_pairwise_gate_metric`, with the reference that the snapshot names. -/
def resolvePairwiseGateMetric (C : PairwiseContracts) (s : Snapshot) (ref : Value) : Except String Double :=
  match C.quality (pairwiseSection s), if ref.truthy then ref else .obj [] with
  | some q, .obj members =>
    let selected := ((Value.obj members).get? "scoring_pass_id").getD (s.scoringPassId.getD .null)
    let schema := ((Value.obj members).get? "report_schema").getD (s.reportSchema.getD .null)
    if !selected.equals (.str q.sourcePassId) || !schema.equals (.str "report-pairwise-v1") ||
        !(s.metricRegistryVersion.getD .null).equals (.str "metric-registry@2") ||
        !(s.scoringPassId.getD selected).equals selected || !(s.reportSchema.getD schema).equals schema then
      .error bindingMismatch
    else
      match q.value with
      | none => .error ("pairwise quality unavailable: " ++ "; ".intercalate q.reasons)
      | some v =>
        if q.plannedPairs = 0 || q.validPairs ≠ q.plannedPairs || q.settledCalls ≠ q.plannedCalls ||
            !q.coverage.any (fun c => c.number.equals (.finite 1)) then
          .error "pairwise quality requires complete planned pairs and calls"
        else .ok v
  | _, _ => .error "pairwise quality typed evidence/digest is missing or invalid"

/-- The reference that the snapshot names, the candidate's when it names none. -/
def selectedRef (x : Evaluation) : Value := x.candidate.ref.getD x.candidateRef.dump

/-- The pairwise value of an evaluation: the snapshot has to be of the candidate. -/
def pairwiseResolved (C : PairwiseContracts) (x : Evaluation) : Except String Double :=
  if RunReportRef.validate (selectedRef x) = some x.candidateRef then
    resolvePairwiseGateMetric C x.candidate (selectedRef x)
  else .error bindingMismatch

/-- `_pairwise_qualification` -/
def pairwiseQualification (C : PairwiseContracts) (qualification : Value) (s : Snapshot) : Bool × String :=
  let source := ((pairwiseSection s).get? "source_pass_id").getD .null
  let member := fun key => (qualification.get? key).getD .null
  if member "required" ≠ .bool true || member "gate_eligible" ≠ .bool true || member "mode" ≠ .str "pairwise" ||
      member "experimental" ≠ .bool false || !(member "pass_id").equals source || !(member "judge_pass_id").equals source then
    (false, "pairwise quality requires exact selected-Pass Judge qualification")
  else if C.binding (member "binding") then (true, "verified_calibration_source")
  else (false, "pairwise quality requires a complete qualification source binding")

end Motte.Gate
