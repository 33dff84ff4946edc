import Motte.Calibration.Registry
import Motte.Calibration.Stability
import Motte.Foundation.Op
import Motte.Judge.Outcome

/-! The calibration report, and what a judge is qualified by.

What people found of the samples they reviewed is held against what the judge said of
them, one criterion of one sample at a time. Each of these counts once: as compared, or
as what kept it from being compared. A judge is eligible when the counts and its
calls meet thresholds that are fixed for the rubric. -/
namespace Motte.Calibration
open Foundation

/-! ### Samples -/

/-- `CALIBRATION_SAMPLE_KINDS` -/
inductive SampleKind where
  | clearPass
  | clearFail
  | borderline
  | missingEvidence
  | injection
deriving DecidableEq

def SampleKind.text : SampleKind → String
  | .clearPass => "clear_pass"
  | .clearFail => "clear_fail"
  | .borderline => "borderline"
  | .missingEvidence => "missing_evidence"
  | .injection => "injection"

def sampleKinds : List SampleKind := [.clearPass, .clearFail, .borderline, .missingEvidence, .injection]

/-- `SAMPLE_SOURCES` -/
inductive SampleSource where
  | human
  | syntheticCandidate
deriving DecidableEq

/-- `SAMPLE_STATUSES` -/
inductive SampleStatus where
  | candidate
  | humanReviewed
  | rejected
deriving DecidableEq

inductive ExpectedStatus where
  | scored
  | insufficientEvidence
  | evaluatorError
deriving DecidableEq

/-- A text that is there and not empty. -/
def named (text : Option String) : Bool := text.any (· ≠ "")

/-- `CalibrationSample`: one that people reviewed says who they were, and what they found. -/
structure CalibrationSample where
  sampleId : String
  kind : SampleKind
  source : SampleSource
  status : SampleStatus
  annotator : Option String
  reviewedBy : Option String
  reviewedAt : Option String
  expectedCriteria : Table String Bool
  expectedStatus : Option ExpectedStatus
  rubricId : String
  rubricVersion : String
  model : String
  /-- `review_honesty` -/
  honest : status = .humanReviewed → named annotator = true ∧ named reviewedBy = true ∧ named reviewedAt = true ∧
    source = .human ∧ (expectedCriteria.rows ≠ [] ∨ expectedStatus ≠ none)

def CalibrationSample.isHumanReviewed (sample : CalibrationSample) : Bool := sample.status = .humanReviewed

/-- `CalibrationSet` -/
structure CalibrationSet where
  calibrationId : String
  version : String
  rubricId : String
  rubricVersion : String
  model : String
  judgeSpecSha256 : Option String
  contentSha256 : String
  samples : List CalibrationSample
  once : (samples.map (·.sampleId)).Nodup
  /-- `one_configuration` -/
  oneConfiguration : ∀ sample ∈ samples,
    sample.rubricId = rubricId ∧ sample.rubricVersion = rubricVersion ∧ sample.model = model

namespace CalibrationSet

/-- `human_reviewed` -/
def humanReviewed (calibration : CalibrationSet) : List CalibrationSample :=
  calibration.samples.filter (·.isHumanReviewed)

/-- `candidates` -/
def candidates (calibration : CalibrationSet) : List CalibrationSample :=
  calibration.samples.filter (·.status = .candidate)

/-- `kind_counts` -/
def kindCount (calibration : CalibrationSet) (kind : SampleKind) : ℕ :=
  calibration.humanReviewed.countP (·.kind = kind)

end CalibrationSet

/-! ### Policies -/

inductive ReportError where
  /-- `RubricError` -/
  | rubric (message : String)
  /-- `CalibrationError` -/
  | calibration (message : String)
  /-- What a contract refuses. -/
  | contract
  /-- `TypeError`, of what has no hash -/
  | unhashable
deriving DecidableEq

/-- `CalibrationPolicy` -/
structure CalibrationPolicy where
  rubricId : String
  rubricVersion : String
  minHumanReviewedSamples : ℕ := 30
  minClearPass : ℕ := 6
  minClearFail : ℕ := 6
  minBorderline : ℕ := 6
  minMissingEvidence : ℕ := 6
  minInjection : ℕ := 6
  maxDisagreementRate : ℚ := 15 / 100
  maxErrorRate : ℚ := 15 / 100
  maxRefusalRate : ℚ := 15 / 100
  maxMissingEvidenceRate : ℚ := 25 / 100
  requireRepeatStability : Bool := true
  minRepeatStabilityRate : ℚ := 1
  requirePositionSwapConsistency : Bool := true
  minPositionSwapConsistencyRate : ℚ := 1
deriving DecidableEq

/-- How many samples of a kind are asked for. -/
def CalibrationPolicy.least (policy : CalibrationPolicy) : SampleKind → ℕ
  | .clearPass => policy.minClearPass
  | .clearFail => policy.minClearFail
  | .borderline => policy.minBorderline
  | .missingEvidence => policy.minMissingEvidence
  | .injection => policy.minInjection

/-- `_CALIBRATION_POLICIES` -/
def calibrationPolicies : List CalibrationPolicy :=
  [{ rubricId := "answer-quality", rubricVersion := "1" }, { rubricId := "evidence-fidelity", rubricVersion := "1" },
    { rubricId := "safety-policy", rubricVersion := "1" }]

/-- `policy_for` -/
def policyFor (rubricId version : String) : Except ReportError CalibrationPolicy :=
  match calibrationPolicies.find? (fun policy => policy.rubricId = rubricId ∧ policy.rubricVersion = version) with
  | some policy => .ok policy
  | none => .error (.rubric s!"no calibration policy is registered for {rubricId}@{version}")

/-- `validate_policy` -/
def validatePolicy (policy : CalibrationPolicy) : Except ReportError CalibrationPolicy := do
  let registered ← policyFor policy.rubricId policy.rubricVersion
  if policy ≠ registered then
    .error (.rubric s!"calibration policy for {policy.rubricId}@{policy.rubricVersion} is fixed; the supplied policy differs from the registered thresholds")
  else .ok policy

/-- What is missing of the samples that a policy asks for. -/
def missingCoverage (calibration : CalibrationSet) (policy : CalibrationPolicy) : List String :=
  (if calibration.humanReviewed.length < policy.minHumanReviewedSamples then
    [s!"human-reviewed samples {calibration.humanReviewed.length} < required {policy.minHumanReviewedSamples}"] else []) ++
  sampleKinds.flatMap (fun kind =>
    if calibration.kindCount kind < policy.least kind then
      [s!"human-reviewed {kind.text} samples {calibration.kindCount kind} < required {policy.least kind}"] else [])

/-- `covers` -/
def covers (calibration : CalibrationSet) (policy : CalibrationPolicy) : Except ReportError (Bool × List String) := do
  let policy ← validatePolicy policy
  .ok (missingCoverage calibration policy = [], missingCoverage calibration policy)

/-! ### What is counted -/

/-- What was recorded of a sample: an outcome, a mapping in its place, or something without a status. -/
inductive Observed where
  | outcome (o : Judge.JudgeOutcome)
  | mapping (entries : Document)
  | other

/-- How an observation is taken. -/
inductive Reading where
  | refused
  | failed
  | judged (judgements : List Judge.CriterionJudgement)

/-- An outcome that only lacks evidence is read criterion by criterion, as one in order is. -/
def statusReading (judgements : List Judge.CriterionJudgement) : Judge.OutcomeStatus → Reading
  | .failed .refused => .refused
  | .failed .malformed => .failed
  | .failed .forgedEvidence => .failed
  | .failed .missingCriterion => .failed
  | .failed .missingEvidence => .judged judgements
  | .ok => .judged judgements

/-- A mapping has a status and no judgements. -/
def mappingReading : Value → Except ReportError Reading
  | .str text =>
    if text = "refused" then .ok .refused
    else if text ∈ ["malformed", "forged_evidence", "missing_criterion"] then .ok .failed
    else .ok (.judged [])
  | .arr _ => .error .unhashable
  | .obj _ => .error .unhashable
  | _ => .ok (.judged [])

def Observed.reading : Observed → Except ReportError Reading
  | .outcome o => .ok (statusReading o.judgements o.status)
  | .mapping entries => mappingReading ((entries.get "status").getD (.str "malformed"))
  | .other => .ok .failed

/-- What is read of a sample: one that was not observed counts as failed. -/
def readingOf (observed : Table String Observed) (sampleId : String) : Except ReportError Reading :=
  match observed.get sampleId with
  | none => .ok .failed
  | some o => o.reading

/-- What becomes of one criterion of one sample. -/
inductive Finding where
  | truePass
  | falsePass
  | trueFail
  | falseFail
  | missingEvidence
  | refusal
  | error
deriving DecidableEq

namespace Finding

/-- Both sides said something. -/
def isCompared : Finding → Bool
  | .truePass => true
  | .falsePass => true
  | .trueFail => true
  | .falseFail => true
  | _ => false

/-- They said different things. -/
def disagrees : Finding → Bool
  | .falsePass => true
  | .falseFail => true
  | _ => false

end Finding

/-- `{judgement.criterion_id: judgement for judgement in judgements}` -/
def judgementsByCriterion (judgements : List Judge.CriterionJudgement) : Table String Judge.CriterionJudgement :=
  judgements.foldl (fun t j => t.set j.criterionId j) ∅

/-- What people expected of a criterion, and what the judge said. -/
def compare (expected actual : Bool) : Finding :=
  if expected = true ∧ actual = true then .truePass
  else if expected = true ∧ actual = false then .falseFail
  else if expected = false ∧ actual = true then .falsePass
  else .trueFail

/-- What is found of a criterion. -/
def Reading.finding (r : Reading) (criterionId : String) (expected : Bool) : Finding :=
  match r with
  | .refused => .refusal
  | .failed => .error
  | .judged judgements =>
    match (judgementsByCriterion judgements).get criterionId with
    | none => .missingEvidence
    | some judgement =>
      if judgement.outcome ≠ .scored then .missingEvidence else compare expected (judgement.passed.getD false)

/-- `CriterionConfusion` -/
structure CriterionConfusion where
  compared : ℕ := 0
  truePass : ℕ := 0
  falsePass : ℕ := 0
  trueFail : ℕ := 0
  falseFail : ℕ := 0
  missingEvidence : ℕ := 0
  refusals : ℕ := 0
  errors : ℕ := 0
deriving DecidableEq

def CriterionConfusion.count (c : CriterionConfusion) : Finding → CriterionConfusion
  | .truePass => { c with compared := c.compared + 1, truePass := c.truePass + 1 }
  | .falsePass => { c with compared := c.compared + 1, falsePass := c.falsePass + 1 }
  | .trueFail => { c with compared := c.compared + 1, trueFail := c.trueFail + 1 }
  | .falseFail => { c with compared := c.compared + 1, falseFail := c.falseFail + 1 }
  | .missingEvidence => { c with missingEvidence := c.missingEvidence + 1 }
  | .refusal => { c with refusals := c.refusals + 1 }
  | .error => { c with errors := c.errors + 1 }

/-- The counters of each criterion, and those of all. -/
structure Tally where
  counters : Table String CriterionConfusion
  compared : ℕ := 0
  disagreements : ℕ := 0
  refusals : ℕ := 0
  errors : ℕ := 0
  missingEvidence : ℕ := 0

def Tally.count (t : Tally) (criterionId : String) (f : Finding) : Tally where
  counters := t.counters.set criterionId (((t.counters.get criterionId).getD {}).count f)
  compared := t.compared + if f.isCompared then 1 else 0
  disagreements := t.disagreements + if f.disagrees then 1 else 0
  refusals := t.refusals + if f = .refusal then 1 else 0
  errors := t.errors + if f = .error then 1 else 0
  missingEvidence := t.missingEvidence + if f = .missingEvidence then 1 else 0

/-- The findings of a sample, one for each criterion that is expected of it. -/
def sampleFindings (sample : CalibrationSample) (r : Reading) : List (String × Finding) :=
  sample.expectedCriteria.rows.map (fun row => (row.1, r.finding row.1 row.2))

def countSample (observed : Table String Observed) (t : Tally) (sample : CalibrationSample) : Except ReportError Tally := do
  let r ← readingOf observed sample.sampleId
  .ok ((sampleFindings sample r).foldl (fun t f => t.count f.1 f.2) t)

/-- Counters for the criteria of all samples, in the order in which they are first met. -/
def emptyCounters (samples : List CalibrationSample) : Table String CriterionConfusion :=
  (samples.flatMap (fun sample => sample.expectedCriteria.rows.map Prod.fst)).foldl (fun t criterionId => t.set criterionId {}) ∅

/-! ### The report -/

/-- How numbers are written, and policies are told apart. -/
structure Format where
  /-- With three places. -/
  fixed : ℚ → String
  plain : ℚ → String
  policySha256 : CalibrationPolicy → String

/-- `CalibrationReport` -/
structure CalibrationReport where
  calibrationId : String
  calibrationVersion : String
  calibrationSha256 : String
  rubricId : String
  rubricVersion : String
  model : String
  judgeSpecSha256 : Option String
  policy : CalibrationPolicy
  policySha256 : String
  covered : Bool
  missing : List String
  sampleCount : ℕ
  humanReviewedCount : ℕ
  candidateOnlyCount : ℕ
  kindCounts : List (SampleKind × ℕ)
  perCriterion : List (String × CriterionConfusion)
  disagreementRate : Option ℚ
  errorRate : Option ℚ
  refusalRate : Option ℚ
  missingEvidenceRate : Option ℚ
  repeatStability : RepeatStability
  positionSwap : PositionSwap
  calls : List CalibrationCall
  callCount : ℕ
  qualified : Bool := false
  experimental : Bool := true
  gateEligible : Bool := false
  reasons : List String := []
  notRun : List String := []
  generatedAt : Option String

section
variable (fmt : Format)

/-- A rate that is higher than it may be. -/
def tooHigh (what : String) (rate : Option ℚ) (most : ℚ) : List String :=
  match rate with
  | none => []
  | some rate => if most < rate then [s!"{what} rate {fmt.fixed rate} > {fmt.plain most}"] else []

/-- What keeps a judge from being qualified. -/
def qualificationReasons (report : CalibrationReport) : List String :=
  let policy := report.policy
  let stability := report.repeatStability
  let swap := report.positionSwap
  (if report.humanReviewedCount < policy.minHumanReviewedSamples then
    ["calibration is not human-reviewed at the required level"] else []) ++
  (if report.judgeSpecSha256 = none then ["calibration does not pin a judge spec hash"] else []) ++
  (if report.covered = false then
    (if report.missing = [] then ["coverage was never measured"] else report.missing).map
      (fun missing => s!"calibration coverage is incomplete: {missing}") else []) ++
  (if report.disagreementRate = none then ["no human-labelled criteria could be compared"]
    else tooHigh fmt "disagreement" report.disagreementRate policy.maxDisagreementRate) ++
  (if report.errorRate = none then ["no human-reviewed sample produced a judge outcome"]
    else tooHigh fmt "error" report.errorRate policy.maxErrorRate) ++
  tooHigh fmt "refusal" report.refusalRate policy.maxRefusalRate ++
  tooHigh fmt "missing-evidence" report.missingEvidenceRate policy.maxMissingEvidenceRate ++
  (if policy.requireRepeatStability = true then
    if stability.measured = false then ["repeated scoring stability was not measured"]
    else if stability.rate.getD 0 < policy.minRepeatStabilityRate then
      [s!"repeat stability {fmt.fixed (stability.rate.getD 0)} < policy minimum {fmt.plain policy.minRepeatStabilityRate} ({stability.stable}/{stability.samples} stable)"]
    else [] else []) ++
  (if policy.requirePositionSwapConsistency = true then
    if swap.measured = false then ["pairwise position-swap consistency was not measured"]
    else if swap.rate.getD 0 < policy.minPositionSwapConsistencyRate then
      [s!"pairwise position swap changed the mapped winner: {fmt.fixed (swap.rate.getD 0)} < policy minimum {fmt.plain policy.minPositionSwapConsistencyRate}"]
    else [] else [])

/-- `qualify_judge` -/
def qualifyJudge (report : CalibrationReport) : CalibrationReport :=
  let reasons := qualificationReasons fmt report
  { report with
    qualified := reasons = []
    experimental := reasons ≠ []
    gateEligible := reasons = []
    reasons := reasons
    notRun :=
      if report.humanReviewedCount < report.policy.minHumanReviewedSamples then
        [s!"no human labels: the software path is verifiable, but real G18/T10 acceptance is not_run (human-reviewed samples {report.humanReviewedCount} < {report.policy.minHumanReviewedSamples})"]
      else [] }

/-- What a report is built from. -/
structure CalibrationRun where
  calibration : CalibrationSet
  observed : Table String Observed
  calls : List CalibrationCall
  policy : Option CalibrationPolicy
  generatedAt : Option String

/-- The report of a tally, before it says whether the judge is qualified. -/
def tallyReport (run : CalibrationRun) (policy : CalibrationPolicy) (coverage : Bool × List String) (t : Tally) :
    CalibrationReport :=
  let calibration := run.calibration
  let totalJudged := t.compared +
    (t.counters.rows.map (fun row => row.2.missingEvidence + row.2.refusals + row.2.errors)).sum
  { calibrationId := calibration.calibrationId
    calibrationVersion := calibration.version
    calibrationSha256 := calibration.contentSha256
    rubricId := calibration.rubricId
    rubricVersion := calibration.rubricVersion
    model := calibration.model
    judgeSpecSha256 := calibration.judgeSpecSha256
    policy
    policySha256 := fmt.policySha256 policy
    covered := coverage.1
    missing := coverage.2
    sampleCount := calibration.samples.length
    humanReviewedCount := calibration.humanReviewed.length
    candidateOnlyCount := calibration.candidates.length
    kindCounts := sampleKinds.map (fun kind => (kind, calibration.kindCount kind))
    perCriterion := t.counters.rows
    disagreementRate := rate t.disagreements t.compared
    errorRate := rate t.errors totalJudged
    refusalRate := rate t.refusals totalJudged
    missingEvidenceRate := rate t.missingEvidence totalJudged
    repeatStability := repeatStability run.calls
    positionSwap := positionSwap run.calls
    calls := run.calls
    callCount := run.calls.length
    generatedAt := run.generatedAt }

/-- `build_calibration_report` -/
def buildCalibrationReport (run : CalibrationRun) : Except ReportError CalibrationReport := do
  let calibration := run.calibration
  let policy ← run.policy.elim (policyFor calibration.rubricId calibration.rubricVersion) .ok
  let resolved ← validatePolicy policy
  let coverage ← covers calibration resolved
  let t ← calibration.humanReviewed.foldlM (countSample run.observed) { counters := emptyCounters calibration.samples }
  .ok (qualifyJudge fmt (tallyReport fmt run resolved coverage t))

/-- `qualification_record` -/
def qualificationRecord (report : CalibrationReport) (qualificationId evaluatedAt : Option String) :
    Except ReportError JudgeQualification := do
  let judgeSpecSha256 := report.judgeSpecSha256.getD ""
  ensure (judgeSpecSha256 ≠ "") (.calibration "qualification requires a calibration that pins a judge spec")
  ensure (judgeSpecSha256.length = 71) .contract
  .ok {
    qualificationId :=
      if named qualificationId then qualificationId.getD ""
      else s!"qual-{String.ofList ((report.calibrationSha256.toList.take 19).drop 7)}"
    judgeSpecSha256
    policySha256 := some report.policySha256
    rubricId := report.rubricId
    rubricVersion := report.rubricVersion
    model := report.model
    calibrationId := report.calibrationId
    calibrationVersion := report.calibrationVersion
    calibrationSha256 := report.calibrationSha256
    qualified := report.qualified
    experimental := report.experimental
    gateEligible := report.gateEligible
    reasons := report.reasons
    evaluatedAt := if named evaluatedAt then evaluatedAt else report.generatedAt }

/-- A calibration whose qualification is registered. -/
structure Registration where
  run : CalibrationRun
  qualificationId : Option String := none
  evaluatedAt : Option String := none

/-- The record of it. -/
def Registration.record (r : Registration) : Except ReportError JudgeQualification := do
  let report ← buildCalibrationReport fmt r.run
  qualificationRecord report r.qualificationId r.evaluatedAt

end

end Motte.Calibration
