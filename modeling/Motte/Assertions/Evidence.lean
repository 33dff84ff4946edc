import Mathlib.Algebra.Order.Ring.Unbundled.Rat
import Mathlib.Algebra.Ring.Nat
import Motte.Foundation.Document
import Motte.Foundation.Op

/-! The frozen evidence that assertions are made about.

An observation names the logs of actions that belong to its case. A log is read only when
everything that was recorded of it agrees: who owns it, the hash of its bytes, its schema
and the schema's own hash. Whatever does not agree is refused with a reason, and nothing is
repaired. -/
namespace Motte.Assertions
open Foundation

abbrev Bytes := List UInt8

inductive MetricStatus where
  | scored
  | insufficientEvidence
  | evaluatorError
  | notApplicable
deriving DecidableEq

inductive CallStatus where
  | succeeded
  | failed
  | denied
deriving DecidableEq

def CallStatus.text : CallStatus → String
  | .succeeded => "succeeded"
  | .failed => "failed"
  | .denied => "denied"

/-- `ToolCallRecord` -/
structure ToolCall where
  callId : String
  toolName : String
  arguments : List (String × Value)
  status : CallStatus
  step : ℕ

/-- `WorkflowActionRecord` -/
structure ActionRecord where
  seq : ℕ
  step : ℕ
  action : String
  target : Option String
  status : CallStatus
  callId : Option String
  detail : Option String

/-- `WorkflowActionLog` -/
structure ActionLog where
  actions : List ActionRecord
  ordered : (actions.map ActionRecord.seq).Pairwise (· < ·)

/-- `WorkflowEvidenceOwner` -/
structure EvidenceOwner where
  runId : String
  caseId : String
  attemptId : Option String
  fixtureId : Option String

inductive EvidenceKind where
  | state
  | actionLog
deriving DecidableEq

def EvidenceKind.text : EvidenceKind → String
  | .state => "state"
  | .actionLog => "action_log"

/-- `WorkflowEvidenceRef` -/
structure EvidenceRef where
  evidenceId : String
  kind : EvidenceKind
  owner : EvidenceOwner
  step : ℕ
  artifactId : String
  artifactSha256 : String
  payloadSchema : Value
  schemaSha256 : String
  complete : Bool
  monitoredScope : List String

structure ArtifactEntry where
  artifactId : String
  sha256 : Option String
  available : Bool
  redacted : Bool
  truncated : Bool

/-- `FrozenObservation`; of the coverage and of the workspace only whether they are complete. -/
structure Observation where
  runId : String
  caseId : String
  attemptId : Option String
  finalOutput : Value
  coverageComplete : Bool
  artifactRefs : List ArtifactEntry
  toolCalls : List ToolCall
  workspace : Option Bool
  workflowEvidence : List EvidenceRef

/-- The flags of a pattern. -/
structure RegexFlags where
  ignoreCase : Bool := false
  multiline : Bool := false
  dotall : Bool := false
deriving DecidableEq

inductive SearchOutcome where
  | timeout
  | error (text : String)
  | found (match_ : Bool)
deriving DecidableEq

inductive SchemaOutcome where
  | timeout
  | error (text : String)
  | checked (messages : List String)

/-- What is asked of libraries: `loads` decodes bytes and reads them as JSON, `validateLog` builds the log of a
payload, `search` is the pattern search that is ended after a number of seconds, `seconds` prints such a number. -/
structure Library where
  sha256 : Bytes → String
  loads : Bytes → Except String Value
  schemaDigest : Value → String
  validateSchema : Value → Value → SchemaOutcome
  validateLog : Value → Except String ActionLog
  dumps : Value → String
  lower : String → String
  repr : String → String
  search : String → String → RegexFlags → ℚ → SearchOutcome
  seconds : ℚ → String

/-- `EvaluationContext`; `expired` and `remaining` are what its clock says. -/
structure Context where
  lib : Library
  reader : Option (String → Option Bytes)
  maxArtifactBytes : ℕ
  regexTimeout : ℚ
  expired : Bool
  remaining : Option ℚ

/-- `WorkflowEvidenceRefused` -/
structure Refused where
  reason : String
  status : MetricStatus := .insufficientEvidence
  detail : Option String := none
  ref : Option EvidenceRef := none

section
variable (ctx : Context) (obs : Observation)

/-- `EvaluationContext.read_artifact` -/
def readArtifact (artifactId : String) : Option Bytes :=
  match obs.artifactRefs.reverse.find? (fun entry => entry.artifactId = artifactId) with
  | none => none
  | some entry => if entry.available then ctx.reader.bind (fun reader => reader artifactId) else none

/-- The owner is another case, or another attempt of it. -/
def foreign (owner : EvidenceOwner) : Bool :=
  decide (owner.runId ≠ obs.runId ∨ owner.caseId ≠ obs.caseId) ||
    match owner.attemptId, obs.attemptId with
    | some a, some b => decide (a ≠ b)
    | _, _ => false

/-- The attempt as it is written in a message. -/
def attemptText (attemptId : Option String) : String := attemptId.getD "None"

/-- What an evidence artifact decodes to, once its bytes are the ones that were frozen. -/
def decodeEvidence (ref : EvidenceRef) (data : Bytes) : Except Refused Value :=
  match ctx.lib.loads data with
  | .error text => .error { reason := "evidence_invalid_json", status := .evaluatorError, detail := some text, ref }
  | .ok payload =>
    if ctx.lib.schemaDigest ref.payloadSchema ≠ ref.schemaSha256 then
      .error { reason := "evidence_schema_digest_mismatch", status := .evaluatorError, ref }
    else match ctx.lib.validateSchema ref.payloadSchema payload with
      | .timeout => .error { reason := "evidence_schema_timeout", status := .evaluatorError, ref }
      | .error text => .error { reason := "evidence_schema_error", status := .evaluatorError, detail := some text, ref }
      | .checked [] => .ok payload
      | .checked messages =>
        .error { reason := "evidence_schema_violation", status := .evaluatorError
                 detail := some ("; ".intercalate (messages.take 5)), ref }

/-- `_resolve_workflow_evidence` -/
def resolveWorkflowEvidence (evidenceId : String) (kind : EvidenceKind) : Except Refused (EvidenceRef × Value) := do
  let ref ← match obs.workflowEvidence.filter (fun ref => ref.evidenceId = evidenceId) with
    | [] => .error { reason := "evidence_not_declared" }
    | [ref] => .ok ref
    | ref :: _ => .error { reason := "evidence_ambiguous", status := .evaluatorError, ref := some ref }
  ensure (ref.kind = kind) { reason := "evidence_kind_mismatch", status := .evaluatorError
                             detail := some s!"declared {ref.kind.text}, required {kind.text}", ref }
  ensure (foreign obs ref.owner = false) {
    reason := "foreign_evidence_refused"
    detail := some (s!"evidence owner {ref.owner.runId}/{ref.owner.caseId}/{attemptText ref.owner.attemptId} does not match " ++
      s!"{obs.runId}/{obs.caseId}/{attemptText obs.attemptId}")
    ref }
  let entry ← match obs.artifactRefs.find? (fun entry => entry.artifactId = ref.artifactId) with
    | none => .error { reason := "artifact_not_captured", ref := some ref }
    | some entry => .ok entry
  ensure entry.available { reason := "artifact_unavailable", ref }
  ensure (entry.redacted = false) { reason := "artifact_redacted", ref }
  ensure (entry.truncated = false) { reason := "artifact_truncated", ref }
  let data ← match readArtifact ctx obs ref.artifactId with
    | none => .error { reason := "artifact_unavailable", ref := some ref }
    | some data => .ok data
  ensure (data.length ≤ ctx.maxArtifactBytes) {
    reason := "artifact_too_large", detail := some s!"{data.length} > {ctx.maxArtifactBytes}", ref }
  ensure (ctx.lib.sha256 data = ref.artifactSha256) {
    reason := "evidence_hash_mismatch"
    detail := some s!"frozen {ref.artifactSha256} != read {ctx.lib.sha256 data}"
    ref }
  ensure (∀ digest ∈ entry.sha256, digest = ctx.lib.sha256 data) { reason := "artifact_hash_mismatch", ref }
  return (ref, ← decodeEvidence ctx ref data)

/-- A log that was read, with what was declared of it. -/
structure ReadLog where
  ref : EvidenceRef
  log : ActionLog

inductive LogFailure where
  | refused (evidenceId : String) (e : Refused)
  | invalid (error artifactId : String)

/-- What an evaluator does first with the id of a log. -/
def readLog (logId : String) : Except LogFailure ReadLog :=
  match resolveWorkflowEvidence ctx obs logId .actionLog with
  | .error e => .error (.refused logId e)
  | .ok (ref, payload) =>
    match ctx.lib.validateLog payload with
    | .error text => .error (.invalid (String.ofList (text.toList.take 300)) ref.artifactId)
    | .ok log => .ok { ref, log }

end

end Motte.Assertions
