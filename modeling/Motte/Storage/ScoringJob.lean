import Motte.Foundation.FloatSum
import Motte.Storage.Invocation

/-! Scoring jobs as records.

A scoring job is the durable preparation of one judge scoring request. This file
holds the record, its validation, the call ledger inside it, and what each
operation of the store does to one record; where the records are kept is left to
`JobStore`. A job is stored only after validation, so a stored job carries the
proof that it passes (`StoredJob`).

    queued      --claim-->       prepared --begin_call--> dispatching
    dispatching --settle_call--> dispatching, or settled once every call landed
    settled     --publish-->     completed
    settled     --cancel-->      cancelled
    queued, prepared --cancel--> cancelled
    dispatching --cancel-->      dispatching, with cancellation requested
    dispatching --recovery-->    indeterminate
-/
namespace Motte.Storage
open Foundation

/-- `JOB_STATES` -/
inductive JobStatus where
  | queued | prepared | dispatching | settled | completed | failed | cancelled | indeterminate
deriving DecidableEq, Repr

namespace JobStatus

def name : JobStatus → String
  | queued => "queued"
  | prepared => "prepared"
  | dispatching => "dispatching"
  | settled => "settled"
  | completed => "completed"
  | failed => "failed"
  | cancelled => "cancelled"
  | indeterminate => "indeterminate"

/-- `TERMINAL_JOB_STATES` -/
def terminal : JobStatus → Bool
  | completed | failed | cancelled | indeterminate => true
  | queued | prepared | dispatching | settled => false

/-- `JOB_TRANSITIONS` -/
def transitions : JobStatus → List JobStatus
  | queued => [prepared, cancelled, failed]
  | prepared => [dispatching, queued, cancelled, failed, indeterminate]
  | dispatching => [settled, failed, indeterminate, cancelled]
  | settled => [completed, failed, cancelled, indeterminate]
  | completed | failed | cancelled | indeterminate => []

end JobStatus

/-- `JOB_MODES` -/
inductive JobMode where
  | single | pairwise
deriving DecidableEq, Repr

/-- `PUBLISH_POLICIES` -/
inductive PublishPolicy where
  | allScored | allowNonScored
deriving DecidableEq, Repr

inductive OwnerKind where
  | subject | calibration
deriving DecidableEq, Repr

/-- A job scores a subject run, or the samples of a calibration job. -/
inductive JobOwner where
  | subject (runId : String) (fields : Fields)
  | calibration (calibrationJobId : String) (fields : Fields)

def JobOwner.kind : JobOwner → OwnerKind
  | .subject .. => .subject
  | .calibration .. => .calibration

/-- `_owner_ref` -/
def JobOwner.ref : JobOwner → Except Err String
  | .subject runId _ => do
    ensure (runId ≠ "") (.value "subject scoring job requires run_id")
    return "run:" ++ runId
  | .calibration jobId _ => do
    ensure (jobId ≠ "") (.value "calibration scoring job requires calibration_job_id")
    return "calibration:" ++ jobId

/-! ### The call ledger -/

/-- What a call sets aside from the job's allowance before it is sent. -/
structure Reservation where
  promptTokens : Option Int := none
  completionTokens : Option Int := none
  costUsd : Option Float := none

/-- A call as the caller describes it. A missing id is the empty one. -/
structure CallData where
  callId : String
  reservation : Option Reservation := none
  outcome : Option CallOutcome := none
  settledAt : Option Timestamp := none
  usage : Json := .null
  costUsd : Json := .null
  priceTableVersion : Json := .null
  rawResponse : Json := .null
  errorClass : Json := .null
  fields : Fields := ∅

/-- A call in the ledger: the invocation it belongs to, the invocation's revision
when it was sent, and how far it got. -/
structure Call extends CallData where
  invocationId : String
  invocationRevision : Int
  status : InvocationStatus
  dispatchedAt : Option Timestamp := none

/-- The total a job may spend, frozen when it is submitted. -/
structure Allowance where
  maxCalls : Option Int := none
  maxPromptTokens : Option Int := none
  maxCompletionTokens : Option Int := none
  maxCostUsd : Option Float := none

structure Cancellation where
  requested : Bool
  actor : String := ""
  reason : String := ""
  at_ : Timestamp := ""
  phase : String := ""
  billedCalls : Option Int := none
  finalizedAt : Option Timestamp := none
deriving DecidableEq

/-! ### The record -/

/-- A scoring job. Keys that no operation reads back (timestamps, failure,
recovery notes, plans and so on) are members of `fields`. -/
structure ScoringJob where
  schemaVersion : Int := 1
  jobId : String
  requestKey : String
  fingerprint : String
  owner : JobOwner
  ownerRef : String
  ownerKind : OwnerKind
  runId : String
  status : JobStatus
  revision : Int
  reservedPassId : String
  mode : JobMode := .single
  publishPolicy : PublishPolicy := .allScored
  judgeSpec : Fields
  budget : Fields := ∅
  calls : List Call := []
  result : Json := .null
  receipt : Json := .null
  cancellation : Option Cancellation := none
  allowance : Option Allowance := none
  attempts : Int := 0
  billedCalls : Option Int := none
  fields : Fields := ∅

/-- A cancellation has been requested. -/
def ScoringJob.cancelRequested (j : ScoringJob) : Bool :=
  match j.cancellation with
  | some c => c.requested
  | none => false

/-- Some call is still in flight. -/
def ScoringJob.inFlight (j : ScoringJob) : Bool := j.calls.any (fun c => c.status = .dispatching)

/-- `validate_scoring_job`: identities, owner union, reserved pass id, judge spec. -/
def validateScoringJob (j : ScoringJob) : Except Err Unit := do
  ensure (j.schemaVersion = 1) (.value "scoring job schema_version must be 1")
  ensure (j.jobId ≠ "") (.value "scoring job requires a nonempty job_id")
  ensure (j.requestKey ≠ "") (.value "scoring job requires a nonempty request_key")
  ensure (j.reservedPassId ≠ "") (.value "scoring job requires a nonempty reserved_pass_id")
  ensure (starts "sha256:" j.fingerprint) (.value "scoring job fingerprint must be a sha256:<64 hex> digest")
  ensure (1 ≤ j.revision) (.value "scoring job revision must be a positive integer")
  let expectedRef ← j.owner.ref
  ensure (j.ownerRef = expectedRef) (.value "scoring job owner_ref does not match its owner")
  ensure (j.ownerKind = j.owner.kind) (.value "scoring job owner_kind does not match its owner")
  match j.owner with
  | .subject runId _ => ensure (j.runId = runId) (.value "scoring job run_id must match the subject run")
  | .calibration .. =>
    ensure (j.runId = expectedRef) (.value "calibration scoring job must use the namespaced owner reference")
  ensure (j.judgeSpec ≠ ∅) (.value "scoring job requires a frozen judge spec")

/-- A job that passed validation: what the stores hold. -/
abbrev StoredJob := {j : ScoringJob // validateScoringJob j = .ok ()}

def storeJob (j : ScoringJob) : Except Err StoredJob :=
  match h : validateScoringJob j with
  | .error e => .error e
  | .ok () => .ok ⟨j, h⟩

@[simp] theorem storeJob_ok_iff {j : ScoringJob} {s : StoredJob} : storeJob j = .ok s ↔ s.1 = j := by
  unfold storeJob
  split
  · rename_i e h
    constructor
    · intro hs
      cases hs
    · rintro rfl
      rw [s.2] at h
      cases h
  · constructor
    · intro hs
      cases hs
      rfl
    · rintro rfl
      rfl

/-- Validation asks of the revision only that it is positive. -/
theorem validate_revision {j : ScoringJob} (h : validateScoringJob j = .ok ()) {r : Int} (hr : 1 ≤ r) :
    validateScoringJob {j with revision := r} = .ok () := by
  simp only [validateScoringJob, except_bind_ok_iff, ensure_ok_iff, exists_const] at h ⊢
  obtain ⟨h1, h2, h3, h4, h5, _, rest⟩ := h
  exact ⟨h1, h2, h3, h4, h5, hr, rest⟩

theorem StoredJob.revision_pos (j : StoredJob) : 1 ≤ j.1.revision := by
  have h := j.2
  simp only [validateScoringJob, except_bind_ok_iff, ensure_ok_iff, exists_const] at h
  obtain ⟨_, _, _, _, _, hr, _⟩ := h
  exact hr

/-! ### Changes -/

/-- The `changes` of a transition and the `job_changes` of a settlement: a
dictionary of new values, read into the record's fields. `none` is an absent key.
The revision is never taken from here. -/
structure JobChanges where
  schemaVersion : Option Int := none
  jobId : Option String := none
  requestKey : Option String := none
  fingerprint : Option String := none
  owner : Option JobOwner := none
  ownerRef : Option String := none
  ownerKind : Option OwnerKind := none
  runId : Option String := none
  status : Option JobStatus := none
  reservedPassId : Option String := none
  mode : Option JobMode := none
  publishPolicy : Option PublishPolicy := none
  judgeSpec : Option Fields := none
  budget : Option Fields := none
  calls : Option (List Call) := none
  result : Option Json := none
  receipt : Option Json := none
  cancellation : Option (Option Cancellation) := none
  allowance : Option (Option Allowance) := none
  attempts : Option Int := none
  billedCalls : Option (Option Int) := none
  fields : Fields := ∅

/-- `{**record, **changes}` -/
def JobChanges.apply (c : JobChanges) (j : ScoringJob) : ScoringJob where
  schemaVersion := c.schemaVersion.getD j.schemaVersion
  jobId := c.jobId.getD j.jobId
  requestKey := c.requestKey.getD j.requestKey
  fingerprint := c.fingerprint.getD j.fingerprint
  owner := c.owner.getD j.owner
  ownerRef := c.ownerRef.getD j.ownerRef
  ownerKind := c.ownerKind.getD j.ownerKind
  runId := c.runId.getD j.runId
  status := c.status.getD j.status
  revision := j.revision
  reservedPassId := c.reservedPassId.getD j.reservedPassId
  mode := c.mode.getD j.mode
  publishPolicy := c.publishPolicy.getD j.publishPolicy
  judgeSpec := c.judgeSpec.getD j.judgeSpec
  budget := c.budget.getD j.budget
  calls := c.calls.getD j.calls
  result := c.result.getD j.result
  receipt := c.receipt.getD j.receipt
  cancellation := c.cancellation.getD j.cancellation
  allowance := c.allowance.getD j.allowance
  attempts := c.attempts.getD j.attempts
  billedCalls := c.billedCalls.getD j.billedCalls
  fields := j.fields.merge c.fields

/-! ### Checks -/

/-- `_check` -/
def checkJob (current : ScoringJob) (expectedRevision : Int) (expectedStatus : Option JobStatus) :
    Except Err Unit := do
  ensure (current.revision = expectedRevision)
    (.scoringJobConflict ("scoring job revision changed: " ++ current.jobId))
  ensure (∀ s ∈ expectedStatus, current.status = s)
    (.scoringJobConflict ("scoring job status changed: " ++ current.jobId))

/-- `_assert_transition` -/
def assertTransition (current target : JobStatus) : Except Err Unit :=
  ensure (target ∈ current.transitions)
    (.scoringJob ("invalid scoring job transition: " ++ current.name ++ " -> " ++ target.name))

/-- `_next_revision` -/
def nextRevision (record : ScoringJob) (expectedRevision : Int) : Except Err StoredJob :=
  storeJob {record with revision := expectedRevision + 1}

/-- The reserved tokens of a ledger, a missing number counting as zero. -/
def reservedTokens (key : Reservation → Option Int) (calls : List Call) : Int :=
  (calls.map (fun c => ((c.reservation.bind key).getD 0))).sum

/-- The slack the cost check allows, to absorb rounding. -/
def costTolerance : Float := 1e-12

/-- `_reserve_call_allowance`: a call id is sent once, and the reservations of all
calls together, the new one included, stay within the frozen allowance. -/
def reserveCallAllowance (current : ScoringJob) (call : CallData) : Except Err Unit := do
  ensure (call.callId ≠ "") (.scoringJob "a judge call requires a call_id")
  ensure (∀ c ∈ current.calls, c.callId ≠ call.callId)
    (.scoringJob ("judge call was already dispatched and is never resent: " ++ call.callId))
  match current.allowance with
  | none => pure ()
  | some allowance =>
    match call.reservation with
    | none => throw (.scoringJob ("judge call " ++ call.callId ++
        " carries no reservation while the job declares a frozen allowance"))
    | some reservation =>
      ensure ((current.calls.length : Int) + 1 ≤ allowance.maxCalls.getD 0)
        (.scoringJob "judge call exceeds the frozen allowance: max_calls")
      ensure (reservedTokens (·.promptTokens) current.calls + reservation.promptTokens.getD 0 ≤
          allowance.maxPromptTokens.getD 0)
        (.scoringJob "judge call exceeds the frozen allowance: max_prompt_tokens")
      ensure (reservedTokens (·.completionTokens) current.calls + reservation.completionTokens.getD 0 ≤
          allowance.maxCompletionTokens.getD 0)
        (.scoringJob "judge call exceeds the frozen allowance: max_completion_tokens")
      match allowance.maxCostUsd with
      | none => pure ()
      | some maxCost =>
        let costs := current.calls.map (fun c => c.reservation.bind (·.costUsd)) ++ [reservation.costUsd]
        ensure (costs.all Option.isSome)
          (.scoringJob ("judge call cost is unknown: a job with a monetary allowance " ++
            "cannot reserve an unknown cost"))
        ensure (¬ floatSum (costs.filterMap id) > maxCost + costTolerance)
          (.scoringJob "judge call exceeds the frozen allowance: max_cost_usd")

end Motte.Storage
