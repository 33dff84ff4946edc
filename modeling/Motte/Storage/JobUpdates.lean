import Motte.Storage.ScoringJob

/-! What each operation of the scoring job store does to one job.

The requests carry the arguments of the store's operations. The functions here
read the job as it is stored and give the job to be stored, or raise; they are
the bodies that the SQLite and the in-memory store have in common. Each comes
with the lemma that says what it returns when it returns. -/
namespace Motte.Storage
open Foundation

/-! ### Requests -/

structure TransitionRequest where
  jobId : String
  expectedRevision : Int
  expectedStatus : JobStatus
  status : JobStatus
  changes : JobChanges := {}
  allowSameStatus : Bool := false

structure BeginCallRequest where
  jobId : String
  expectedRevision : Int
  invocation : InvocationRecord
  call : CallData
  now : Timestamp

structure SettleCallRequest where
  jobId : String
  expectedRevision : Int
  callId : String
  outcome : CallOutcome
  resultSummary : Fields := ∅
  jobStatus : JobStatus
  jobChanges : JobChanges := {}
  now : Timestamp

structure CancelRequest where
  jobId : String
  actor : String
  reason : String
  now : Timestamp

/-! ### Storing an edited job -/

/-- Replace fields that validation does not read. -/
def StoredJob.stamp (j : StoredJob) (attempts : Int) (fields : Fields) : StoredJob :=
  ⟨{j.1 with attempts, fields}, j.2⟩

def StoredJob.withCalls (j : StoredJob) (calls : List Call) : StoredJob := ⟨{j.1 with calls}, j.2⟩

@[simp] theorem nextRevision_ok_iff {record : ScoringJob} {rev : Int} {u : StoredJob} :
    nextRevision record rev = .ok u ↔ u.1 = {record with revision := rev + 1} := by
  simp only [nextRevision, storeJob_ok_iff]

/-- An edit that validation does not see can always be stored at the next revision. -/
theorem nextRevision_of_stored (j : StoredJob) (record : ScoringJob)
    (same : validateScoringJob record = validateScoringJob j.1) :
    ∃ u : StoredJob, nextRevision record j.1.revision = .ok u ∧
      u.1 = {record with revision := j.1.revision + 1} := by
  have hv : validateScoringJob {record with revision := j.1.revision + 1} = .ok () := by
    apply validate_revision (same.trans j.2)
    have := j.revision_pos
    omega
  exact ⟨⟨_, hv⟩, nextRevision_ok_iff.2 rfl, rfl⟩

/-! ### claim -/

/-- `claim`: a queued job becomes prepared; a settled one is only marked resumed;
any other is not claimable. -/
def claimRecord (now : Timestamp) (current : StoredJob) : Except Err (Option StoredJob) :=
  match current.1.status with
  | .queued => do
    let updated ← nextRevision {current.1 with status := .prepared} current.1.revision
    return some (updated.stamp (current.1.attempts + 1)
      (updated.1.fields.insert "prepared_at" (updated.1.fields.getOr "prepared_at" (.str now))))
  | .settled => do
    let updated ← nextRevision current.1 current.1.revision
    return some (updated.stamp updated.1.attempts (updated.1.fields.insert "resumed_at" (.str now)))
  | _ => return none

theorem claimRecord_ok {now : Timestamp} {current u : StoredJob}
    (h : claimRecord now current = .ok (some u)) :
    (current.1.status = .queued ∧ u.1 = {current.1 with
        status := .prepared, revision := current.1.revision + 1, attempts := current.1.attempts + 1,
        fields := current.1.fields.insert "prepared_at" (current.1.fields.getOr "prepared_at" (.str now))}) ∨
      (current.1.status = .settled ∧ u.1 = {current.1 with
        revision := current.1.revision + 1, fields := current.1.fields.insert "resumed_at" (.str now)}) := by
  unfold claimRecord at h
  split at h
  · rename_i hs
    simp only [except_bind_ok_iff, nextRevision_ok_iff, except_pure_ok_iff, Option.some.injEq] at h
    obtain ⟨v, hv, rfl⟩ := h
    exact .inl ⟨hs, by simp only [StoredJob.stamp, hv]⟩
  · rename_i hs
    simp only [except_bind_ok_iff, nextRevision_ok_iff, except_pure_ok_iff, Option.some.injEq] at h
    obtain ⟨v, hv, rfl⟩ := h
    exact .inr ⟨hs, by simp only [StoredJob.stamp, hv]⟩
  · cases h

/-! ### transition -/

/-- `transition`: compare revision and status, check the transition table unless
the status is deliberately kept, merge the changes. -/
def transitionRecord (r : TransitionRequest) (current : StoredJob) : Except Err StoredJob := do
  checkJob current.1 r.expectedRevision (some r.expectedStatus)
  if r.status ≠ r.expectedStatus ∨ r.allowSameStatus = false then
    assertTransition current.1.status r.status
  nextRevision {r.changes.apply current.1 with status := r.status} r.expectedRevision

theorem checkJob_ok_iff {j : ScoringJob} {rev : Int} {st : Option JobStatus} {u : Unit} :
    checkJob j rev st = .ok u ↔ j.revision = rev ∧ ∀ s ∈ st, j.status = s := by
  simp only [checkJob, except_bind_ok_iff, ensure_ok_iff, exists_const]

theorem transitionRecord_ok {r : TransitionRequest} {current u : StoredJob}
    (h : transitionRecord r current = .ok u) :
    current.1.revision = r.expectedRevision ∧ current.1.status = r.expectedStatus ∧
      (r.status ∈ current.1.status.transitions ∨ r.status = r.expectedStatus ∧ r.allowSameStatus = true) ∧
      u.1 = {r.changes.apply current.1 with status := r.status, revision := r.expectedRevision + 1} := by
  simp only [transitionRecord, except_bind_ok_iff, checkJob_ok_iff, exists_const, Option.mem_some_iff,
    forall_eq'] at h
  obtain ⟨⟨hrev, hst⟩, hassert⟩ := h
  refine ⟨hrev, hst, ?_⟩
  split at hassert
  · simp only [assertTransition, except_bind_ok_iff, ensure_ok_iff, exists_const, nextRevision_ok_iff] at hassert
    exact ⟨.inl hassert.1, hassert.2⟩
  · rename_i hsame
    simp only [nextRevision_ok_iff] at hassert
    rw [not_or, not_not, Bool.not_eq_false] at hsame
    exact ⟨.inr hsame, hassert⟩

/-! ### begin_call -/

/-- The checks `begin_call` makes before anything is written. -/
def checkDispatch (r : BeginCallRequest) (current : StoredJob) : Except Err Unit := do
  checkJob current.1 r.expectedRevision none
  ensure (current.1.status = .prepared ∨ current.1.status = .dispatching)
    (.scoringJob ("job cannot dispatch a call from status '" ++ current.1.status.name ++ "'"))
  ensure (current.1.cancelRequested = false) (.scoringJob "job cancellation was requested before dispatch")
  reserveCallAllowance current.1 r.call

/-- The ledger entry of a call whose invocation has just been dispatched. -/
def dispatchedCall (r : BeginCallRequest) (dispatched : Invocation) : Call :=
  { toCallData := r.call, invocationId := dispatched.id, invocationRevision := dispatched.revision
    status := .dispatching, dispatchedAt := some r.now }

def beginRecord (r : BeginCallRequest) (dispatched : Invocation) (current : StoredJob) :
    Except Err StoredJob :=
  nextRevision {current.1 with
    status := .dispatching
    calls := current.1.calls ++ [dispatchedCall r dispatched]
    fields := current.1.fields.insert "dispatch_started_at"
      (current.1.fields.getOr "dispatch_started_at" (.str r.now))} r.expectedRevision

theorem checkDispatch_ok {r : BeginCallRequest} {current : StoredJob}
    (h : checkDispatch r current = .ok ()) :
    current.1.revision = r.expectedRevision ∧
      (current.1.status = .prepared ∨ current.1.status = .dispatching) ∧
      current.1.cancelRequested = false ∧ reserveCallAllowance current.1 r.call = .ok () := by
  simp only [checkDispatch, except_bind_ok_iff, checkJob_ok_iff, ensure_ok_iff, exists_const] at h
  obtain ⟨⟨hrev, _⟩, hst, hcancel, hreserve⟩ := h
  exact ⟨hrev, hst, hcancel, hreserve⟩

/-- The ledger entry of a call that passed the checks can always be stored. -/
theorem beginRecord_ok {r : BeginCallRequest} (dispatched : Invocation) {current : StoredJob}
    (h : checkDispatch r current = .ok ()) :
    ∃ u : StoredJob, beginRecord r dispatched current = .ok u := by
  obtain ⟨u, hu, -⟩ := nextRevision_of_stored current {current.1 with
    status := .dispatching
    calls := current.1.calls ++ [dispatchedCall r dispatched]
    fields := current.1.fields.insert "dispatch_started_at"
      (current.1.fields.getOr "dispatch_started_at" (.str r.now))} rfl
  rw [(checkDispatch_ok h).1] at hu
  exact ⟨u, hu⟩

/-! ### settle_call -/

/-- The first ledger entry with the given call id. -/
def findCall (calls : List Call) (callId : String) : Option Call :=
  calls.find? (fun c => c.callId = callId)

/-- Edit the first entry with the given call id. -/
def editCall (calls : List Call) (callId : String) (edit : Call → Call) : List Call :=
  match calls with
  | [] => []
  | c :: rest => if c.callId = callId then edit c :: rest else c :: editCall rest callId edit

/-- What settling writes into the ledger entry. -/
def settledCall (r : SettleCallRequest) (c : Call) : Call :=
  {c with
    status := .settled
    outcome := some r.outcome
    settledAt := some r.now
    usage := r.resultSummary.get "usage"
    costUsd := r.resultSummary.get "cost_usd"
    priceTableVersion := r.resultSummary.get "price_table_version"
    rawResponse := r.resultSummary.get "raw_response"
    errorClass := r.resultSummary.get "error_class"}

def succeededCalls (calls : List Call) : Nat := calls.countP (fun c => c.outcome = some .succeeded)

/-- The checks `settle_call` makes before it settles the invocation. -/
def settleTarget (r : SettleCallRequest) (current : StoredJob) : Except Err Call := do
  checkJob current.1 r.expectedRevision (some .dispatching)
  match findCall current.1.calls r.callId with
  | none => throw (.scoringJob ("unknown judge call: " ++ r.callId))
  | some target => return target

/-- The ledger and the count of succeeded calls, before the caller's changes. -/
def settledLedger (r : SettleCallRequest) (current : ScoringJob) : ScoringJob :=
  let calls := editCall current.calls r.callId (settledCall r)
  {current with calls, billedCalls := some (succeededCalls calls)}

/-- `settle_call` after the invocation is settled: the ledger entry, the caller's
changes, then the status the caller asked for. The transition is checked from the
status the changed record has, not from the stored one. -/
def settleRecord (r : SettleCallRequest) (current : StoredJob) : Except Err StoredJob := do
  let record := r.jobChanges.apply (settledLedger r current.1)
  if r.jobStatus ≠ record.status then
    assertTransition record.status r.jobStatus
  let fields := if r.jobStatus = .settled then record.fields.insert "settled_at" (.str r.now) else record.fields
  nextRevision {record with status := r.jobStatus, fields} r.expectedRevision

theorem settleTarget_ok {r : SettleCallRequest} {current : StoredJob} {target : Call}
    (h : settleTarget r current = .ok target) :
    current.1.revision = r.expectedRevision ∧ current.1.status = .dispatching ∧
      findCall current.1.calls r.callId = some target := by
  simp only [settleTarget, except_bind_ok_iff, checkJob_ok_iff, exists_const, Option.mem_some_iff,
    forall_eq'] at h
  obtain ⟨⟨hrev, hst⟩, h⟩ := h
  split at h
  · cases h
  · rename_i hf
    simp only [except_pure_ok_iff] at h
    exact ⟨hrev, hst, h ▸ hf⟩

theorem settleRecord_ok {r : SettleCallRequest} {current u : StoredJob}
    (h : settleRecord r current = .ok u) :
    (r.jobStatus = (r.jobChanges.apply (settledLedger r current.1)).status ∨
        r.jobStatus ∈ (r.jobChanges.apply (settledLedger r current.1)).status.transitions) ∧
      u.1 = {r.jobChanges.apply (settledLedger r current.1) with
        status := r.jobStatus
        revision := r.expectedRevision + 1
        fields := if r.jobStatus = .settled then
            (r.jobChanges.apply (settledLedger r current.1)).fields.insert "settled_at" (.str r.now)
          else (r.jobChanges.apply (settledLedger r current.1)).fields} := by
  simp only [settleRecord] at h
  split at h
  · simp only [assertTransition, except_bind_ok_iff, ensure_ok_iff, exists_const, nextRevision_ok_iff] at h
    exact ⟨.inr h.1, h.2⟩
  · rename_i hsame
    simp only [nextRevision_ok_iff] at h
    exact ⟨.inl (not_not.1 hsame), h⟩

/-! ### cancel -/

inductive CancelOutcome where
  | alreadyCompleted | alreadyCancelled | indeterminate | cancelled | cancelRequested
  | cancelledBeforePublish
deriving DecidableEq, Repr

structure CancelReply where
  job : ScoringJob
  outcome : CancelOutcome
  receipt : Json := .null
  billedCalls : Option Int := none
  inFlight : Bool := false
  note : Option String := none

/-- Cancelling a job that was never sent: zero calls are billed. -/
def abandonRecord (r : CancelRequest) (current : StoredJob) : Except Err StoredJob :=
  nextRevision {current.1 with
    status := .cancelled
    cancellation := some {
      requested := true
      actor := r.actor
      reason := r.reason
      at_ := r.now
      phase := current.1.status.name
      billedCalls := some 0}
    result := if current.1.result.truthy then current.1.result
      else .obj [("cancelled_before_dispatch", .bool true)]
    fields := current.1.fields.insert "cancelled_at" (.str r.now)} current.1.revision

/-- Cancelling a stored job that was never sent does not raise. -/
theorem abandonRecord_ok (r : CancelRequest) (current : StoredJob) : ∃ u, abandonRecord r current = .ok u := by
  obtain ⟨u, hu, -⟩ := nextRevision_of_stored current {current.1 with
    status := .cancelled
    cancellation := some {
      requested := true
      actor := r.actor
      reason := r.reason
      at_ := r.now
      phase := current.1.status.name
      billedCalls := some 0}
    result := if current.1.result.truthy then current.1.result
      else .obj [("cancelled_before_dispatch", .bool true)]
    fields := current.1.fields.insert "cancelled_at" (.str r.now)} rfl
  exact ⟨u, hu⟩

/-- Cancelling a job whose calls are under way: the request is recorded, no more. -/
def requestRecord (r : CancelRequest) (current : StoredJob) : Except Err StoredJob :=
  nextRevision {current.1 with
    cancellation := some {
      requested := true
      actor := r.actor
      reason := r.reason
      at_ := r.now
      phase := current.1.status.name}} current.1.revision

def orText (text other : String) : String := if text = "" then other else text

/-- Cancelling a job before it is published, keeping who asked first. -/
def withdrawRecord (r : CancelRequest) (current : StoredJob) : Except Err StoredJob :=
  let existing := current.1.cancellation.getD {requested := false}
  nextRevision {current.1 with
    status := .cancelled
    cancellation := some {
      requested := true
      actor := orText existing.actor r.actor
      reason := orText existing.reason r.reason
      at_ := orText existing.at_ r.now
      phase := orText existing.phase current.1.status.name
      billedCalls := some (current.1.billedCalls.getD 0)
      finalizedAt := some r.now}
    fields := (current.1.fields.insert "cancelled_at" (.str r.now)).insert "publish_outcome"
      (.str "cancelled_before_publish")} current.1.revision

/-! ### Recovery -/

/-- A prepared job goes back to the queue: nothing shows that a call was sent. -/
def requeueRecord (now : Timestamp) (current : StoredJob) : Except Err StoredJob :=
  nextRevision {current.1 with
    status := .queued
    fields := (current.1.fields.insert "recovered_at" (.str now)).insert "recovery"
      (.obj [("billed_calls", .num 0), ("reason", .str "prepared_without_dispatch_evidence")])}
    current.1.revision

/-- A dispatching job is isolated: its outcome is unknown and it is never resent. -/
def interruptRecord (now : Timestamp) (current : StoredJob) : Except Err StoredJob :=
  nextRevision {current.1 with
    status := .indeterminate
    fields := (current.1.fields.insert "failure"
      (.obj [("code", .str "CALL_OUTCOME_INDETERMINATE"),
        ("message", .str ("a dispatched judge call was interrupted before a " ++
          "durable result landed; it is never resent automatically"))])).insert
      "indeterminate_at" (.str now)}
    current.1.revision

/-- Recovering a stored job never raises. -/
theorem requeueRecord_ok (now : Timestamp) (current : StoredJob) : ∃ u, requeueRecord now current = .ok u := by
  obtain ⟨u, hu, -⟩ := nextRevision_of_stored current {current.1 with
    status := .queued
    fields := (current.1.fields.insert "recovered_at" (.str now)).insert "recovery"
      (.obj [("billed_calls", .num 0), ("reason", .str "prepared_without_dispatch_evidence")])} rfl
  exact ⟨u, hu⟩

theorem interruptRecord_ok (now : Timestamp) (current : StoredJob) :
    ∃ u, interruptRecord now current = .ok u := by
  obtain ⟨u, hu, -⟩ := nextRevision_of_stored current {current.1 with
    status := .indeterminate
    fields := (current.1.fields.insert "failure"
      (.obj [("code", .str "CALL_OUTCOME_INDETERMINATE"),
        ("message", .str ("a dispatched judge call was interrupted before a " ++
          "durable result landed; it is never resent automatically"))])).insert
      "indeterminate_at" (.str now)} rfl
  exact ⟨u, hu⟩

/-! ### Settling calls in bulk -/

/-- How a bulk settlement leaves one call. -/
structure Sweep where
  /-- The calls that are settled, by the status they have. -/
  status : InvocationStatus
  outcome : CallOutcome
  summary : Fields
  now : Timestamp
  /-- Whether the ledger entry records the time as well. -/
  stamps : Bool

def Sweep.mark (w : Sweep) (c : Call) : Call :=
  {c with status := .settled, outcome := some w.outcome
          settledAt := if w.stamps then some w.now else c.settledAt}

/-- `_settle_prepared_calls` on cancellation -/
def cancelSweep (r : CancelRequest) : Sweep where
  status := .prepared
  outcome := .failed
  summary := ((∅ : Fields).insert "reason" (.str "cancelled_before_dispatch")).insert "detail" (.str r.reason)
  now := r.now
  stamps := false

/-- The calls of an interrupted job. -/
def recoverySweep (now : Timestamp) : Sweep where
  status := .dispatching
  outcome := .indeterminate
  summary := (∅ : Fields).insert "reason" (.str "worker crashed after dispatch")
  now := now
  stamps := true

/-- Settle the invocations of the calls in the given status, in ledger order. The
loop stops where a transition raises; what it did before that is in the result. -/
def sweep (w : Sweep) : List Call → Invocations → List Call × Invocations × Except Err Unit
  | [], t => ([], t, .ok ())
  | c :: rest, t =>
    if c.status = w.status then
      match t.transition c.invocationId c.invocationRevision w.status .settled
          (settledWith w.outcome w.summary w.now) with
      | .error e => (c :: rest, t, .error e)
      | .ok (_, t') =>
        let (calls, t'', result) := sweep w rest t'
        (w.mark c :: calls, t'', result)
    else
      let (calls, t', result) := sweep w rest t
      (c :: calls, t', result)

end Motte.Storage
