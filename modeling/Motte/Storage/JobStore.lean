import Motte.Storage.JobUpdates

/-! The scoring job operations over the job table and the invocation ledger.

The SQLite and the in-memory store run the same operations in two ways. SQLite
wraps each in a transaction, and its `UPDATE` addresses the row by the job id
inside the record, comparing the row's status and revision columns. The
in-memory store assigns to the dictionary entry it was asked for, keeps what it
wrote before an exception, and hands its rows out by reference, so that editing
a call in a loop edits the stored row. A `Backend` says which of the two a store
is and what one of its rows looks like; the operations are written once. -/
namespace Motte.Storage
open Foundation

/-- The two tables that every operation except `publish` is confined to. -/
structure Ledgers (ρ : Type) where
  jobs : Table String ρ
  invocations : Invocations

instance {ρ : Type} : EmptyCollection (Ledgers ρ) := ⟨⟨∅, ∅⟩⟩

/-- How a store keeps its jobs, one row being a `ρ`. -/
structure Backend (ρ : Type) where
  payload : ρ → StoredJob
  /-- The request key `submit` compares with. -/
  requestKey : ρ → String
  fresh : StoredJob → ρ
  replace : ρ → StoredJob → ρ
  /-- Operations are transactions, and writes are compared against the row. -/
  transactional : Bool
  payload_fresh : ∀ j, payload (fresh j) = j
  payload_replace : ∀ row j, payload (replace row j) = j

/-- A row of `scoring_jobs`. The job id, status, revision and owner columns are
rewritten with the payload; the request key column never is. -/
structure JobRow where
  requestKey : String
  payload : StoredJob

/-- `SQLiteScoringJobs` -/
def sqliteJobs : Backend JobRow where
  payload := JobRow.payload
  requestKey := JobRow.requestKey
  fresh j := ⟨j.1.requestKey, j⟩
  replace row j := {row with payload := j}
  transactional := true
  payload_fresh _ := rfl
  payload_replace _ _ := rfl

/-- `MemoryScoringJobs` -/
def memoryJobs : Backend StoredJob where
  payload := id
  requestKey j := j.1.requestKey
  fresh := id
  replace _ j := j
  transactional := false
  payload_fresh _ := rfl
  payload_replace _ _ := rfl

namespace Backend
variable {ρ α : Type} (b : Backend ρ)

/-! ### Reading and writing rows -/

/-- `get` -/
def job (l : Ledgers ρ) (key : String) : Option StoredJob := (l.jobs.get key).map b.payload

def put (key : String) (j : StoredJob) (l : Ledgers ρ) : Ledgers ρ :=
  {l with jobs := l.jobs.set key (match l.jobs.get key with
    | some row => b.replace row j
    | none => b.fresh j)}

/-- `get_by_request_key` -/
def byRequestKey (l : Ledgers ρ) (requestKey : String) : Option StoredJob :=
  (l.jobs.rows.find? (fun r => b.requestKey r.2 = requestKey)).map (fun r => b.payload r.2)

def commit (x : Op (Ledgers ρ) Err α) : Op (Ledgers ρ) Err α :=
  if b.transactional then Op.atomically x else x

/-- `_read_locked`, and the first half of `_require` -/
def require (key : String) : Op (Ledgers ρ) Err StoredJob := do
  match ← Op.gets (b.job · key) with
  | none => Op.raise (.scoringJob ("scoring job is missing: " ++ key))
  | some current => return current

/-- `_write` against the row the record names, or an assignment to the given key. -/
def write (key : String) (j : StoredJob) (expectedRevision : Int) (expectedStatus : JobStatus) :
    Op (Ledgers ρ) Err Unit :=
  if b.transactional then do
    let changed : Err := .scoringJobConflict ("scoring job revision or status changed: " ++ j.1.jobId)
    match ← Op.gets (b.job · j.1.jobId) with
    | none => Op.raise changed
    | some row =>
      Op.lift (ensure (row.1.status = expectedStatus ∧ row.1.revision = expectedRevision) changed)
      Op.modify (b.put j.1.jobId j)
  else Op.modify (b.put key j)

/-- A step of the invocation ledger. -/
def onInvocations (f : Invocations → Except Err (α × Invocations)) : Op (Ledgers ρ) Err α := fun l =>
  match f l.invocations with
  | .error e => (.error e, l)
  | .ok (a, t) => (.ok a, {l with invocations := t})

/-- Settle calls in bulk. The in-memory store edits the ledger of the row itself,
as far as the loop got. -/
def sweepCalls (key : String) (w : Sweep) (current : StoredJob) : Op (Ledgers ρ) Err StoredJob := fun l =>
  let (calls, t, result) := sweep w current.1.calls l.invocations
  let l' : Ledgers ρ := {l with invocations := t}
  (result.map (fun _ => current.withCalls calls),
    if b.transactional then l' else b.put key (current.withCalls calls) l')

/-! ### The operations -/

/-- `submit`: one job for each request key. -/
def submit (record : ScoringJob) : Op (Ledgers ρ) Err (Bool × StoredJob) := do
  let stored ← Op.lift (storeJob record)
  b.commit do
    match ← Op.gets (b.byRequestKey · stored.1.requestKey) with
    | some current =>
      Op.lift (ensure (current.1.fingerprint = stored.1.fingerprint) (.scoringJobConflict
        ("request key already exists with different content: " ++ stored.1.requestKey)))
      return (false, current)
    | none =>
      let taken ← Op.gets (b.job · stored.1.jobId)
      Op.lift (ensure (taken = none)
        (.scoringJobConflict ("scoring job already exists: " ++ stored.1.jobId)))
      Op.modify (b.put stored.1.jobId stored)
      return (true, stored)

/-- `claim` -/
def claim (key : String) (now : Timestamp) : Op (Ledgers ρ) Err (Option StoredJob) := b.commit do
  match ← Op.gets (b.job · key) with
  | none => return none
  | some current =>
    match ← Op.lift (claimRecord now current) with
    | none => return none
    | some updated =>
      b.write key updated current.1.revision current.1.status
      return some updated

/-- The job id of the first row in the given status: a column, or a member of the payload. -/
def firstWith (status : JobStatus) (l : Ledgers ρ) : Option String :=
  (l.jobs.rows.find? (fun r => (b.payload r.2).1.status = status)).map
    (fun r => if b.transactional then r.1 else (b.payload r.2).1.jobId)

def claimFirst (status : JobStatus) (now : Timestamp) : Op (Ledgers ρ) Err (Option StoredJob) := do
  match ← Op.gets (b.firstWith status) with
  | none => return none
  | some key => b.claim key now

/-- `claim_next`. The row is chosen before the claim's own transaction; what other
clients do in between is the claim of a chosen key in another order of requests. -/
def claimNext (now : Timestamp) : Op (Ledgers ρ) Err (Option StoredJob) := do
  match ← b.claimFirst .queued now with
  | some claimed => return some claimed
  | none => b.claimFirst .settled now

/-- `transition` -/
def transition (r : TransitionRequest) : Op (Ledgers ρ) Err StoredJob := b.commit do
  let current ← b.require r.jobId
  let updated ← Op.lift (transitionRecord r current)
  b.write r.jobId updated r.expectedRevision r.expectedStatus
  return updated

/-- `begin_call`: the invocation is created and dispatched, then the ledger entry is added. -/
def beginCall (r : BeginCallRequest) : Op (Ledgers ρ) Err StoredJob := b.commit do
  let current ← b.require r.jobId
  Op.lift (checkDispatch r current)
  let created ← onInvocations (·.create r.invocation)
  let dispatched ← onInvocations (·.transition created.1.id created.1.revision .prepared .dispatching
    {fields := (∅ : Fields).insert "dispatched_at" (.str r.now)})
  let updated ← Op.lift (beginRecord r dispatched.1 current)
  b.write r.jobId updated r.expectedRevision current.1.status
  return updated

/-- `settle_call`: the invocation is settled, then the ledger entry and the job. -/
def settleCall (r : SettleCallRequest) : Op (Ledgers ρ) Err StoredJob := b.commit do
  let current ← b.require r.jobId
  let target ← Op.lift (settleTarget r current)
  let _ ← onInvocations (·.transition target.invocationId target.invocationRevision .dispatching .settled
    (settledWith r.outcome r.resultSummary r.now))
  let updated ← Op.lift (settleRecord r current)
  b.write r.jobId updated r.expectedRevision .dispatching
  return updated

/-- Cancelling a queued or prepared job. -/
def abandon (r : CancelRequest) (current : StoredJob) : Op (Ledgers ρ) Err CancelReply := do
  Op.lift (ensure (current.1.inFlight = false)
    (.scoringJob "cannot cancel with an unsettled dispatching call"))
  let swept ← b.sweepCalls r.jobId (cancelSweep r) current
  let updated ← Op.lift (abandonRecord r swept)
  b.write r.jobId updated current.1.revision current.1.status
  return { job := updated.1, outcome := .cancelled, billedCalls := some 0 }

/-- Cancelling a job whose calls are under way. -/
def requestCancel (r : CancelRequest) (current : StoredJob) : Op (Ledgers ρ) Err CancelReply :=
  if current.1.cancelRequested then
    return { job := current.1, outcome := .cancelRequested, inFlight := true }
  else do
    let updated ← Op.lift (requestRecord r current)
    b.write r.jobId updated current.1.revision current.1.status
    return {
      job := updated.1
      outcome := .cancelRequested
      inFlight := true
      note := some "a sent remote request can only be interrupted, never declared unbilled" }

/-- What `cancel` does in every status its earlier branches do not name. -/
def withdraw (r : CancelRequest) (current : StoredJob) : Op (Ledgers ρ) Err CancelReply := do
  let updated ← Op.lift (withdrawRecord r current)
  b.write r.jobId updated current.1.revision current.1.status
  return {
    job := updated.1
    outcome := .cancelledBeforePublish
    billedCalls := some (updated.1.billedCalls.getD 0) }

/-- `cancel` -/
def cancel (r : CancelRequest) : Op (Ledgers ρ) Err CancelReply := b.commit do
  let current ← b.require r.jobId
  match current.1.status with
  | .completed =>
    return { job := current.1, outcome := .alreadyCompleted, receipt := current.1.receipt }
  | .cancelled => return { job := current.1, outcome := .alreadyCancelled }
  | .indeterminate =>
    return {
      job := current.1
      outcome := .indeterminate
      note := some "unknown outcome stays indeterminate and is never resent" }
  | .queued | .prepared => b.abandon r current
  | .dispatching => b.requestCancel r current
  -- meant for settled jobs: publication can still be prevented; a failed job comes here too
  | .settled | .failed => b.withdraw r current

/-- The recovery of one row, giving the job id it reports. -/
def recoverOne (now : Timestamp) (key : String) (current : StoredJob) :
    Op (Ledgers ρ) Err (Option String) :=
  let report (updated : StoredJob) := some (if b.transactional then updated.1.jobId else key)
  match current.1.status with
  | .prepared =>
    if current.1.inFlight then return none
    else do
      let updated ← Op.lift (requeueRecord now current)
      b.write key updated current.1.revision current.1.status
      return report updated
  | .dispatching => do
    let swept ← b.sweepCalls key (recoverySweep now) current
    let updated ← Op.lift (interruptRecord now swept)
    b.write key updated current.1.revision current.1.status
    return report updated
  | _ => return none

def recoverRows (now : Timestamp) : List (String × ρ) → Op (Ledgers ρ) Err (List String)
  | [] => return []
  | (key, row) :: rest => do
    let touched ← b.recoverOne now key (b.payload row)
    let more ← recoverRows now rest
    return touched.toList ++ more

/-- `recover_interrupted`: the rows are read once, before the first is changed. -/
def recoverInterrupted (now : Timestamp) : Op (Ledgers ρ) Err (List String) := b.commit do
  let rows ← Op.gets (·.jobs.rows)
  b.recoverRows now rows

end Backend

/-! ### Requests -/

/-- A request to the job store, `publish` apart. -/
inductive JobCommand where
  | submit (record : ScoringJob)
  | claim (jobId : String) (now : Timestamp)
  | claimNext (now : Timestamp)
  | transition (r : TransitionRequest)
  | beginCall (r : BeginCallRequest)
  | settleCall (r : SettleCallRequest)
  | cancel (r : CancelRequest)
  | recoverInterrupted (now : Timestamp)

/-- What an operation returns. -/
inductive JobReply where
  | submitted (created : Bool) (job : ScoringJob)
  | claimed (job : Option ScoringJob)
  | updated (job : ScoringJob)
  | cancelled (reply : CancelReply)
  | recovered (jobIds : List String)

def Backend.serve {ρ : Type} (b : Backend ρ) : JobCommand → Op (Ledgers ρ) Err JobReply
  | .submit record => do
    let (created, job) ← b.submit record
    return .submitted created job.1
  | .claim jobId now => do return .claimed ((← b.claim jobId now).map (·.1))
  | .claimNext now => do return .claimed ((← b.claimNext now).map (·.1))
  | .transition r => do return .updated (← b.transition r).1
  | .beginCall r => do return .updated (← b.beginCall r).1
  | .settleCall r => do return .updated (← b.settleCall r).1
  | .cancel r => do return .cancelled (← b.cancel r)
  | .recoverInterrupted now => do return .recovered (← b.recoverInterrupted now)

end Motte.Storage
