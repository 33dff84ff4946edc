import Motte.Storage.Request

/-! The in-memory store.

Each operation holds the store's lock, so operations do not interleave, but there
is no rollback: what an operation assigned before it raised stays. Runs are kept
under the key they were first created with, and most writes assign to the id
inside the record. -/
namespace Motte.Storage.Memory
open Foundation

/-- The run repository. -/
structure RunLog where
  runs : Table String Run
  events : List StoredEvent

/-- The repositories of attempts and scoring passes, with that of the runs they belong to. -/
structure Audit extends RunLog where
  caseRuns : CaseRuns
  attempts : Table String Attempt
  passes : Table String PassRecord
  scoreSets : Table String (List Score)

structure Store extends Ledgers StoredJob, Audit

instance : EmptyCollection Store := ⟨{ toLedgers := ∅, toAudit := ⟨⟨∅, []⟩, ∅, ∅, ∅, ∅⟩ }⟩

abbrev RunHandler := Op RunLog Err

abbrev AuditHandler := Op Audit Err

abbrev Handler := Op Store Err

def onRuns {α : Type} (x : RunHandler α) : AuditHandler α :=
  Op.zoom (·.toRunLog) (fun s t => {s with toRunLog := t}) x

def onAudit {α : Type} (x : AuditHandler α) : Handler α :=
  Op.zoom (·.toAudit) (fun s t => {s with toAudit := t}) x

def onJobs {α : Type} (x : Op (Ledgers StoredJob) Err α) : Handler α :=
  Op.zoom (·.toLedgers) (fun s t => {s with toLedgers := t}) x

/-! ### Runs -/

/-- `get` of a run -/
def RunLog.run (s : RunLog) (runId : String) : Option Run := s.runs.get runId

def setRun (key : String) (stored : Run) (s : RunLog) : RunLog := {s with runs := s.runs.set key stored}

def record (runId : String) (pending : Option Event) (s : RunLog) : RunLog :=
  {s with events := appendBound s.events runId pending}

/-- `_publish`: the event, then the run under the id it carries. -/
def publishRun (stored : Run) (runId : String) (pending : Option Event) : RunHandler Run := do
  Op.modify (record runId pending)
  Op.modify (setRun stored.id stored)
  return stored

/-- `create` -/
def createRun (run : RunInput) (event : Option Event) : RunHandler Run := do
  let stored ← Op.lift (newRun run)
  let pending ← Op.lift (validateEvent event stored.id)
  let taken ← Op.gets (·.run stored.id)
  Op.lift (ensure (taken.isNone) (.runConflict ("run already exists: " ++ stored.id)))
  publishRun stored stored.id pending

/-- `update` -/
def updateRun (r : RunUpdateRequest) : RunHandler Run := do
  let pending ← Op.lift (validateEvent r.event r.run.id)
  match ← Op.gets (·.run r.run.id) with
  | none => Op.raise (.runConflict ("run revision changed: " ++ r.run.id))
  | some previous =>
    let stored ← Op.lift (Storage.updateRun r previous)
    publishRun stored r.run.id pending

/-- `transition` -/
def transitionRun (r : RunTransitionRequest) : RunHandler Run := do
  let pending ← Op.lift (validateEvent r.event r.runId)
  Op.lift (ensure (r.changes.names protectedRunMembers = false)
    (.value "transition changes cannot overwrite identity, revision or status"))
  match ← Op.gets (·.run r.runId) with
  | none => Op.raise (.runConflict ("run revision changed: " ++ r.runId))
  | some previous =>
    let stored ← Op.lift (Storage.transitionRun r previous)
    publishRun stored r.runId pending

/-- `claim` -/
def claimRun (runId : String) : RunHandler (Option Run) := do
  match ← Op.gets (·.run runId) with
  | none => return none
  | some previous =>
    let claimed ← Op.lift (Storage.claimRun runId previous)
    return some (← publishRun claimed runId (some (preparingEvent runId)))

/-- `claim_next_queued` -/
def claimNextQueued : RunHandler (Option Run) := do
  match ← Op.gets (fun s => s.runs.rows.find? (fun r => r.2.status = some "queued")) with
  | none => return none
  | some (runId, previous) =>
    let claimed ← Op.lift (Storage.claimRun runId previous)
    return some (← publishRun claimed runId (some (preparingEvent runId)))

def requeueRows : List (String × Run) → RunHandler (List String)
  | [] => return []
  | (runId, previous) :: rest =>
    if previous.interrupted then do
      let queued ← Op.lift (requeueRun previous)
      Op.modify (setRun runId queued)
      let more ← requeueRows rest
      return runId :: more
    else requeueRows rest

/-- `requeue_interrupted` -/
def requeueInterrupted : RunHandler (List String) := do
  let rows ← Op.gets (·.runs.rows)
  requeueRows rows

/-! ### Attempts -/

def Audit.attempt (s : Audit) (id : String) : Option Attempt := s.attempts.get id

def setAttempt (id : String) (a : Attempt) (s : Audit) : Audit := {s with attempts := s.attempts.set id a}

def readAttempt (id : String) : AuditHandler Attempt := do
  match ← Op.gets (·.attempt id) with
  | none => Op.raise (.runConflict ("attempt missing: " ++ id))
  | some current => return current

/-- `begin` -/
def beginAttempt (r : BeginAttemptRequest) : AuditHandler Attempt := do
  let stored ← Op.lift (newAttempt r.record)
  Op.lift (ensure (r.expectedRunRevision = none ↔ r.expectedRunStatus = none)
    (.value "provide both expected Run revision and status"))
  let run ← Op.gets (·.run stored.runId)
  Op.lift (ensure (r.expectedRunRevision ≠ none →
      run.map (·.revision) = r.expectedRunRevision ∧ run.bind (·.status) = r.expectedRunStatus)
    (.runConflict ("run revision or status changed: " ++ stored.runId)))
  let result ← Op.gets (·.caseRuns.get (stored.runId, stored.caseId))
  Op.lift (ensure (stored.trialId = "" → result = none)
    (.runConflict ("case result already exists: " ++ stored.caseId)))
  let rows ← Op.gets (·.attempts.rows)
  Op.lift (ensure (∀ row ∈ rows, ¬ (row.2.runId = stored.runId ∧ row.2.caseId = stored.caseId ∧
      row.2.trialId = stored.trialId ∧ row.2.status.isOpen))
    (.runConflict ("case already has an open attempt: " ++ stored.caseId)))
  Op.lift (ensure (∀ row ∈ rows, row.1 ≠ stored.id ∧ ¬ (row.2.runId = stored.runId ∧
      row.2.caseId = stored.caseId ∧ row.2.attemptNo = stored.attemptNo))
    (.runConflict "attempt id or attempt_no already exists"))
  Op.modify (setAttempt stored.id stored)
  return stored

/-- `dispatch` -/
def dispatch (r : DispatchRequest) : AuditHandler Attempt := do
  let unready : Err := .runConflict ("run is no longer dispatchable: " ++ r.runId)
  match ← Op.gets (·.run r.runId) with
  | none => Op.raise unready
  | some run =>
    Op.lift (ensure (run.revision = r.expectedRunRevision ∧ run.status = some r.expectedRunStatus ∧
      (run.fields.get "cancellation").truthy = false) unready)
    let current ← readAttempt r.attemptId
    Op.lift (ensure (current.runId = r.runId)
      (.runConflict ("attempt belongs to another run: " ++ r.attemptId)))
    let stored ← Op.lift (advanceRecord current r.expectedRevision .prepared .dispatching (dispatchChanges r))
    Op.modify (setAttempt r.attemptId stored)
    return stored

/-- `transition` -/
def transitionAttempt (r : AttemptTransitionRequest) : AuditHandler Attempt := do
  let current ← readAttempt r.attemptId
  let stored ← Op.lift (advanceRecord current r.expectedRevision r.expectedStatus r.status r.changes)
  Op.modify (setAttempt r.attemptId stored)
  return stored

/-- `complete` -/
def completeAttempt (r : CompleteRequest) : AuditHandler Attempt := do
  Op.lift (ensure (r.status = .succeeded ∨ r.status = .failed)
    (.value "attempt completion requires succeeded or failed"))
  let previous ← readAttempt r.attemptId
  let (pending, stored) ← Op.lift (Storage.completeAttempt r previous)
  let results ← Op.gets (·.caseRuns)
  Op.lift (checkCaseResult results r.caseRun)
  onRuns (Op.modify (record previous.runId pending))
  Op.modify (fun s => {s with caseRuns := match r.caseRun with
    | none => s.caseRuns
    | some row => s.caseRuns.upsert row})
  Op.modify (setAttempt r.attemptId stored)
  return stored

/-- The attempts among the given rows, those under way isolated. -/
def isolated : List (String × Attempt) → Except Err (List (String × Attempt))
  | [] => return []
  | (id, current) :: rest => do
    let stored ← if current.status = .dispatching then
        advanceRecord current current.revision .dispatching .indeterminate ∅
      else pure current
    let more ← isolated rest
    return (id, stored) :: more

def setAttempts (rows : List (String × Attempt)) (s : Audit) : Audit :=
  rows.foldl (fun s r => setAttempt r.1 r.2 s) s

/-- `mark_indeterminate` -/
def markIndeterminate (runId : String) : AuditHandler (List Attempt) := do
  let rows ← Op.gets (fun s => s.attempts.rows.filter
    (fun r => r.2.runId = runId ∧ r.2.status = .dispatching))
  let changed ← Op.lift (isolated rows)
  Op.modify (setAttempts changed)
  return changed.map (·.2)

/-- `quarantine_indeterminate`: the run's transition checks the changes. -/
def quarantine (r : QuarantineRequest) : AuditHandler (List Attempt) := do
  let pending ← Op.lift (validateEvent r.event r.runId)
  Op.lift (ensure (pending.isSome) (.value "quarantine requires an event"))
  match ← Op.gets (·.run r.runId) with
  | none => Op.raise (.runConflict ("run revision changed: " ++ r.runId))
  | some run =>
    Op.lift (ensure (run.revision = r.expectedRunRevision) (.runConflict ("run revision changed: " ++ r.runId)))
    Op.lift (ensure (run.status = some r.expectedRunStatus) (.runConflict ("run status changed: " ++ r.runId)))
    let rows ← Op.gets (fun s => s.attempts.rows.filter (fun a => a.2.runId = r.runId ∧
      (a.2.status = .dispatching ∨ a.2.status = .indeterminate)))
    let uncertain ← Op.lift (isolated rows)
    if uncertain.isEmpty then return []
    else do
      let _ ← onRuns (transitionRun {
        runId := r.runId
        expectedRevision := r.expectedRunRevision
        expectedStatus := r.expectedRunStatus
        status := "needs_review"
        changes := r.changes
        event := pending })
      Op.modify (setAttempts uncertain)
      return uncertain.map (·.2)

/-! ### Scoring passes -/

/-- Case rows are stored one by one; a conflict leaves those before it. -/
def insertCaseRows : List CaseRow → AuditHandler Unit
  | [] => return ()
  | row :: rest => do
    let result ← Op.gets (·.caseRuns.get (row.runId, row.caseId))
    Op.lift (ensure (result = none)
      (.runConflict ("case row appeared during terminalization: " ++ row.caseId)))
    Op.modify (fun s => {s with caseRuns := s.caseRuns.insert row})
    insertCaseRows rest

/-- The run is at the revision and in the status an append expects, if it expects any. -/
def checkScored (r : AppendRequest) (run : Option Run) : Except Err Unit :=
  let changed : Err := .runConflict "run revision or status changed during scoring"
  match r.expectedRunRevision with
  | none => return ()
  | some revision =>
    match run with
    | none => throw changed
    | some run => do
      ensure (run.revision = revision) changed
      match run.status with
      | none => throw (.key "status")
      | status => ensure (status = r.expectedRunStatus) changed

/-- The run an append stores, when it expects one. -/
def appendTarget (r : AppendRequest) (passId : String) (run : Option Run) : Except Err (Option Run) :=
  match r.expectedRunRevision, run with
  | some revision, some run => do
    let updated ← scoredRun r passId run revision
    return some updated
  | _, _ => return none

/-- The assignment of the run an append moves on, if there is one. -/
def storeScored (r : AppendRequest) : Option Run → RunHandler Unit
  | none => return ()
  | some run => Op.modify (setRun r.runId run)

/-- `append` -/
def append (r : AppendRequest) : AuditHandler PassRecord := do
  let prepared ← Op.lift (prepareAppend r)
  let existing ← Op.gets (·.passes.get prepared.stored.id)
  Op.lift (ensure existing.isNone (.runConflict ("scoring pass already exists: " ++ prepared.stored.id)))
  let current ← Op.gets (·.run r.runId)
  Op.lift (checkScored r current)
  let attempts ← Op.gets (·.attempts.rows)
  Op.lift (ensure (r.requireNoOpenAttempts → ∀ a ∈ attempts, ¬ (a.2.runId = r.runId ∧ a.2.status.isOpen))
    (.runConflict "run has an open case attempt"))
  let updated ← Op.lift (appendTarget r prepared.stored.id current)
  insertCaseRows r.caseRows
  Op.modify (fun s => {s with
    passes := s.passes.set prepared.stored.id prepared.stored
    scoreSets := s.scoreSets.set prepared.stored.id r.scores})
  onRuns (storeScored r updated)
  Op.modify (fun s => {s with events := appendAllBound s.events r.runId prepared.events})
  return prepared.stored

/-! ### Publication -/

/-- The scores of a publication, bound to its pass. Only an absent pass id is filled in. -/
def bindScores (passId : String) (scores : List Score) : Except Err (List Score) := do
  ensure (∀ s ∈ scores, s.scoringPassId = none ∨ s.scoringPassId = some (some passId))
    (.value "score belongs to a different scoring pass")
  return scores.map (bindScore passId)

/-- The subject run is checked and moved on at once. -/
def moveRun (r : PublishRequest) (current : StoredJob) : RunHandler Unit :=
  match current.1.ownerKind with
  | .calibration => return ()
  | .subject => do
    match ← Op.gets (·.run current.1.runId) with
    | none => Op.raise (.runConflict ("subject run is missing: " ++ current.1.runId))
    | some run =>
      Op.lift (checkRun r current.1.runId run.revision run.status)
      Op.modify (setRun current.1.runId (advancedRun r run run.revision))

def recordAll (events : List Event) : RunHandler Unit := fun s =>
  let (stored, result) := appendEvents s.events events
  (result, {s with events := stored})

theorem wp_recordAll {s : RunLog} {events : List Event} {ok : Unit → RunLog → Prop}
    {err : Err → RunLog → Prop} :
    Op.wp (recordAll events) s ok err ↔
      ((appendEvents s.events events).2 = .ok () → ok () {s with events := (appendEvents s.events events).1}) ∧
      ∀ e, (appendEvents s.events events).2 = .error e →
        err e {s with events := (appendEvents s.events events).1} := by
  unfold Op.wp recordAll
  rcases appendEvents s.events events with ⟨stored, e | u⟩ <;> simp

/-- What publication does once the job may be published. -/
def publishPass (r : PublishRequest) (scores : List Score) (current : StoredJob) : Handler PublishReply := do
  Op.lift (checkReserved r current)
  onAudit (onRuns (moveRun r current))
  let existing ← Op.gets (·.passes.get r.passRecord.id)
  Op.lift (ensure existing.isNone (.runConflict ("scoring pass already exists: " ++ r.passRecord.id)))
  Op.modify (fun s => {s with
    passes := s.passes.set r.passRecord.id r.passRecord
    scoreSets := s.scoreSets.set r.passRecord.id scores})
  let updated ← Op.lift (completedRecord r current)
  onJobs (memoryJobs.write r.jobId updated current.1.revision current.1.status)
  onAudit (onRuns (recordAll r.events))
  return { job := updated.1, receipt := updated.1.receipt, published := true, outcome := .published }

/-- `publish` -/
def publish (r : PublishRequest) : Handler PublishReply := do
  Op.lift (ensure (r.passRecord.id ≠ "") (.value "scoring pass requires a nonempty id"))
  let scores ← Op.lift (bindScores r.passRecord.id r.scores)
  Op.lift (checkPublishRequest r)
  let current ← onJobs (memoryJobs.require r.jobId)
  match current.1.status with
  | .completed =>
    return {
      job := current.1
      receipt := current.1.receipt
      published := false
      outcome := .alreadyCompleted }
  | .cancelled => return { job := current.1, published := false, outcome := .alreadyCancelled }
  -- a prepared job is not asked whether a call is still in flight
  | .settled | .prepared => publishPass r scores current
  | status => Op.raise (.scoringJob ("job cannot publish from status '" ++ status.name ++ "'"))

/-! ### Serving requests -/

def serveRun : RunCommand → RunHandler Reply
  | .create run event => do return .run (some (← createRun run event))
  | .update r => do return .run (some (← updateRun r))
  | .transition r => do return .run (some (← transitionRun r))
  | .claim runId => do return .run (← claimRun runId)
  | .claimNextQueued => do return .run (← claimNextQueued)
  | .requeueInterrupted => do return .requeued (← requeueInterrupted)

def serveAttempt : AttemptCommand → AuditHandler Reply
  | .begin r => do return .attempt (← beginAttempt r)
  | .dispatch r => do return .attempt (← dispatch r)
  | .transition r => do return .attempt (← transitionAttempt r)
  | .complete r => do return .attempt (← completeAttempt r)
  | .markIndeterminate runId => do return .attempts (← markIndeterminate runId)
  | .quarantine r => do return .attempts (← quarantine r)

def serve : Request → Handler Reply
  | .run c => onAudit (onRuns (serveRun c))
  | .attempt c => onAudit (serveAttempt c)
  | .append r => do return .appended (← onAudit (append r))
  | .job c => do return .job (← onJobs (memoryJobs.serve c))
  | .publish r => do return .published (← publish r)

def step (r : Request) (s : Store) : Store := (serve r s).2

end Motte.Storage.Memory
