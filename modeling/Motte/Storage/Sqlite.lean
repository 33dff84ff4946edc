import Motte.Storage.Request

/-! The SQLite store.

Each operation runs in one `BEGIN IMMEDIATE` transaction: a raising operation
leaves the database as it found it (`atomically`). Rows of `runs` hold the payload
and a revision column of its own; rows of `case_attempts` repeat the members they
are searched by in columns. -/
namespace Motte.Storage.Sqlite
open Foundation

/-- A row of `runs`. -/
structure RunRow where
  payload : Run
  revision : Int

/-- The run a row stands for: the column decides the revision. -/
def RunRow.run (row : RunRow) : Run := storedRun row.payload row.revision

/-- A row of `case_attempts`. Every write sets the columns from the payload. -/
structure AttemptRow where
  status : AttemptStatus
  revision : Int
  trialId : String
  payload : Attempt
  indexed : status = payload.status ∧ revision = payload.revision ∧ trialId = payload.trialId

def AttemptRow.of (a : Attempt) : AttemptRow := ⟨a.status, a.revision, a.trialId, a, rfl, rfl, rfl⟩

/-- `_indexed_attempt`: a row is read only if payload and column agree on the trial. -/
def indexedAttempt (row : AttemptRow) : Except Err Attempt := do
  ensure (row.payload.trialId = row.trialId) (.runConflict
    ("attempt payload trial_id differs from the indexed trial_id: " ++ row.payload.trialId ++ " != " ++
      row.trialId))
  return row.payload

@[simp] theorem indexedAttempt_eq (row : AttemptRow) : indexedAttempt row = .ok row.payload := by
  simp [indexedAttempt, ensure, row.indexed.2.2, bind, Except.bind, pure, Except.pure]

/-- The tables of the run repository. -/
structure RunLog where
  runs : Table String RunRow
  events : List StoredEvent

/-- The tables of attempts and scoring passes, with those of the runs they belong to. -/
structure Audit extends RunLog where
  caseRuns : CaseRuns
  attempts : Table String AttemptRow
  passes : Table String PassRecord
  scoreSets : List ScoreRow

structure Database extends Ledgers JobRow, Audit

instance : EmptyCollection Database := ⟨{ toLedgers := ∅, toAudit := ⟨⟨∅, []⟩, ∅, ∅, ∅, []⟩ }⟩

abbrev RunHandler := Op RunLog Err

abbrev AuditHandler := Op Audit Err

abbrev Handler := Op Database Err

def onRuns {α : Type} (x : RunHandler α) : AuditHandler α :=
  Op.zoom (·.toRunLog) (fun s t => {s with toRunLog := t}) x

def onAudit {α : Type} (x : AuditHandler α) : Handler α :=
  Op.zoom (·.toAudit) (fun s t => {s with toAudit := t}) x

def onJobs {α : Type} (x : Op (Ledgers JobRow) Err α) : Handler α :=
  Op.zoom (·.toLedgers) (fun s t => {s with toLedgers := t}) x

/-! ### Runs -/

/-- `get` of a run -/
def RunLog.run (s : RunLog) (runId : String) : Option Run := (s.runs.get runId).map RunRow.run

def setRun (runId : String) (stored : Run) (s : RunLog) : RunLog :=
  {s with runs := s.runs.set runId ⟨stored, stored.revision⟩}

def record (runId : String) (pending : Option Event) (s : RunLog) : RunLog :=
  {s with events := appendBound s.events runId pending}

/-- `UPDATE runs ... WHERE id = ? AND revision = ?`, with the status compared where one is given. -/
def updateRow (runId : String) (stored : Run) (expectedRevision : Int) (expectedStatus : Option String)
    (changed : Err) : RunHandler Unit := do
  match ← Op.gets (·.runs.get runId) with
  | none => Op.raise changed
  | some row =>
    Op.lift (ensure (row.revision = expectedRevision ∧ ∀ s ∈ expectedStatus, row.payload.status = some s)
      changed)
    Op.modify (setRun runId stored)

theorem updateRow_of_match {s : RunLog} {runId : String} {row : RunRow} {stored : Run} {rev : Int}
    {st : Option String} {changed : Err} (hrow : s.runs.get runId = some row) (hrev : row.revision = rev)
    (hst : ∀ x ∈ st, row.payload.status = some x) :
    updateRow runId stored rev st changed s = (.ok (), setRun runId stored s) := by
  unfold updateRow
  rw [Op.bind_of_ok (Op.gets_apply _), hrow]
  show (Op.lift _ >>= fun _ => Op.modify (setRun runId stored)) s = _
  rw [Op.bind_of_ok (a := ()) (u := s)]
  · rfl
  · rw [Op.lift_apply, ensure, if_pos ⟨hrev, hst⟩]

theorem wp_updateRow {s : RunLog} {runId : String} {stored : Run} {rev : Int} {st : Option String}
    {changed : Err} {ok : Unit → RunLog → Prop} {err : Err → RunLog → Prop}
    (done : ∀ row, s.runs.get runId = some row → row.revision = rev → ok () (setRun runId stored s))
    (refused : err changed s) : Op.wp (updateRow runId stored rev st changed) s ok err := by
  simp only [updateRow, Op.wp_bind, Op.wp_gets]
  split
  · exact refused
  · rename_i row hrow
    simp only [Op.wp_bind, Op.wp_lift, Op.wp_modify, ensure_ok_iff, ensure_error_iff]
    exact ⟨fun _ h => done row hrow h.1, fun e h => h.2 ▸ refused⟩

/-- `create` -/
def createRun (run : RunInput) (event : Option Event) : RunHandler Run := do
  let stored ← Op.lift (newRun run)
  let pending ← Op.lift (validateEvent event stored.id)
  Op.atomically do
    let taken ← Op.gets (·.runs.get stored.id)
    Op.lift (ensure (taken.isNone) (.runConflict ("run already exists: " ++ stored.id)))
    Op.modify (setRun stored.id stored)
    Op.modify (record stored.id pending)
    return stored

/-- `update` -/
def updateRun (r : RunUpdateRequest) : RunHandler Run := do
  let pending ← Op.lift (validateEvent r.event r.run.id)
  Op.atomically do
    match ← Op.gets (·.run r.run.id) with
    | none => Op.raise (.runConflict ("run revision changed: " ++ r.run.id))
    | some previous =>
      let stored ← Op.lift (Storage.updateRun r previous)
      updateRow r.run.id stored r.expectedRevision none (.runConflict ("run revision changed: " ++ r.run.id))
      Op.modify (record r.run.id pending)
      return stored

/-- `transition` -/
def transitionRun (r : RunTransitionRequest) : RunHandler Run := do
  let pending ← Op.lift (validateEvent r.event r.runId)
  Op.lift (ensure (r.changes.names protectedRunMembers = false)
    (.value "transition changes cannot overwrite identity, revision or status"))
  Op.atomically do
    match ← Op.gets (·.run r.runId) with
    | none => Op.raise (.runConflict ("run revision changed: " ++ r.runId))
    | some previous =>
      let stored ← Op.lift (Storage.transitionRun r previous)
      updateRow r.runId stored r.expectedRevision (some r.expectedStatus)
        (.runConflict ("run revision or status changed: " ++ r.runId))
      Op.modify (record r.runId pending)
      return stored

/-- `claim` -/
def claimRun (runId : String) : RunHandler (Option Run) := Op.atomically do
  match ← Op.gets (·.run runId) with
  | none => return none
  | some previous =>
    let claimed ← Op.lift (Storage.claimRun runId previous)
    updateRow runId claimed previous.revision (some "queued") (.runConflict ("run is not queued: " ++ runId))
    Op.modify (record runId (some (preparingEvent runId)))
    return some claimed

/-- `claim_next_queued` -/
def claimNextQueued : RunHandler (Option Run) := Op.atomically do
  match ← Op.gets (fun s => s.runs.rows.find? (fun r => r.2.run.status = some "queued")) with
  | none => return none
  | some (runId, row) =>
    let claimed ← Op.lift (Storage.claimRun runId row.run)
    Op.modify (setRun runId claimed)
    Op.modify (record runId (some (preparingEvent runId)))
    return some claimed

def requeueRows : List (String × RunRow) → RunHandler (List String)
  | [] => return []
  | (runId, row) :: rest =>
    if row.run.interrupted then do
      let queued ← Op.lift (requeueRun row.run)
      Op.modify (setRun runId queued)
      let more ← requeueRows rest
      return runId :: more
    else requeueRows rest

/-- `requeue_interrupted` -/
def requeueInterrupted : RunHandler (List String) := Op.atomically do
  let rows ← Op.gets (·.runs.rows)
  requeueRows rows

/-! ### Attempts -/

def Audit.attempt (s : Audit) (id : String) : Option Attempt := (s.attempts.get id).map (·.payload)

def setAttempt (id : String) (a : Attempt) (s : Audit) : Audit :=
  {s with attempts := s.attempts.set id (.of a)}

/-- The row of an attempt, read with its trial checked. -/
def readAttempt (id : String) : AuditHandler Attempt := do
  match ← Op.gets (·.attempts.get id) with
  | none => Op.raise (.runConflict ("attempt missing: " ++ id))
  | some row => Op.lift (indexedAttempt row)

/-- `UPDATE case_attempts ... WHERE id = ? AND status = ? AND revision = ?` -/
def updateAttempt (id : String) (stored : Attempt) (expectedStatus : AttemptStatus)
    (expectedRevision : Int) : AuditHandler Unit := do
  let changed : Err := .runConflict ("attempt revision or status changed: " ++ id)
  match ← Op.gets (·.attempts.get id) with
  | none => Op.raise changed
  | some row =>
    Op.lift (ensure (row.status = expectedStatus ∧ row.revision = expectedRevision) changed)
    Op.modify (setAttempt id stored)

/-- `begin` -/
def beginAttempt (r : BeginAttemptRequest) : AuditHandler Attempt := do
  let stored ← Op.lift (newAttempt r.record)
  Op.atomically do
    Op.lift (ensure (r.expectedRunRevision = none ↔ r.expectedRunStatus = none)
      (.value "provide both expected Run revision and status"))
    let run ← Op.gets (·.runs.get stored.runId)
    Op.lift (ensure (r.expectedRunRevision ≠ none →
        run.map (·.revision) = r.expectedRunRevision ∧ run.bind (·.payload.status) = r.expectedRunStatus)
      (.runConflict ("run revision or status changed: " ++ stored.runId)))
    let result ← Op.gets (·.caseRuns.get (stored.runId, stored.caseId))
    Op.lift (ensure (stored.trialId = "" → result = none)
      (.runConflict ("case result already exists: " ++ stored.caseId)))
    let rows ← Op.gets (·.attempts.rows)
    Op.lift (ensure (∀ row ∈ rows, ¬ (row.2.payload.runId = stored.runId ∧
        row.2.payload.caseId = stored.caseId ∧ row.2.trialId = stored.trialId ∧ row.2.status.isOpen))
      (.runConflict ("case already has an open attempt: " ++ stored.caseId)))
    Op.lift (ensure (∀ row ∈ rows, row.1 ≠ stored.id ∧ ¬ (row.2.payload.runId = stored.runId ∧
        row.2.payload.caseId = stored.caseId ∧ row.2.payload.attemptNo = stored.attemptNo))
      (.runConflict "attempt id or attempt_no already exists"))
    Op.modify (setAttempt stored.id stored)
    return stored

/-- `dispatch` -/
def dispatch (r : DispatchRequest) : AuditHandler Attempt := Op.atomically do
  match ← Op.gets (·.run r.runId) with
  | none => Op.raise (.runConflict ("run revision or status changed: " ++ r.runId))
  | some run =>
    Op.lift (ensure (run.revision = r.expectedRunRevision)
      (.runConflict ("run revision or status changed: " ++ r.runId)))
    Op.lift (ensure (run.status = some r.expectedRunStatus ∧ (run.fields.get "cancellation").truthy = false)
      (.runConflict ("run is no longer dispatchable: " ++ r.runId)))
    let current ← readAttempt r.attemptId
    Op.lift (ensure (current.runId = r.runId)
      (.runConflict ("attempt belongs to another run: " ++ r.attemptId)))
    let stored ← Op.lift (advanceRecord current r.expectedRevision .prepared .dispatching (dispatchChanges r))
    updateAttempt r.attemptId stored .prepared r.expectedRevision
    return stored

/-- `transition` -/
def transitionAttempt (r : AttemptTransitionRequest) : AuditHandler Attempt := Op.atomically do
  let current ← readAttempt r.attemptId
  let stored ← Op.lift (advanceRecord current r.expectedRevision r.expectedStatus r.status r.changes)
  updateAttempt r.attemptId stored r.expectedStatus r.expectedRevision
  return stored

/-- `complete` -/
def completeAttempt (r : CompleteRequest) : AuditHandler Attempt := do
  Op.lift (ensure (r.status = .succeeded ∨ r.status = .failed)
    (.value "attempt completion requires succeeded or failed"))
  Op.atomically do
    let previous ← readAttempt r.attemptId
    let (pending, stored) ← Op.lift (Storage.completeAttempt r previous)
    let results ← Op.gets (·.caseRuns)
    Op.lift (checkCaseResult results r.caseRun)
    Op.modify (fun s => {s with caseRuns := match r.caseRun with
      | none => s.caseRuns
      | some row => s.caseRuns.upsert row})
    updateAttempt r.attemptId stored r.expectedStatus r.expectedRevision
    onRuns (Op.modify (record previous.runId pending))
    return stored

/-- Isolate the attempts of a run that are under way, over the rows a `SELECT`
gave; the attempts that were uncertain already are reported as well. -/
def isolateRows : List (String × AttemptRow) → AuditHandler (List Attempt)
  | [] => return []
  | (id, row) :: rest => do
    let current ← Op.lift (indexedAttempt row)
    if current.status = .dispatching then do
      let stored ← Op.lift (advanceRecord current current.revision .dispatching .indeterminate ∅)
      Op.modify (setAttempt id stored)
      let more ← isolateRows rest
      return stored :: more
    else do
      let more ← isolateRows rest
      return current :: more

/-- `mark_indeterminate` -/
def markIndeterminate (runId : String) : AuditHandler (List Attempt) := Op.atomically do
  let rows ← Op.gets (fun s => s.attempts.rows.filter
    (fun r => r.2.payload.runId = runId ∧ r.2.status = .dispatching))
  isolateRows rows

/-- `quarantine_indeterminate` -/
def quarantine (r : QuarantineRequest) : AuditHandler (List Attempt) := do
  let pending ← Op.lift (validateEvent r.event r.runId)
  Op.lift (ensure (pending.isSome) (.value "quarantine requires an event"))
  Op.lift (ensure (r.changes.names protectedRunMembers = false)
    (.value "quarantine changes cannot overwrite run identity, revision or status"))
  Op.atomically do
    match ← Op.gets (·.run r.runId) with
    | none => Op.raise (.runConflict ("run revision changed: " ++ r.runId))
    | some run =>
      Op.lift (ensure (run.revision = r.expectedRunRevision) (.runConflict ("run revision changed: " ++ r.runId)))
      Op.lift (ensure (run.status = some r.expectedRunStatus) (.runConflict ("run status changed: " ++ r.runId)))
      let rows ← Op.gets (fun s => s.attempts.rows.filter (fun a => a.2.payload.runId = r.runId ∧
        (a.2.status = .dispatching ∨ a.2.status = .indeterminate)))
      let uncertain ← isolateRows rows
      if uncertain.isEmpty then return []
      else do
        let updated ← Op.lift (nextRun {run.input with
          status := some "needs_review"
          fields := run.fields.merge r.changes} r.expectedRunRevision)
        onRuns (updateRow r.runId updated r.expectedRunRevision (some r.expectedRunStatus)
          (.runConflict ("run revision or status changed: " ++ r.runId)))
        onRuns (Op.modify (record r.runId pending))
        return uncertain

/-! ### Scoring passes -/

/-- `INSERT INTO scoring_passes` and the `INSERT`s into `score_sets` -/
def insertPass (stored : PassRecord) (scores : List Score) (taken : Err) : AuditHandler Unit := do
  let existing ← Op.gets (·.passes.get stored.id)
  Op.lift (ensure existing.isNone taken)
  let rows ← Op.gets (·.scoreSets)
  let rows' ← Op.lift (insertScores stored.id rows scores)
  Op.modify (fun s => {s with passes := s.passes.set stored.id stored, scoreSets := rows'})

def insertCaseRows : List CaseRow → AuditHandler Unit
  | [] => return ()
  | row :: rest => do
    let result ← Op.gets (·.caseRuns.get (row.runId, row.caseId))
    Op.lift (ensure (result = none)
      (.runConflict ("case row appeared during terminalization: " ++ row.caseId)))
    Op.modify (fun s => {s with caseRuns := s.caseRuns.insert row})
    insertCaseRows rest

/-- The run an append moves on, when it names the revision and status it expects. -/
def appendTarget (r : AppendRequest) (passId : String) : AuditHandler (Option Run) :=
  match r.expectedRunRevision, r.expectedRunStatus with
  | some revision, some status => do
    match ← Op.gets (·.run r.runId) with
    | none => Op.raise (.runConflict "run revision changed during scoring")
    | some run =>
      Op.lift (ensure (run.revision = revision) (.runConflict "run revision changed during scoring"))
      Op.lift (ensure (run.status = some status) (.runConflict "run status changed during scoring"))
      let attempts ← Op.gets (·.attempts.rows)
      Op.lift (ensure (r.requireNoOpenAttempts → ∀ a ∈ attempts,
          ¬ (a.2.payload.runId = r.runId ∧ a.2.status.isOpen))
        (.runConflict "run has an open case attempt"))
      let updated ← Op.lift (scoredRun r passId run revision)
      return some updated
  | _, _ => return none

/-- The `UPDATE` of the run an append moves on, if there is one. -/
def storeScored (r : AppendRequest) : Option Run → RunHandler Unit
  | none => return ()
  | some run => updateRow r.runId run (r.expectedRunRevision.getD 0) r.expectedRunStatus
      (.runConflict "run revision or status changed during scoring")

/-- `append`. Any constraint that an `INSERT` breaks is reported as a pass that exists. -/
def append (r : AppendRequest) : AuditHandler PassRecord := do
  let prepared ← Op.lift (prepareAppend r)
  let taken : Err := .runConflict ("scoring pass already exists: " ++ prepared.stored.id)
  Op.atomically do
    let updated ← appendTarget r prepared.stored.id
    insertCaseRows r.caseRows
    Op.mapErr (fun e => match e with
        | .integrity _ => taken
        | e => e)
      (insertPass prepared.stored r.scores taken)
    onRuns (storeScored r updated)
    Op.modify (fun s => {s with events := appendAllBound s.events r.runId prepared.events})
    return prepared.stored

/-! ### Publication -/

/-- The scores of a publication, bound to its pass. A null pass id counts as absent. -/
def bindScores (passId : String) (scores : List Score) : Except Err (List Score) := do
  ensure (∀ s ∈ scores, s.scoringPassId.join = none ∨ s.scoringPassId.join = some passId)
    (.value "score belongs to a different scoring pass")
  return scores.map (bindScore passId)

/-- The subject run as publication will store it. -/
def publishTarget (r : PublishRequest) (current : StoredJob) : RunHandler (Option Run) :=
  match current.1.ownerKind with
  | .calibration => return none
  | .subject => do
    match ← Op.gets (·.runs.get current.1.runId) with
    | none => Op.raise (.runConflict ("subject run is missing: " ++ current.1.runId))
    | some row =>
      Op.lift (checkRun r current.1.runId row.revision row.payload.status)
      return some (advancedRun r row.payload row.revision)

/-- The `UPDATE` of the subject run, if there is one. -/
def storeTarget (r : PublishRequest) (runId : String) : Option Run → RunHandler Unit
  | none => return ()
  | some run => updateRow runId run (r.expectedRunRevision.getD 0) r.expectedRunStatus
      (.runConflict ("run revision or status changed: " ++ runId))

def recordAll (events : List Event) : RunHandler Unit := fun s =>
  let (stored, result) := appendEvents s.events events
  (result, {s with events := stored})

theorem wp_recordAll {s : RunLog} {events : List Event} {ok : Unit → RunLog → Prop}
    {err : Err → RunLog → Prop} :
    Op.wp (recordAll events) s ok err ↔
      ((appendEvents s.events events).2 = .ok () → ok () {s with events := (appendEvents s.events events).1}) ∧
      ∀ e, (appendEvents s.events events).2 = .error e →
        err e {s with events := (appendEvents s.events events).1} := by
  unfold Op.wp recordAll
  rcases appendEvents s.events events with ⟨stored, e | u⟩ <;> simp

/-- What publication does once the job may be published. -/
def publishPass (r : PublishRequest) (scores : List Score) (current : StoredJob) : Handler PublishReply := do
  Op.lift (checkReserved r current)
  let updatedRun ← onAudit (onRuns (publishTarget r current))
  onAudit (insertPass r.passRecord scores (.integrity "UNIQUE constraint failed: scoring_passes.id"))
  onAudit (onRuns (storeTarget r current.1.runId updatedRun))
  let updated ← Op.lift (completedRecord r current)
  onJobs (sqliteJobs.write r.jobId updated current.1.revision current.1.status)
  onAudit (onRuns (recordAll r.events))
  return { job := updated.1, receipt := updated.1.receipt, published := true, outcome := .published }

/-- `publish` -/
def publish (r : PublishRequest) : Handler PublishReply := do
  Op.lift (ensure (r.passRecord.id ≠ "") (.value "scoring pass requires a nonempty id"))
  let scores ← Op.lift (bindScores r.passRecord.id r.scores)
  Op.lift (checkPublishRequest r)
  Op.atomically do
    let current ← onJobs (sqliteJobs.require r.jobId)
    match current.1.status with
    | .completed =>
      return {
        job := current.1
        receipt := current.1.receipt
        published := false
        outcome := .alreadyCompleted }
    | .cancelled => return { job := current.1, published := false, outcome := .alreadyCancelled }
    | .settled => publishPass r scores current
    | .prepared => do
      Op.lift (ensure (current.1.inFlight = false) (.scoringJob "job has an unsettled dispatching call"))
      publishPass r scores current
    | status => Op.raise (.scoringJob ("job cannot publish from status '" ++ status.name ++ "'"))

/-! ### Serving requests -/

def serveRun : RunCommand → RunHandler Reply
  | .create run event => do return .run (some (← createRun run event))
  | .update r => do return .run (some (← updateRun r))
  | .transition r => do return .run (some (← transitionRun r))
  | .claim runId => do return .run (← claimRun runId)
  | .claimNextQueued => do return .run (← claimNextQueued)
  | .requeueInterrupted => do return .requeued (← requeueInterrupted)

def serveAttempt : AttemptCommand → AuditHandler Reply
  | .begin r => do return .attempt (← beginAttempt r)
  | .dispatch r => do return .attempt (← dispatch r)
  | .transition r => do return .attempt (← transitionAttempt r)
  | .complete r => do return .attempt (← completeAttempt r)
  | .markIndeterminate runId => do return .attempts (← markIndeterminate runId)
  | .quarantine r => do return .attempts (← quarantine r)

def serve : Request → Handler Reply
  | .run c => onAudit (onRuns (serveRun c))
  | .attempt c => onAudit (serveAttempt c)
  | .append r => do return .appended (← onAudit (append r))
  | .job c => do return .job (← onJobs (sqliteJobs.serve c))
  | .publish r => do return .published (← publish r)

def step (r : Request) (s : Database) : Database := (serve r s).2

end Motte.Storage.Sqlite
