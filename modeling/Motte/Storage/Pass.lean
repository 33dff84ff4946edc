import Motte.Storage.Attempt
import Motte.Storage.JobUpdates

/-! Scoring passes: score records, the append of a pass to a run, and the
publication of a scoring job as one.

Both operations move the run's current pass, store the scores and record events
in one step. The checks they make before touching a table are here; so is what
publication does to the job and to the run. -/
namespace Motte.Storage
open Foundation

/-! ### Scores -/

/-- A score. A case id or pass id may be absent (`none`) or null (`some none`). -/
structure Score where
  caseId : Option (Option String) := none
  scoringPassId : Option (Option String) := none
  trialId : Option String := none
  metricId : Option String := none
  evaluatorId : Option String := none
  evaluatorVersion : Option String := none
  value : Option Float := none
  fields : Fields := ∅

/-- The other members the `Score` contract knows. -/
def scoreMembers : List String :=
  ["evaluator", "passed", "outcome", "attempted", "responded", "judged", "scorer", "scorer_version",
    "error_class", "parsed", "details", "metric_status", "reason", "unit", "denominator"]

/-- The `Score` contract: a finite value and no unknown member. -/
def Score.matchesContract (s : Score) : Bool :=
  s.value.all Float.isFinite ∧ ∀ k ∈ s.fields.keys, k ∈ scoreMembers

/-- The text is present and not empty. -/
def given (text : Option String) : Bool := text ≠ none ∧ text ≠ some ""

def Score.caseText (s : Score) : String := (s.caseId.bind id).getD ""

/-- `score_identity` -/
def Score.identity (s : Score) : String × String × String × String × String :=
  (s.caseText, s.trialId.getD "", s.metricId.getD "", s.evaluatorId.getD "", s.evaluatorVersion.getD "")

def Score.hasMetricIdentity (s : Score) : Bool :=
  given s.trialId || given s.metricId || given s.evaluatorId || given s.evaluatorVersion

/-- `validate_scores` -/
def validateScores (scores : List Score) : Except Err Unit := do
  ensure (∀ s ∈ scores, s.caseText ≠ "") (.value "scores need distinct nonempty case_id values")
  ensure (∀ s ∈ scores, s.matchesContract = true) (.value "score does not match the public contract")
  let metric := scores.map Score.hasMetricIdentity
  ensure (metric.any id = true → metric.all id = true)
    (.value "scores cannot mix legacy and multi-metric rows")
  if metric.any id then do
    ensure (∀ s ∈ scores, given s.metricId ∧ given s.evaluatorId ∧ given s.evaluatorVersion)
      (.value "multi-metric scores require metric_id, evaluator_id and evaluator_version")
    ensure (scores.map Score.identity).Nodup
      (.value ("scores require a unique (case_id, trial_id, metric_id, evaluator_id, " ++
        "evaluator_version) key per score"))
  else ensure (scores.map Score.caseText).Nodup (.value "scores need distinct nonempty case_id values")

/-- A row of `score_sets`, by pass and composite key. -/
structure ScoreRow where
  passId : String
  key : String × String × String × String × String
  payload : Score

/-- The composite key an `INSERT` into `score_sets` needs. -/
def scoreKey (s : Score) : Except Err (String × String × String × String × String) :=
  match s.caseId with
  | none => throw (.key "case_id")
  | some none => throw (.integrity "NOT NULL constraint failed: score_sets.case_id")
  | some (some _) => return s.identity

/-- The `INSERT`s of a pass's scores, under the primary key of `score_sets`. -/
def insertScores (passId : String) (rows : List ScoreRow) : List Score → Except Err (List ScoreRow)
  | [] => return rows
  | s :: rest => do
    let key ← scoreKey s
    ensure (∀ row ∈ rows, ¬ (row.passId = passId ∧ row.key = key))
      (.integrity "UNIQUE constraint failed: score_sets")
    insertScores passId (rows ++ [⟨passId, key, s⟩]) rest

/-! ### Passes -/

/-- A stored pass. A pass that was appended carries its scores. -/
structure PassRecord where
  id : String
  runId : String
  scores : Option (List Score) := none
  fields : Fields := ∅

structure AppendRequest where
  id : Option String := none
  generatedId : String
  runId : String
  fields : Fields := ∅
  scores : List Score
  expectedRunRevision : Option Int := none
  expectedRunStatus : Option String := none
  event : Option Event := none
  finalStatus : Option String := none
  runChanges : Fields := ∅
  terminalEvent : Option Event := none
  scoreEvents : List Event := []
  requireNoOpenAttempts : Bool := false
  caseRows : List CaseRow := []

/-- What `append` has checked and bound before it opens a transaction. -/
structure PreparedAppend where
  stored : PassRecord
  /-- The pass's events in the order in which they are recorded. -/
  events : List (Option Event)

def Event.endsEarly (e : Event) : Bool :=
  e.fields.get "status" = .str "cancelled" || e.fields.get "status" = .str "unsupported"

/-- A terminal event that cancels or rejects comes before the score events, any other after. -/
def orderEvents (terminal : Option Event) (scores : List (Option Event)) (event : Option Event) :
    List (Option Event) :=
  if terminal.any Event.endsEarly then terminal :: (scores ++ [event]) else scores ++ [event, terminal]

/-- The checks of `append` that read no table. -/
def prepareAppend (r : AppendRequest) : Except Err PreparedAppend := do
  let id := r.id.getD r.generatedId
  ensure (id ≠ "") (.value "scoring pass needs a nonempty id")
  ensure (r.runId ≠ "") (.value "scoring pass needs a nonempty run_id")
  validateScores r.scores
  validateCaseRows r.runId r.caseRows []
  ensure (∀ s ∈ r.scores, s.scoringPassId.join = none ∨ s.scoringPassId.join = some id)
    (.value "score belongs to a different scoring pass")
  let pending ← validateEvent r.event r.runId
  let pendingScores ← r.scoreEvents.mapM (fun e => validateEvent (some e) r.runId)
  let pendingTerminal ← validateEvent r.terminalEvent r.runId
  ensure (r.expectedRunRevision = none ↔ r.expectedRunStatus = none)
    (.value "provide both expected_run_revision and expected_run_status")
  ensure (r.finalStatus ≠ none → r.expectedRunRevision ≠ none)
    (.value "final scoring status requires an expected Run revision and status")
  ensure (r.runChanges.names protectedRunMembers = false)
    (.value "scoring changes cannot overwrite run identity, revision or status")
  return {
    stored := ⟨id, r.runId, some r.scores, r.fields⟩
    events := orderEvents pendingTerminal pendingScores pending }

/-- A prepared append expects both a revision and a status of the run, or neither. -/
theorem prepareAppend_expected {r : AppendRequest} {prepared : PreparedAppend}
    (h : prepareAppend r = .ok prepared) : r.expectedRunRevision = none ↔ r.expectedRunStatus = none := by
  simp only [prepareAppend, except_bind_ok_iff, ensure_ok_iff, exists_const] at h
  obtain ⟨_, _, _, _, _, _, _, _, _, _, _, _, _, hexp, _⟩ := h
  exact hexp

/-- The case rows of a prepared append have distinct keys. -/
theorem prepareAppend_caseRows {r : AppendRequest} {prepared : PreparedAppend}
    (h : prepareAppend r = .ok prepared) : (r.caseRows.map (fun row => (row.runId, row.caseId))).Nodup := by
  simp only [prepareAppend, except_bind_ok_iff, ensure_ok_iff, exists_const] at h
  obtain ⟨_, _, _, _, _, hrows, _⟩ := h
  exact (validateCaseRows_ok hrows).2

/-- Record the bound events of a run in order. -/
def appendAllBound (events : List StoredEvent) (runId : String) (pending : List (Option Event)) :
    List StoredEvent := pending.foldl (fun events e => appendBound events runId e) events

/-- The run an append stores: the current pass moves, the status only if asked to. -/
def scoredRun (r : AppendRequest) (passId : String) (run : Run) (expectedRevision : Int) : Except Err Run :=
  nextRun {run.input with
    status := match r.finalStatus with
      | none | some "" => run.status
      | some status => some status
    fields := (run.fields.merge r.runChanges).insert "current_scoring_pass_id" (.str passId)} expectedRevision

/-! ### Publication -/

/-- The `run_advance` of a publication: new members of the run, its id, status and
schema version among them. -/
structure RunAdvance where
  id : Option String := none
  status : Option (Option String) := none
  schemaVersion : Option Int := none
  fields : Fields := ∅

structure PublishRequest where
  jobId : String
  expectedRevision : Int
  passRecord : PassRecord
  scores : List Score := []
  events : List Event := []
  runAdvance : RunAdvance := {}
  expectedRunRevision : Option Int := none
  expectedRunStatus : Option String := none
  receipt : Option Json := none
  result : Option Json := none
  now : Timestamp

inductive PublishOutcome where
  | alreadyCompleted | alreadyCancelled | published
deriving DecidableEq, Repr

structure PublishReply where
  job : ScoringJob
  receipt : Json := .null
  published : Bool
  outcome : PublishOutcome

/-- A score bound to the pass it is published in. -/
def bindScore (passId : String) (s : Score) : Score := {s with scoringPassId := some (some passId)}

/-- The run a publication stores, at the next revision. -/
def advancedRun (r : PublishRequest) (run : Run) (revision : Int) : Run where
  id := r.runAdvance.id.getD run.id
  status := r.runAdvance.status.getD run.status
  revision := revision + 1
  schemaVersion := r.runAdvance.schemaVersion.getD run.schemaVersion
  fields := (run.fields.merge r.runAdvance.fields).insert "current_scoring_pass_id" (.str r.passRecord.id)

/-- The job a publication stores. -/
def completedRecord (r : PublishRequest) (current : StoredJob) : Except Err StoredJob :=
  nextRevision {current.1 with
    status := .completed
    receipt := r.receipt.getD (.obj [("job_id", .str current.1.jobId), ("published_at", .str r.now),
      ("scoring_pass_id", .str r.passRecord.id)])
    result := r.result.getD current.1.result
    fields := current.1.fields.insert "completed_at" (.str r.now)} current.1.revision

/-- The checks on the pass record and the run expectation that need no table. -/
def checkPublishRequest (r : PublishRequest) : Except Err Unit :=
  ensure (r.expectedRunRevision = none ↔ r.expectedRunStatus = none)
    (.value "provide both expected run revision and status")

/-- The job is at the expected revision and the pass is the one reserved for it. -/
def checkReserved (r : PublishRequest) (current : StoredJob) : Except Err Unit := do
  checkJob current.1 r.expectedRevision none
  ensure (r.passRecord.id = current.1.reservedPassId)
    (.scoringJob "pass id differs from the reserved pass id")
  ensure (r.passRecord.runId = current.1.runId)
    (.scoringJob "pass run_id differs from the job owner reference")

/-- The run is at the revision and in the status that the publication expects. -/
def checkRun (r : PublishRequest) (runId : String) (revision : Int) (status : Option String) : Except Err Unit :=
  ensure (some revision = r.expectedRunRevision ∧ status = r.expectedRunStatus)
    (.runConflict ("run revision or status changed: " ++ runId))

theorem checkReserved_ok_iff {r : PublishRequest} {current : StoredJob} {u : Unit} :
    checkReserved r current = .ok u ↔ current.1.revision = r.expectedRevision ∧
      r.passRecord.id = current.1.reservedPassId ∧ r.passRecord.runId = current.1.runId := by
  simp only [checkReserved, except_bind_ok_iff, checkJob_ok_iff, ensure_ok_iff, exists_const]
  simp

/-- Completing a stored job never raises. -/
theorem completedRecord_ok (r : PublishRequest) (current : StoredJob) :
    ∃ u : StoredJob, completedRecord r current = .ok u ∧ u.1.status = .completed ∧
      u.1.calls = current.1.calls ∧ u.1.jobId = current.1.jobId ∧
      u.1.reservedPassId = current.1.reservedPassId := by
  obtain ⟨u, hu, he⟩ := nextRevision_of_stored current {current.1 with
    status := .completed
    receipt := r.receipt.getD (.obj [("job_id", .str current.1.jobId), ("published_at", .str r.now),
      ("scoring_pass_id", .str r.passRecord.id)])
    result := r.result.getD current.1.result
    fields := current.1.fields.insert "completed_at" (.str r.now)} rfl
  exact ⟨u, hu, by rw [he], by rw [he], by rw [he], by rw [he]⟩

end Motte.Storage
