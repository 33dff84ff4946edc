import Motte.Service.Execute

/-! The execution of a run as one external job.

The job entry is called once for all selected cases. What it returns is split into
trial records, case rows and rows set aside; the rows are stored, errors are
gathered from rows, trials, the import and the outcome itself, and decide the final
status. A run that somebody else finished in the meantime keeps its status, and
what the job returned is kept as evidence. -/
namespace Motte.Service
open Foundation Storage

/-- What `_finish_after_terminal_import` records. -/
def afterTerminalEvent (found : String) (imported : TrialImport) (invalid : List Json) (unmapped : List Unmapped)
    (scores : List Score) (error : Option Exn) : Fields :=
  let fields := (((((∅ : Fields).insert "run_status" (.str found)).insert "accepted"
    (.num imported.accepted.length)).insert "invalid" (.num invalid.length)).insert "unmapped"
    (.num unmapped.length)).insert "scores" (.num scores.length)
  match error with
  | none => fields
  | some e => fields.insert "scoring_error" (.str e.typeName)

/-- `_finish_after_terminal_import`: late evidence is scored, the status stays. -/
def finishAfterTerminalImport (runId : String) (imported : TrialImport) (invalid : List Json)
    (unmapped : List Unmapped) : Method View := do
  let run ← load runId
  let (scores, error) ← (do
    match ← Script.result (scoreResults runId []) with
    | .ok scores => return (scores, none)
    | .error e => return ([], some e))
  let found ← status run
  emitRunEvent runId "external_job_results_after_terminal"
    (afterTerminalEvent found imported invalid unmapped scores error)
  if scores.isEmpty then view runId
  else do
    Script.handle (appendScoringPass runId scores { source := "terminal-import" }) (fun e =>
      emitRunEvent runId "terminal_import_scoring_failed"
        (((∅ : Fields).insert "error_type" (.str e.typeName)).insert "message" (.str e.message)))
    view runId

/-- Bring the run to scoring; whether somebody else has finished it. -/
def reachScoring (runId : String) : Method Bool := do
  let run ← load runId
  let found ← status run
  if isTerminal found then return true
  else do
    let outcome ← Script.result (do
      let _ ← transition runId .collecting
      let _ ← transition runId .scoring
      return ())
    match outcome with
    | .ok () => return false
    | .error e =>
      if e.isConflict then do
        -- a cancellation won between the check and one of the transitions
        let current ← load runId
        let found ← status current
        if isTerminal found then return true else Script.raise e
      else Script.raise e

/-- Store the row of each selected case. -/
def upsertRows (rows : Table String CaseRow) : List String → Method Unit
  | [] => return ()
  | caseId :: rest => do
    match rows.get caseId with
    | none => Script.raise (.key caseId)
    | some row =>
      call (.upsert row)
      upsertRows rows rest

/-- The outcome's error, once the trial import has had its say. -/
def outcomeError (outcome : Json) (imported : TrialImport) : Json :=
  if imported.conflicts.isEmpty then outcome.get "error"
  else (outcome.get "error").or (errorObject "EXTERNAL_IMPORT_CONFLICT"
    "trial evidence conflicted with the stored trial; existing evidence is preserved")

/-- The job status that decides; a conflicting import is a failure. -/
def jobStatus (w : Writing) (outcome : Json) : String :=
  if ((outcome.get "import").get "conflicts").truthy then "failed"
  else w.text ((outcome.get "job_status").or (.str "indeterminate"))

/-- The error is an object that says something. -/
def reportsError (error : Json) : Bool := error.isObj && error.truthy

def responded (selected : List String) (rows : List CaseRow) : Nat :=
  (rows.filter (fun row => row.fields.get "outcome" = .str "responded" ∧ row.caseId ∈ selected)).length

/-- An error that lists what it is about, up to ten of them. -/
def listedError (code message key : String) (items : List Json) : Json :=
  (errorObject code message).put "details" (.obj [("count", .num items.length), (key, .arr (items.take 10))])

def Unmapped.document (row : Unmapped) : Json :=
  .obj [("case_id", row.caseId), ("error", row.error), ("stable_case_key", row.stableCaseKey)]

/-- All errors, in the order in which they are gathered. -/
def jobErrors (run : Run) (outcome : Json) (records : JobRecords) (imported : TrialImport) (rows : List CaseRow) :
    List Json :=
  rowErrors rows ++
  (records.trials.map (·.error)).filter reportsError ++
  (if imported.invalid.isEmpty then [] else [listedError "TRIAL_IMPORT_INVALID"
    ("trial payload identity did not match the frozen plan; " ++
      "the offending payload was rejected and kept out of storage") "rejected" imported.invalid]) ++
  [outcomeError outcome imported].filter reportsError ++
  (if records.unmapped.isEmpty then [] else [listedError "EXTERNAL_UNMAPPED_RESULTS"
    ("runner produced rows outside the frozen case mapping; " ++
      "they are quarantined and never attributed to other cases") "unmapped"
    (records.unmapped.map Unmapped.document)]) ++
  (if caseIds run ≠ [] ∧ responded (caseIds run) rows = 0 then [errorObject "EXTERNAL_EMPTY_RESULTS"
    ("external job returned no case results for a non-empty " ++
      "selection; run cannot be finalized as completed")] else []) ++
  (if imported.conflicts.isEmpty then [] else [errorObject "TRIAL_IMPORT_CONFLICT"
    "trial evidence conflicted with stored trial results"])

/-- The final status of a job. -/
def finalJobStatus (status : String) (errors : List Json) : RunState :=
  if status = "cancelled" then .cancelled
  else if status = "indeterminate" then .needsReview
  else if status = "settled" ∧ errors = [] then .completed
  else .failed

/-- What the outcome says about the job's metrics. -/
def jobMetrics (outcome : Json) : Json :=
  let imported := outcome.get "import"
  if imported.isObj then (imported.get "metrics").or (.obj []) else .obj []

/-- The event of the job's metrics. -/
def metricsEvent (outcome : Json) : Fields :=
  let imported := outcome.get "import"
  let metrics := jobMetrics outcome
  (((((∅ : Fields).insert "job_id" (imported.get "job_id")).insert "parser_version"
    (metrics.get "parser_version")).insert "native" (metrics.get "native")).insert "diagnostic"
    (metrics.get "diagnostic")).insert "evidence" (imported.get "evidence")

/-- The end of a job whose run is still its own. -/
def finishJob (w : Writing) (runId : String) (run : Run) (outcome : Json) (records : JobRecords)
    (imported : TrialImport) : Method View := do
  match ← honorCancellation runId with
  | some v => return v
  | none =>
    let rows ← caseRowsOf runId
    ensureThat (outcome.has "import" = true → (outcome.get "import").isObj = true)
      (.attribute "object has no attribute 'get'")
    let errors := jobErrors run outcome records imported rows
    let final := finalJobStatus (jobStatus w outcome) errors
    let _ : Unit ← call (.ensureDispositions run (if final = .cancelled then "cancelled" else "indeterminate"))
    Script.when ((jobMetrics outcome).truthy) (emitRunEvent runId "external_job_metrics" (metricsEvent outcome))
    finishScored runId rows { source := "initial", finalStatus := some final, finalError := errors.headD .null }

/-- The event of placeholders that gave way to evidence. -/
def replacedEvent (replaced : List Json) : Fields :=
  ((∅ : Fields).insert "count" (.num replaced.length)).insert "replaced" (.arr (replaced.take 20))

/-- What is done with the outcome of a job. -/
def settleJob (w : Writing) (runId : String) (run : Run) (outcome : Json) : Method View := do
  let alreadyTerminal ← reachScoring runId
  let records ← Script.lift (externalJobRecords w runId run outcome)
  let imported : TrialImport ← call (.importTrials run records.trials)
  let accepted := if imported.skipped then records.trials.map (·.trialId) else imported.accepted
  let _ : Unit ← call (.disposeRejected run records.trials accepted imported.invalid)
  let rows := if trialShaped run then
    taskCaseRows w runId (caseIds run) (records.trials.filter (fun r => r.trialId ∈ accepted)) else records.rows
  Script.when (alreadyTerminal = false) (upsertRows rows (caseIds run))
  Script.when (imported.replacedPlaceholders ≠ [])
    (emitRunEvent runId "trial_placeholders_replaced" (replacedEvent imported.replacedPlaceholders))
  if alreadyTerminal then finishAfterTerminalImport runId imported imported.invalid records.unmapped
  else finishJob w runId run outcome records imported

/-- `execute_external_job` -/
def executeExternalJob (w : Writing) (runId : String) (run : Run) : Method View := do
  ensureThat (run.id = runId) (.value "frozen trial plan Run identity does not match dispatch")
  let _ : Unit ← call (.ensurePlans run)
  let found ← status run
  startRunning runId found
  match ← Script.result (call (.jobEntry run)) with
  | .error e => failOrQuarantine runId e
  | .ok outcome =>
    if outcome.isObj then settleJob w runId run outcome
    else fail runId (.value "external job entry must return an outcome object")

end Motte.Service
