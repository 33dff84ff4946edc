import Motte.Service.Platform

/-! The methods that move a run through its states.

`transition` is the one place that consults the table of transitions. A run is
also finished by appending a scoring pass with a final status, and an uncertain run
by quarantining its attempts: both reload the run and compare-and-set on what they
have just loaded. Observers are not modelled, nor is the mirror of the scores; a
view of a run is the run and its case rows. -/
namespace Motte.Service
open Foundation Storage

/-! ### Calls -/

structure View where
  run : Run
  cases : List CaseRow

def call (q : Ask) : Method (Answer q) := Script.call q

def getRun (runId : String) : Method (Option Run) := call (.getRun runId)

def caseRowsOf (runId : String) : Method (List CaseRow) := call (.caseRows runId)

def attemptsOfRun (runId : String) : Method (List Attempt) := call (.attempts runId)

/-- `attempts.list_open` -/
def openAttempts (runId : String) : Method (List Attempt) := do
  let attempts ← attemptsOfRun runId
  return attempts.filter (fun a => a.status.isOpen)

def now : Method Timestamp := call .now

def fresh : Method String := call .fresh

/-- A change of the store whose reply is not looked at. -/
def change (r : Request) : Method Unit := do
  let _ : Reply ← call (.store r)
  return ()

def ensureThat (p : Prop) [Decidable p] (e : Exn) : Method Unit := Script.lift (ensure p e)

/-- `_load` -/
def load (runId : String) : Method Run := do
  match ← getRun runId with
  | none => Script.raise (.key runId)
  | some run => return run

/-- `_view` -/
def view (runId : String) : Method View := do
  let run ← load runId
  let cases ← caseRowsOf runId
  return ⟨run, cases⟩

/-- `run["status"]` -/
def statusOf (run : Run) : Except Exn String :=
  match run.status with
  | none => throw (.key "status")
  | some status => return status

def status (run : Run) : Method String := Script.lift (statusOf run)

/-- `emit_run_event`: a failure of the event log is swallowed. -/
def emitRunEvent (runId type : String) (payload : Fields) : Method Unit :=
  Script.handle (do let _ : Unit ← call (.emit ⟨some runId, type, payload⟩); return ()) (fun _ => return ())

/-! ### Checked transitions -/

/-- What a transition adds to the changes it is given. -/
def transitionPatch (run : Run) (status : RunState) (changes : Fields) (now : Timestamp) : Fields :=
  let patch := changes.insert "updated_at" (.str now)
  let patch := if status = .running ∧ (run.fields.get "started_at").truthy = false then
    patch.insert "started_at" (.str now) else patch
  if status.terminal then patch.insert "finished_at" (.str now) else patch

def statusEvent (runId : String) (status : RunState) (payload : Fields) : Event :=
  ⟨some runId, status.name, Fields.merge ((∅ : Fields).insert "status" (.str status.name)) payload⟩

/-- `_transition` -/
def transition (runId : String) (next : RunState) (changes : Fields := ∅) (eventPayload : Option Fields := none) :
    Method View := do
  let run ← load runId
  let previous ← status run
  ensureThat (next ∈ transitionsFrom previous)
    (.value ("invalid transition: " ++ previous ++ " -> " ++ next.name))
  let now ← now
  change (.run (.transition {
    runId := runId
    expectedRevision := run.revision
    expectedStatus := previous
    status := next.name
    changes := transitionPatch run next changes now
    event := some (statusEvent runId next (eventPayload.getD changes)) }))
  view runId

/-! ### Scoring -/

/-- `_comparable` -/
def comparable (result : Json) : Json := if result.has "content" then result.get "content" else result

/-- The score of a row that carries an expectation. -/
def rowScore (row : CaseRow) : Option Score :=
  match row.fields.lookup "expected" with
  | none => none
  | some expected => some {
      caseId := some (some row.caseId)
      fields := (∅ : Fields).insert "passed" (.bool ((comparable (row.fields.get "result")).equals expected)) }

/-- `_score_results` -/
def scoreResults (runId : String) (rows : List CaseRow) : Method (List Score) := do
  let run ← load runId
  if hasProvenance run then call (.managedScores run rows)
  else if scenarioShaped run then call (.scenarioScores run rows)
  else return rows.filterMap rowScore

/-- `stop_unconfirmed` -/
def stopUnconfirmed (result : Json) : Bool :=
  let scenario := result.get "scenario"
  scenario.get "needs_review" = .bool true ∨ scenario.get "status" = .str "needs_review" ∨
    (scenario.get "interrupt").get "confirmed" = .bool false

/-- `_with_stop_uncertainty` -/
def withStopUncertainty (run : Run) (rows : List CaseRow) (default : RunState) : RunState :=
  if scenarioShaped run ∧ ∃ row ∈ rows, stopUnconfirmed (row.fields.get "result") then .needsReview else default

/-- What the callers of `_append_scoring_pass` choose. -/
structure PassArgs where
  source : String
  finalStatus : Option RunState := none
  finalError : Json := .null
  finalChanges : Fields := ∅
  terminalEventPayload : Fields := ∅
  requireNoOpenAttempts : Bool := false
  allowAggregateFailure : Bool := false
  caseRows : List CaseRow := []

/-- The error with a detail added, or the given error when there is none. -/
def withDetail (error : Json) (key : String) (detail : Json) (code message : String) : Json :=
  if error.truthy then
    error.put "details" ((if (error.get "details").truthy then error.get "details" else .obj []).put key detail)
  else .obj [("code", .str code), ("details", detail), ("message", .str message)]

/-- The aggregate of a managed benchmark; the error the pass ends with. -/
def aggregateError (run : Run) (scores : List Score) (args : PassArgs) : Method Json :=
  if hasProvenance run then
    Script.handle (do let _ : Unit ← call (.aggregate run scores); return args.finalError) (fun e =>
      if args.allowAggregateFailure then
        return withDetail args.finalError "aggregate_error" (.obj [("error_type", .str e.typeName)])
          "AGGREGATE_UNAVAILABLE" "terminal run aggregate could not be computed"
      else Script.raise e)
  else return args.finalError

def withError (fields : Fields) (error : Json) : Fields :=
  if error = .null then fields else fields.insert "error" error

/-- The event of one score. -/
def scoreEvent (runId passId : String) (score : Score) : Event :=
  let fields := ((∅ : Fields).insert "scoring_pass_id" (.str passId)).insert "case_id" (.str score.caseText)
  let fields := match score.metricId with
    | some metricId => if metricId ≠ "" then fields.insert "metric_id" (.str metricId) else fields
    | none => fields
  let fields := match score.fields.lookup "passed" with
    | some passed => fields.insert "passed" passed
    | none => fields
  ⟨some runId, "score", fields⟩

/-- What `_append_scoring_pass` asks of the store. -/
def passRequest (runId : String) (run : Run) (found : String) (scores : List Score) (args : PassArgs)
    (finalError : Json) (passId : String) (fields : Fields) (now : Timestamp) : AppendRequest where
  id := some passId
  generatedId := passId
  runId := runId
  fields := fields
  scores := scores
  expectedRunRevision := some run.revision
  expectedRunStatus := some found
  event := some ⟨some runId, "scoring_pass_created", ((∅ : Fields).insert "scoring_pass_id" (.str passId)).insert
    "source" (.str args.source)⟩
  scoreEvents := if args.source = "terminal-unattempted" then [] else scores.map (scoreEvent runId passId)
  finalStatus := args.finalStatus.map RunState.name
  runChanges :=
    let changes := (∅ : Fields).insert "updated_at" (.str now)
    let changes := if args.finalStatus.any RunState.terminal then changes.insert "finished_at" (.str now) else changes
    withError (Fields.merge changes args.finalChanges) finalError
  terminalEvent := args.finalStatus.map (fun status =>
    statusEvent runId status (withError args.terminalEventPayload finalError))
  requireNoOpenAttempts := args.requireNoOpenAttempts
  caseRows := args.caseRows

/-- The cases that scores may name: the selected ones, or those with a row when none is selected. -/
def scorableCases (runId : String) (run : Run) : Method (List String) :=
  if caseIds run = [] then do
    let rows ← caseRowsOf runId
    return rows.map (·.caseId)
  else return caseIds run

/-- `_append_scoring_pass` -/
def appendScoringPass (runId : String) (scores : List Score) (args : PassArgs) : Method Unit := do
  let run ← load runId
  Script.lift ((validateScores scores).mapError .store)
  let selected ← scorableCases runId run
  ensureThat (∀ s ∈ scores, s.caseText ≠ "") (.value "scores require nonempty string case IDs")
  let unexpected := ((scores.map Score.caseText).filter (fun caseId => caseId ∉ selected)).dedup
  ensureThat (unexpected = []) (.value ("scores contain case IDs outside the run selection: " ++
    ", ".intercalate (unexpected.mergeSort (fun a b => a ≤ b))))
  ensureThat (∀ s ∈ scores, s.scoringPassId.join = none)
    (.value "scoring_pass_id is assigned by the scoring pass, not by plugins")
  let fields : Fields ← call (.describePass run scores)
  let finalError ← aggregateError run scores args
  let unique ← fresh
  let now ← now
  let found ← status run
  change (.append (passRequest runId run found scores args finalError ("pass-" ++ unique) fields now))

/-! ### Finishing what was not attempted -/

/-- A score that says only that there is none. -/
def unavailableScore (caseId : String) (details : Json) : Score where
  caseId := some (some caseId)
  fields := ((∅ : Fields).insert "passed" .null).insert "details" details

/-- The first row of each case. -/
def firstCases : List CaseRow → List String → List String
  | [], _ => []
  | row :: rest, seen =>
    if row.caseId ≠ "" ∧ row.caseId ∉ seen then row.caseId :: firstCases rest (row.caseId :: seen)
    else firstCases rest seen

/-- `_finish_unattempted` -/
def finishUnattempted (runId : String) (finalStatus : RunState) (finalError : Json := .null)
    (finalChanges terminalEventPayload : Fields := ∅) : Method Unit := do
  let run ← load runId
  let existing ← caseRowsOf runId
  let attempts ← openAttempts runId
  let synthetic := ((caseIds run).filter (fun caseId =>
    caseId ∉ existing.map (·.caseId) ∧ caseId ∉ attempts.map (·.caseId))).map (notAttempted runId)
  let _ : Unit ← call (.ensureDispositions run (
    if finalStatus = .cancelled then "cancelled"
    else if (run.fields.get "started_at").truthy then "indeterminate" else "not_attempted"))
  let rows := existing ++ synthetic
  let unavailable := "terminal run could not be fully scored"
  let (scores, effectiveError) ← (do
    match ← Script.result (scoreResults runId rows) with
    | .ok scores => return (scores, finalError)
    | .error e => return (
      rows.map (fun row => unavailableScore row.caseId
        (.obj [("code", .str "SCORING_UNAVAILABLE"), ("error", .str e.message)])),
      withDetail finalError "scoring_error" (.obj [("error_type", .str e.typeName)]) "SCORING_UNAVAILABLE"
        unavailable))
  let args : PassArgs := {
    source := "terminal-unattempted"
    finalStatus := some finalStatus
    finalError := effectiveError
    finalChanges := finalChanges
    terminalEventPayload := terminalEventPayload
    requireNoOpenAttempts := true
    allowAggregateFailure := true
    caseRows := synthetic }
  Script.handle (appendScoringPass runId scores args) (fun e =>
    if e.isConflict then Script.raise e
    else
      let fallback := (firstCases rows []).map (fun caseId =>
        unavailableScore caseId (.obj [("code", .str "SCORING_UNAVAILABLE")]))
      let finalError := withDetail effectiveError "scoring_error" (.obj [("error_type", .str e.typeName)])
        "SCORING_UNAVAILABLE" unavailable
      appendScoringPass runId fallback {args with finalError := finalError})

/-! ### Failure -/

/-- What a run keeps of the exception that failed it. -/
def errorPayload (e : Exn) : Json :=
  let payload : Json := .obj [("message", .str e.message), ("type", .str e.typeName)]
  let payload := if e.errorClass = .null then payload else payload.put "class" e.errorClass
  if e.evidence = .null then payload else payload.put "evidence" e.evidence

/-- `_fail` -/
def fail (runId : String) (e : Exn) : Method View := do
  let run ← load runId
  let found ← status run
  if isTerminal found then view runId
  else if trialShaped run then do
    finishUnattempted runId .failed (errorPayload e)
    view runId
  else transition runId .failed ((∅ : Fields).insert "error" (errorPayload e))

/-- The quarantine of a run with uncertain attempts. -/
def quarantineRequest (runId : String) (run : Run) (found : String) (uncertain : List Attempt) (e : Exn)
    (now : Timestamp) : QuarantineRequest where
  runId := runId
  expectedRunRevision := run.revision
  expectedRunStatus := found
  changes := (((∅ : Fields).insert "updated_at" (.str now)).insert "finished_at" (.str now)).insert "error" (.obj [
    ("code", .str "CALL_OUTCOME_INDETERMINATE"),
    ("details", .obj [("attempt_ids", .arr (uncertain.map (fun a => .str a.id))),
      ("persistence_error", .str (e.typeName ++ ": " ++ e.message))]),
    ("message", .str "the provider returned but durable case completion failed")])
  event := some ⟨some runId, "needs_review", ((∅ : Fields).insert "status" (.str "needs_review")).insert "attempt_ids"
    (.arr (uncertain.map (fun a => .str a.id)))⟩

/-- `_fail_or_quarantine` -/
def failOrQuarantine (runId : String) (e : Exn) : Method View := do
  let attempts ← attemptsOfRun runId
  let uncertain := attempts.filter (fun a => a.status = .dispatching ∨ a.status = .indeterminate)
  if uncertain.isEmpty then fail runId e
  else do
    let run ← load runId
    let now ← now
    let found ← status run
    change (.attempt (.quarantine (quarantineRequest runId run found uncertain e now)))
    view runId

/-! ### Cancellation -/

/-- The durable request that a run be cancelled. -/
def cancellationRequest (runId : String) (run : Run) (found : String) (cancellation reason : Json)
    (now : Timestamp) : RunUpdateRequest where
  run := {run.input with
    fields := (run.fields.insert "cancellation" (cancellation.put "requested_at" (.str now))).insert
      "updated_at" (.str now)}
  expectedRevision := run.revision
  expectedStatus := some found
  event := some ⟨some runId, "cancellation_requested",
    (if reason = .null then (∅ : Fields) else (∅ : Fields).insert "reason" reason).insert "status" (.str found)⟩

def requestCancellation (runId : String) (run : Run) (found : String) (cancellation reason : Json)
    (now : Timestamp) : Method Unit :=
  change (.run (.update (cancellationRequest runId run found cancellation reason now)))

/-- What the reason of a cancellation adds to an event. -/
def reasonPayload (reason : Json) : Fields := if reason = .null then ∅ else (∅ : Fields).insert "reason" reason

/-- Cancel a run that is not waiting for anything. -/
def finishCancelled (runId : String) (run : Run) (cancellation reason : Json) : Method View := do
  let changes : Fields := if cancellation.truthy then (∅ : Fields).insert "cancellation" cancellation else ∅
  if hasProvenance run then do
    Script.handle (finishUnattempted runId .cancelled .null changes (reasonPayload reason)) (fun e =>
      if e.isConflict then do
        -- somebody began an attempt in the meantime: the request stays for the executor to honour
        let current ← load runId
        let found ← status current
        if isTerminal found then return ()
        else do
          let now ← now
          requestCancellation runId current found cancellation .null now
      else Script.raise e)
    view runId
  else do
    let _ ← transition runId .cancelled changes (some (reasonPayload reason))
    view runId

/-- `cancel`; `settle` is set when the executor honours a request. -/
def cancel (runId : String) (reason : Json := .null) (settle : Bool := false) : Method View := do
  let run ← load runId
  let found ← status run
  if isTerminal found then view runId
  else do
    let cancellation : Json := if reason = .null then .obj [] else .obj [("reason", reason)]
    let waiting ← openAttempts runId
    let interrupter : Bool ← call (.hasInterrupter runId)
    let deferrable : Bool := !waiting.isEmpty ||
      (!settle && (found = "running" || found = "collecting" || found = "scoring"))
    if deferrable ∧ interrupter = false then do
      let now ← now
      requestCancellation runId run found cancellation reason now
      view runId
    else if interrupter then do
      let now ← now
      requestCancellation runId run found cancellation reason now
      Script.handle (call (.interrupt runId)) (fun e =>
        emitRunEvent runId "external_job_interrupt_failed"
          (((∅ : Fields).insert "error_class" (.str e.typeName)).insert "message" (.str e.message)))
      let refreshed ← load runId
      let found ← status refreshed
      if isTerminal found then view runId
      else finishCancelled runId refreshed (cancellation.put "requested_at" (.str now)) reason
    else finishCancelled runId run cancellation reason

/-- `_honor_cancellation` -/
def honorCancellation (runId : String) : Method (Option View) := do
  let run ← load runId
  let found ← status run
  if isTerminal found ∨ cancellationRequested run = false then
    if found = "cancelled" then do
      let v ← view runId
      return some v
    else return none
  else do
    let v ← cancel runId ((run.fields.get "cancellation").get "reason") true
    return some v

/-! ### Rescoring and refusal -/

/-- `rescore` -/
def rescore (runId : String) : Method View := do
  let run ← load runId
  ensureThat (((manifest run).get "import_source").get "kind" ≠ .str "inspect")
    (.value "Inspect imports are read-only; no observation evaluator is configured")
  call (.validateSnapshot run)
  let found ← status run
  ensureThat (found = "completed" ∨ (hasProvenance run ∧ isTerminal found))
    (.value "only completed runs or terminal benchmarks can be rescored")
  let rows ← caseRowsOf runId
  let scores ← scoreResults runId rows
  appendScoringPass runId scores { source := "rescore" }
  call (.emit ⟨some runId, "rescored", (∅ : Fields).insert "status" (.str found)⟩)
  view runId

/-- `mark_unsupported` -/
def markUnsupported (runId code : String) (message : Option String := none) : Method View := do
  let run ← load runId
  let found ← status run
  if isTerminal found then view runId
  else do
    let error : Json := match message with
      | none => .obj [("code", .str code)]
      | some message => .obj [("code", .str code), ("message", .str message)]
    if hasProvenance run then do
      finishUnattempted runId .unsupported error
      view runId
    else do
      let _ ← transition runId .unsupported ((∅ : Fields).insert "error" error)
      view runId

/-- `mark_profile_stale` -/
def markProfileStale (runId : String) (reason : Option String := none) : Method View := do
  let run ← load runId
  let found ← status run
  if isTerminal found then view runId
  else do
    ensureThat (found = "queued") (.value "profile staleness is detected before execution")
    let error : Json := match reason with
      | none => .obj [("code", .str "PROFILE_STALE")]
      | some reason => .obj [("code", .str "PROFILE_STALE"), ("message", .str reason)]
    if trialShaped run then do
      finishUnattempted runId .profileStale error
      view runId
    else transition runId .profileStale ((∅ : Fields).insert "error" error)

end Motte.Service
