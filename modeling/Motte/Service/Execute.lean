import Motte.Service.Lifecycle

/-! The execution of a run case by case.

Each case is begun as an attempt, dispatched, invoked and completed. In a managed
benchmark a case that failed in a transient way waits for a second call at the
end, while any other error stops the run: the cases that follow are not attempted.
A case with a stored row is not executed again, so a run that was interrupted goes
on where it stopped. Progress reports are not modelled. -/
namespace Motte.Service
open Foundation Storage

/-! ### Attempts -/

/-- A request to the attempts whose reply is one attempt. -/
def attemptCommand (c : AttemptCommand) : Method Attempt := do
  match ← call (.store (.attempt c)) with
  | .attempt attempt => return attempt
  -- the repositories reply to these commands with the attempt
  | _ => Script.raise (.type "attempt expected")

/-- `_begin_case_attempt` -/
def beginCaseAttempt (run : Run) (caseId : String) : Method Attempt := do
  let attempts ← attemptsOfRun run.id
  let previous := attempts.filter (fun a => a.caseId = caseId)
  let now ← now
  let unique ← fresh
  let found ← status run
  let attempt ← attemptCommand (.begin {
    record := {
      generatedId := unique
      runId := run.id
      caseId := caseId
      attemptNo := some (previous.length + 1)
      fields := (((∅ : Fields).insert "execution_backend_id" (backendId run)).insert "idempotency_key"
        (.str (run.id ++ ":" ++ caseId ++ ":-:" ++ toString (previous.length + 1)))).insert "prepared_at" (.str now) }
    expectedRunRevision := some run.revision
    expectedRunStatus := some found })
  let dispatchedAt ← Motte.Service.now
  Script.handle (attemptCommand (.dispatch {
      attemptId := attempt.id
      expectedRevision := attempt.revision
      runId := run.id
      expectedRunRevision := run.revision
      expectedRunStatus := found
      now := dispatchedAt }))
    (fun e =>
      if e.isConflict then do
        match ← call (.getAttempt attempt.id) with
        | some current =>
          if current.status = .prepared then do
            let finishedAt ← Motte.Service.now
            change (.attempt (.transition {
              attemptId := attempt.id
              expectedRevision := current.revision
              expectedStatus := .prepared
              status := .failed
              changes := ((∅ : Fields).insert "finished_at" (.str finishedAt)).insert "error"
                (.obj [("code", .str "DISPATCH_ABORTED")]) }))
            Script.raise e
          else Script.raise e
        | none => Script.raise e
      else Script.raise e)

/-- `_complete_open_attempt` -/
def completeOpenAttempt (attempt : Attempt) (row : CaseRow) (failed emitEvent : Bool) : Method Unit := do
  let now ← now
  let result := row.fields.get "result"
  change (.attempt (.complete {
    attemptId := attempt.id
    expectedRevision := attempt.revision
    status := if failed then .failed else .succeeded
    changes := ((∅ : Fields).insert "finished_at" (.str now)).insert "result" result
    caseRun := some row
    event := if emitEvent then some ⟨some attempt.runId, if failed then "case_call_failed" else "model_response",
      ((∅ : Fields).insert "case_id" (.str attempt.caseId)).insert "result" result⟩ else none }))

/-! ### Results -/

/-- `{"class": ..., "message": ...}` under `error` -/
def errorResult (errorClass : Json) (message : String) : Json :=
  .obj [("error", .obj [("class", errorClass), ("message", .str message)])]

/-- `result.get("error")` if the result is an object -/
def errorOf (result : Json) : Json := result.get "error"

/-- `CONTINUE_ERROR_CLASSES` -/
def continueErrorClasses : List String := ["rate_limit", "server", "timeout", "network"]

/-- Whether the error is of a transient class. Only an object has a class, and a class
has to be hashable to be looked up. -/
def isTransient (error : Json) : Except Exn Bool :=
  if error.truthy then
    if error.isObj then
      match error.get "class" with
      | .str errorClass => return continueErrorClasses.contains errorClass
      | .arr _ | .obj _ => throw (.type "unhashable type")
      | _ => return false
    else throw (.attribute "object has no attribute 'get'")
  else return false

/-- The backend may not be called twice for one case. -/
def allowsSecondChance (run : Run) : Bool := backendId run ≠ .str "builtin-agent"

/-- The row of a case that was called. -/
def calledRow (runId caseId : String) (result : Json) : CaseRow :=
  ⟨runId, caseId, (∅ : Fields).insert "result" result⟩

def stopRow (runId caseId : String) (result : Json) (stop : Bool) : CaseRow :=
  ⟨runId, caseId, ((∅ : Fields).insert "result" result).insert "stop_run" (.bool stop)⟩

/-! ### Managed benchmarks -/

/-- Cases that failed in a transient way, with the attempt that is still open and the result. -/
abbrev Pending := Table String (Attempt × Json)

/-- `_settle_pending`: the first error of each waiting case becomes its result. -/
def settlePending (runId : String) : List (String × Attempt × Json) → Method Unit
  | [] => return ()
  | (caseId, attempt, result) :: rest => do
    completeOpenAttempt attempt (stopRow runId caseId result false) true false
    settlePending runId rest

/-- `_cancel_checkpoint`: what still waits, and the run if it was cancelled. -/
def cancelCheckpoint (runId : String) (pending : Pending) : Method (Pending × Option View) := do
  if pending.rows.isEmpty then do
    let cancelled ← honorCancellation runId
    return (pending, cancelled)
  else do
    let run ← load runId
    if cancellationRequested run then do
      let _ ← load runId
      settlePending runId pending.rows
      let cancelled ← honorCancellation runId
      return (∅, cancelled)
    else do
      let cancelled ← honorCancellation runId
      return (pending, cancelled)

/-- The result of a call that raised: the evidence it carries, or its class and message. -/
def failedResult (e : Exn) : Method Json :=
  if e.evidence.truthy then return e.evidence
  else do
    let errorClass : Json ← call (.classify e)
    return errorResult errorClass e.message

/-- How one part of the benchmark ends: the run was cancelled or failed, or it goes on. -/
inductive Progress (α : Type) where
  | ended (v : View)
  | goesOn (a : α)

/-- One case of the main loop that was begun. -/
def benchmarkCase (run : Run) (caseId : String) (attempt : Attempt) (pending : Pending) :
    Method (Progress (Bool × Pending)) := do
  match ← Script.result (call (.invoke caseId)) with
  | .error e =>
    if e.quarantine then do
      let v ← failOrQuarantine run.id e
      return .ended v
    else do
      let result ← failedResult e
      conclude result
  | .ok result => conclude result
where
  conclude (result : Json) : Method (Progress (Bool × Pending)) := do
    let error := errorOf result
    let transient ← Script.lift (isTransient error)
    if transient ∧ allowsSecondChance run then do
      call (.emit ⟨some run.id, "case_call_failed",
        ((∅ : Fields).insert "case_id" (.str caseId)).insert "result" result⟩)
      return .goesOn (false, pending.set caseId (attempt, result))
    else do
      completeOpenAttempt attempt (stopRow run.id caseId result error.truthy) error.truthy true
      return .goesOn (error.truthy, pending)

/-- The main loop over the selected cases; `done` have a row, `stop` says that an error stopped the run. -/
def benchmarkLoop (run : Run) (done : List String) :
    List String → Bool → Pending → Method (Progress Pending)
  | [], _, pending => return .goesOn pending
  | caseId :: rest, stop, pending =>
    if caseId ∈ done then benchmarkLoop run done rest stop pending
    else do
      match ← cancelCheckpoint run.id pending with
      | (_, some v) => return .ended v
      | (pending, none) =>
        if stop then do
          call (.upsert (notAttempted run.id caseId))
          benchmarkLoop run done rest stop pending
        else do
          let current ← load run.id
          match ← Script.result (beginCaseAttempt current caseId) with
          | .error e =>
            if e.isConflict then do
              match ← cancelCheckpoint run.id pending with
              | (_, some v) => return .ended v
              | (_, none) => Script.raise e
            else Script.raise e
          | .ok attempt =>
            match ← benchmarkCase run caseId attempt pending with
            | .ended v => return .ended v
            | .goesOn (stop, pending) => benchmarkLoop run done rest stop pending

/-- The loop of the sweep over the cases that waited when it began. -/
def sweepLoop (run : Run) : List String → Pending → Method (Option View)
  | [], _ => return none
  | caseId :: rest, pending =>
    match pending.get caseId with
    | none => sweepLoop run rest pending
    | some _ => do
      match ← cancelCheckpoint run.id pending with
      | (_, some v) => return some v
      | (pending, none) =>
        match pending.get caseId with
        -- the checkpoint has settled the case although the run had ended in another way
        | none => Script.raise (.key caseId)
        | some (attempt, first) => do
          let result ← secondResult caseId
          let error := errorOf result
          let result ← (if error.truthy then pure result
            else if result.isObj then pure (result.put "first_attempt_error" (errorOf first))
            else Script.raise (.type "object is not a mapping"))
          completeOpenAttempt attempt (stopRow run.id caseId result error.truthy) error.truthy (!error.truthy)
          sweepLoop run rest (pending.erase caseId)
where
  secondResult (caseId : String) : Method Json := do
    match ← Script.result (call (.invoke caseId)) with
    | .ok result => return result
    | .error e => failedResult e

/-- `_sweep_transient_failures`: each waiting case is called once more. -/
def sweepTransientFailures (run : Run) (pending : Pending) : Method (Option View) := do
  let _ ← load run.id
  sweepLoop run (pending.rows.map (·.1)) pending

/-- The errors the rows carry. -/
def rowErrors (rows : List CaseRow) : List Json :=
  (rows.map (fun row => errorOf (row.fields.get "result"))).filter Json.truthy

/-- Score the rows and finish the run, unless it was cancelled; a failure is the run's. -/
def finishScored (runId : String) (rows : List CaseRow) (args : PassArgs) : Method View := do
  let outcome ← Script.result (do
    let scores ← scoreResults runId rows
    match ← honorCancellation runId with
    | some v => return some v
    | none =>
      appendScoringPass runId scores args
      return none)
  match outcome with
  | .error e => failOrQuarantine runId e
  | .ok (some v) => return v
  | .ok none => view runId

/-- The states a run passes on its way to being scored. -/
def collectAndScore (runId : String) (next : Method View) : Method View := do
  let _ ← transition runId .collecting
  match ← honorCancellation runId with
  | some v => return v
  | none =>
    let _ ← transition runId .scoring
    match ← honorCancellation runId with
    | some v => return v
    | none => next

/-- A transition whose view is not looked at. -/
def move (runId : String) (next : RunState) : Method Unit := do
  let _ ← transition runId next
  return ()

/-- Bring a run that is executed to `running`. -/
def startRunning (runId : String) (found : String) : Method Unit := do
  Script.when (found = "queued") (move runId .preparing)
  let current ← load runId
  let found ← status current
  Script.when (found ≠ "running") (move runId .running)

/-- `_execute_benchmark` -/
def executeBenchmark (run : Run) : Method View := do
  let found ← status run
  startRunning run.id found
  let rows ← caseRowsOf run.id
  -- the mark of a stop is in the row of the case that failed, and so survives a crash
  let stop := rows.any (fun row => (row.fields.get "stop_run").truthy)
  match ← benchmarkLoop run (rows.map (·.caseId)) (caseIds run) stop ∅ with
  | .ended v => return v
  | .goesOn pending =>
    match ← cancelCheckpoint run.id pending with
    | (_, some v) => return v
    | (pending, none) =>
      match ← sweepTransientFailures run pending with
      | some v => return v
      | none => collectAndScore run.id (do
        let rows ← caseRowsOf run.id
        let errors := rowErrors rows
        finishScored run.id rows {
          source := "initial"
          finalStatus := some (withStopUncertainty run rows (if errors.isEmpty then .completed else .failed))
          finalError := errors.headD .null })

/-! ### Other runs -/

/-- The exception of a case's call: its result is stored, and unless the run was cancelled it fails. -/
def caseFailed (runId caseId : String) (attempt : Attempt) (e : Exn) : Method (Progress Unit) := do
  let errorClass : Json := if e.errorClass.truthy then e.errorClass else .str e.typeName
  let result := if e.evidence.truthy then e.evidence else errorResult errorClass e.message
  completeOpenAttempt attempt (calledRow runId caseId result) true true
  match ← honorCancellation runId with
  | some v => return .ended v
  | none => Script.raise e

/-- The loop over the cases of a run that is no managed benchmark. -/
def caseLoop (runId : String) (done : List String) : List String → Method (Progress Unit)
  | [] => return .goesOn ()
  | caseId :: rest =>
    if caseId ∈ done then caseLoop runId done rest
    else do
      match ← honorCancellation runId with
      | some v => return .ended v
      | none =>
        let current ← load runId
        match ← Script.result (beginCaseAttempt current caseId) with
        | .error e =>
          if e.isConflict then do
            match ← honorCancellation runId with
            | some v => return .ended v
            | none => Script.raise e
          else Script.raise e
        | .ok attempt =>
          match ← Script.result (call (.invoke caseId)) with
          | .error e => caseFailed runId caseId attempt e
          | .ok result => do
            let expected : Option Json ← call (.expectedFor caseId)
            let row := calledRow runId caseId result
            let row := match expected with
              | none => row
              | some expected => {row with fields := row.fields.insert "expected" expected}
            completeOpenAttempt attempt row false true
            caseLoop runId done rest

/-- The cases of a run that had none are set by its first execution. -/
def freezeCases (run : Run) (ids : List String) : Method Run := do
  if ids ≠ [] ∧ caseIds run = [] then do
    let now ← now
    let frozen : Run := {run with fields :=
      (run.fields.insert "case_ids" (.arr (ids.map Json.str))).insert "updated_at" (.str now)}
    change (.run (.update { run := frozen.input, expectedRevision := run.revision }))
    return frozen
  else return run

/-- Worker claims leave no event; the event of a claimed run is made up for here. -/
def ensurePreparing (runId : String) (found : String) : Method Unit :=
  if found = "queued" then move runId .preparing
  else Script.when (found = "preparing") (do
    let events : List StoredEvent ← call (.events runId)
    Script.when (∀ e ∈ events, e.type ≠ "preparing")
      (call (.emit ⟨some runId, "preparing", (∅ : Fields).insert "status" (.str "preparing")⟩)))

/-- `execute` of a run that is no managed benchmark -/
def executeCases (run : Run) (ids : List String) : Method View := do
  let run ← freezeCases run ids
  let found ← status run
  ensurePreparing run.id found
  let current ← load run.id
  let found ← status current
  Script.when (found ≠ "running") (move run.id .running)
  let rows ← caseRowsOf run.id
  match ← Script.result (caseLoop run.id (rows.map (·.caseId)) ids) with
  | .error e => failOrQuarantine run.id e
  | .ok (.ended v) => return v
  | .ok (.goesOn ()) =>
    match ← honorCancellation run.id with
    | some v => return v
    | none =>
      let results ← caseRowsOf run.id
      collectAndScore run.id (finishScored run.id results {
        source := "initial"
        finalStatus := some (withStopUncertainty run results .completed) })

/-- `execute` -/
def execute (runId : String) (requested : Option (List String) := none) : Method View := do
  let run ← load runId
  let found ← status run
  if found = "completed" then view runId
  else do
    ensureThat (isTerminal found = false) (.value "run is terminal")
    ensureThat (found = "queued" ∨ found = "preparing")
      (.conflict "run must be atomically claimed before execution")
    if hasProvenance run then do
      call (.validateSnapshot run)
      ensureThat (∀ ids ∈ requested, ids = caseIds run) (.value "benchmark selected case ids are immutable")
      executeBenchmark run
    else do
      ensureThat (∀ ids ∈ requested, caseIds run = [] ∨ ids = caseIds run) (.value "selected case ids are immutable")
      executeCases run (requested.getD (caseIds run))

end Motte.Service
