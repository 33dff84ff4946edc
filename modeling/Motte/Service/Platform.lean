import Motte.Foundation.Script
import Motte.Service.JobRecords
import Motte.Storage.Memory
import Motte.Storage.Sqlite

/-! The calls the run service makes, and who answers them.

A method of the service is a script over `Ask`: calls of the repositories, which
either store answers, and calls of code that is not modelled here (backends,
scoring and aggregation plugins, the trial store, the clock), which answer or raise
as they please. Each call of a repository is atomic, so a run of several methods
is a run of their scripts interleaved at these calls. -/
namespace Motte.Service
open Foundation Storage

/-- What the trial importer reports. -/
structure TrialImport where
  skipped : Bool := false
  accepted : List String := []
  invalid : List Json := []
  conflicts : List Json := []
  replacedPlaceholders : List Json := []

/-- The calls of a method. -/
inductive Ask where
  /-- a request that changes the store -/
  | store (r : Request)
  /-- `runs.get` -/
  | getRun (runId : String)
  /-- `case_runs.list_for_run` -/
  | caseRows (runId : String)
  /-- `attempts.list_for_run` -/
  | attempts (runId : String)
  /-- `attempts.get` -/
  | getAttempt (attemptId : String)
  /-- `events.list_for_run` -/
  | events (runId : String)
  /-- `case_runs.upsert` -/
  | upsert (row : CaseRow)
  /-- `events.append` -/
  | emit (event : Event)
  /-- `datetime.now` -/
  | now
  /-- `uuid4` -/
  | fresh
  /-- the execution backend's `invoke` -/
  | invoke (caseId : String)
  /-- `classify_exception` -/
  | classify (error : Exn)
  /-- `_expected_for` -/
  | expectedFor (caseId : String)
  /-- the `job_entry` of an external job -/
  | jobEntry (run : Run)
  /-- whether this process has an interrupter for the run -/
  | hasInterrupter (runId : String)
  /-- the interrupter of a running external job -/
  | interrupt (runId : String)
  /-- `_validate_frozen_benchmark_snapshot` -/
  | validateSnapshot (run : Run)
  /-- `managed_scores` -/
  | managedScores (run : Run) (rows : List CaseRow)
  /-- `scenario_scores` -/
  | scenarioScores (run : Run) (rows : List CaseRow)
  /-- `aggregate_with_plugin`, and the checks on what it returns -/
  | aggregate (run : Run) (scores : List Score)
  /-- the members of a scoring pass that say who scored what and when -/
  | describePass (run : Run) (scores : List Score)
  /-- `_ensure_trial_plans` -/
  | ensurePlans (run : Run)
  /-- `_import_trials` -/
  | importTrials (run : Run) (records : List TrialRecord)
  /-- `_dispose_rejected_trials` -/
  | disposeRejected (run : Run) (records : List TrialRecord) (accepted : List String) (invalid : List Json)
  /-- `_ensure_trial_dispositions` -/
  | ensureDispositions (run : Run) (disposition : String)

def Answer : Ask → Type
  | .store _ => Reply
  | .getRun _ => Option Run
  | .caseRows _ => List CaseRow
  | .attempts _ => List Attempt
  | .getAttempt _ => Option Attempt
  | .events _ => List StoredEvent
  | .upsert _ => Unit
  | .emit _ => Unit
  | .now => Timestamp
  | .fresh => String
  | .invoke _ => Json
  | .classify _ => Json
  | .expectedFor _ => Option Json
  | .jobEntry _ => Json
  | .hasInterrupter _ => Bool
  | .interrupt _ => Unit
  | .validateSnapshot _ => Unit
  | .managedScores _ _ => List Score
  | .scenarioScores _ _ => List Score
  | .aggregate _ _ => Unit
  | .describePass _ _ => Fields
  | .ensurePlans _ => Unit
  | .importTrials _ _ => TrialImport
  | .disposeRejected _ _ _ _ => Unit
  | .ensureDispositions _ _ => Unit

/-- A method of the service. -/
abbrev Method := Script Ask Answer Exn

/-! ### Stores -/

/-- The repositories of one store. -/
structure Platform (σ : Type) where
  serve : Request → Op σ Err Reply
  runAt : σ → String → Option Run
  caseRuns : σ → CaseRuns
  setCaseRuns : CaseRuns → σ → σ
  attempts : σ → Table String Attempt
  events : σ → List StoredEvent
  setEvents : List StoredEvent → σ → σ

def memory : Platform Memory.Store where
  serve := Memory.serve
  runAt s := s.run
  caseRuns s := s.caseRuns
  setCaseRuns rows s := {s with caseRuns := rows}
  attempts s := s.attempts
  events s := s.events
  setEvents events s := {s with events := events}

def sqlite : Platform Sqlite.Database where
  serve := Sqlite.serve
  runAt s := s.run
  caseRuns s := s.caseRuns
  setCaseRuns rows s := {s with caseRuns := rows}
  attempts s := s.attempts.map (·.payload)
  events s := s.events
  setEvents events s := {s with events := events}

/-- The rows of one run. They are kept in the order of their ordinals. -/
def rowsOf (rows : CaseRuns) (runId : String) : List CaseRow :=
  (rows.rows.filter (fun row => row.1.1 = runId)).map (·.2.2)

def attemptsOf (attempts : Table String Attempt) (runId : String) : List Attempt :=
  (attempts.rows.map (·.2)).filter (fun a => a.runId = runId)

def eventsOf (events : List StoredEvent) (runId : String) : List StoredEvent :=
  events.filter (fun e => e.runId = runId)

/-! ### Answers -/

/-- What code outside the model answers, or raises. -/
structure Oracle where
  now : Except Exn Timestamp := .ok ""
  fresh : Except Exn String := .ok ""
  invoke : Except Exn Json := .ok .null
  classify : Except Exn Json := .ok .null
  expectedFor : Except Exn (Option Json) := .ok none
  jobEntry : Except Exn Json := .ok .null
  hasInterrupter : Bool := false
  interrupt : Except Exn Unit := .ok ()
  validateSnapshot : Except Exn Unit := .ok ()
  scores : Except Exn (List Score) := .ok []
  aggregate : Except Exn Unit := .ok ()
  describePass : Except Exn Fields := .ok ∅
  ensurePlans : Except Exn Unit := .ok ()
  importTrials : Except Exn TrialImport := .ok {}
  disposeRejected : Except Exn Unit := .ok ()
  ensureDispositions : Except Exn Unit := .ok ()

/-- The answer to one call. -/
def Platform.answer {σ : Type} (P : Platform σ) (o : Oracle) : (q : Ask) → Op σ Exn (Answer q)
  | .store r => Op.mapErr .store (P.serve r)
  | .getRun runId => Op.gets (P.runAt · runId)
  | .caseRows runId => Op.gets (fun s => rowsOf (P.caseRuns s) runId)
  | .attempts runId => Op.gets (fun s => attemptsOf (P.attempts s) runId)
  | .getAttempt attemptId => Op.gets (fun s => (P.attempts s).get attemptId)
  | .events runId => Op.gets (fun s => eventsOf (P.events s) runId)
  | .upsert row => Op.modify (fun s => P.setCaseRuns ((P.caseRuns s).upsert row) s)
  | .emit event => fun s =>
    match appendEvent (P.events s) event with
    | .error e => (.error (.store e), s)
    | .ok events => (.ok (), P.setEvents events s)
  | .now => Op.lift o.now
  | .fresh => Op.lift o.fresh
  | .invoke _ => Op.lift o.invoke
  | .classify _ => Op.lift o.classify
  | .expectedFor _ => Op.lift o.expectedFor
  | .jobEntry _ => Op.lift o.jobEntry
  | .hasInterrupter _ => Op.gets (fun _ => o.hasInterrupter)
  | .interrupt _ => Op.lift o.interrupt
  | .validateSnapshot _ => Op.lift o.validateSnapshot
  | .managedScores _ _ => Op.lift o.scores
  | .scenarioScores _ _ => Op.lift o.scores
  | .aggregate _ _ => Op.lift o.aggregate
  | .describePass _ _ => Op.lift o.describePass
  | .ensurePlans _ => Op.lift o.ensurePlans
  | .importTrials _ _ => Op.lift o.importTrials
  | .disposeRejected _ _ _ _ => Op.lift o.disposeRejected
  | .ensureDispositions _ _ => Op.lift o.ensureDispositions

end Motte.Service
