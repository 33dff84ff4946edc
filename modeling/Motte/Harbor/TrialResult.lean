import Motte.Harbor.Rewards

/-! The result of one planned trial.

What was observed of a trial is gathered from its directory: the observation of the
verifier, logs, artifacts, times and usage. A trial without a directory has a result
too, which says that it was not attempted. Whether a trial succeeded or failed is said of
scored trials alone. -/
namespace Motte.Harbor
open Foundation

/-- A frozen trial plan, as far as it is read. -/
structure Plan where
  trialId : String
  taskKey : String
  repeatIndex : ℤ
deriving DecidableEq

/-- How a directory was found to be a task's. -/
structure Matching where
  method : String
  nativePath : Value
  normalizedRelativePath : Option String

/-- A directory that was assigned to a task. -/
structure Observed where
  directory : String
  payload : List (String × Value)
  startedAt : Value
  matching : Matching

def maxParseBytes : ℕ := 8 * 1024 * 1024

def startsWith (text start : String) : Bool := start.toList.isPrefixOf text.toList

/-- The paths that begin with this, sorted. -/
def pathsUnder (files : Files) (start : String) : List String :=
  ((files.rows.map Prod.fst).filter (fun rel => startsWith rel start)).insertionSort (· ≤ ·)

/-! ### Evidence -/

/-- A log: cut when it is too long, and told apart when it is not text. -/
def logRef (r : Reading) (files : Files) (rel kind : String) (data : Bytes) : Option EvidenceRef :=
  let truncated := decide (maxParseBytes < data.length)
  let readable := (r.decode data).isSome
  evidenceRefWith r files rel kind (!truncated && readable) truncated (if readable then none else some "not valid UTF-8")

structure TerminalEvidence where
  terminal : String
  trajectory : String
  refs : List EvidenceRef

/-- `_terminal_evidence` -/
def terminalEvidence (r : Reading) (files : Files) (trial : String) : TerminalEvidence :=
  let log := trialFile files trial "trial.log"
  let agentLogs := (pathsUnder files (trialPath trial "agent/")).filterMap (fun rel => (files.get rel).map (fun data => (rel, data)))
  { terminal :=
      match log with
      | none => "unavailable"
      | some data =>
        if maxParseBytes < data.length then "truncated" else if (r.decode data).isSome then "complete" else "unavailable"
    trajectory :=
      if agentLogs.isEmpty then "unavailable"
      else if agentLogs.any (fun log => decide (maxParseBytes < log.2.length) || (r.decode log.2).isNone) then "partial"
      else if agentLogs.all (fun log => log.2.isEmpty) then "unavailable"
      else "complete"
    refs :=
      (log.bind (logRef r files (trialPath trial "trial.log") "harbor-trial-log")).toList ++
        agentLogs.filterMap (fun log => logRef r files log.1 "harbor-agent-log" log.2) }

structure WorkspaceDiff where
  state : String
  entries : List (List (String × Value))
  refs : List EvidenceRef

/-- `_workspace_diff` -/
def workspaceDiff (r : Reading) (files : Files) (trial : String) : Except Raised WorkspaceDiff :=
  let refs := (pathsUnder files (trialPath trial "artifacts/")).filterMap (fun rel => evidenceRef r files rel "harbor-artifact")
  match trialFile files trial "artifacts/manifest.json" with
  | none => .ok ⟨"missing", [], refs⟩
  | some data =>
    match loadJson r data "artifacts/manifest.json" with
    | .error e => .error e
    | .ok (.ok (.arr items)) =>
      let entries := items.filterMap members?
      let collected := entries.filter (fun entry =>
        !(at? entry "status" = .str "empty" || at? entry "status" = .str "missing"))
      .ok ⟨if collected.isEmpty then "empty" else "complete", entries, refs⟩
    | .ok _ => .ok ⟨"partial", [], refs⟩

/-! ### Times and usage -/

/-- `_duration_seconds` -/
def durationSeconds (r : Reading) (start finish : Value) : Except Raised (Option Number) :=
  match start, finish with
  | .str start, .str finish => r.duration start finish
  | _, _ => .ok none

/-- `_timings` -/
def timings (r : Reading) (payload : List (String × Value)) : Except Raised (List (String × Option Number)) := do
  let phases ← ["environment_setup", "agent_setup", "agent_execution", "verifier"].mapM (fun phase =>
    match at? payload phase with
    | .obj entry => do return (phase ++ "_sec", ← durationSeconds r (at? entry "started_at") (at? entry "finished_at"))
    | _ => return (phase ++ "_sec", none))
  let total ← durationSeconds r (at? payload "started_at") (at? payload "finished_at")
  return phases ++ [("total_sec", total)]

structure Usage where
  costUsd : Option Number
  tokens : Option (Value × Value × Value)
  coverage : String
  source : Option String

/-- The usage that the agent reported. -/
def usageOf (payload : List (String × Value)) : Except Raised Usage :=
  match at? payload "agent_result" with
  | .obj agent =>
    let cost := at? agent "cost_usd"
    let tokens := (at? agent "n_input_tokens", at? agent "n_cache_tokens", at? agent "n_output_tokens")
    let tokensSeen := !(tokens = (.null, .null, .null))
    let usage (costUsd : Option Number) : Usage :=
      { costUsd, tokens := if tokensSeen then some tokens else none,
        coverage := if cost ≠ .null then "observed" else if tokensSeen then "tokens_only" else "unavailable",
        source := some "harbor-agent-result" }
    match cost with
    | .int n =>
      match Number.binary64 n with
      | .finite x => .ok (usage (some (.finite x)))
      | _ => .error ⟨"OverflowError"⟩
    | .float bits => .ok (usage (some (.ofBits bits)))
    | _ => .ok (usage none)
  | _ => .ok { costUsd := none, tokens := none, coverage := "unavailable", source := none }

/-! ### The conclusion -/

inductive Disposition where
  | succeeded
  | failed
  | cancelled
  | indeterminate
  | notAttempted
deriving DecidableEq

def positive : Number → Bool
  | .finite x => 0 < x
  | .infinite negative => !negative
  | .nan => false

/-- `_disposition_for` -/
def dispositionFor (status : Status) (rewards : Rewards) (cancelled : Bool) : Disposition :=
  if status = .scored then if rewards.any (fun row => positive row.2) then .succeeded else .failed
  else if cancelled then .cancelled else .indeterminate

/-- `_termination_reason` -/
def terminationReason (status : Status) (exceptionType : Option String) (cancelled : Bool) : String :=
  if cancelled then "cancelled"
  else match exceptionType with
    | some name => if name ≠ "" then
        match exceptionPhases.lookup name with
        | some phase => phase ++ "_error"
        | none => "runner_error"
      else ended
    | none => ended
where
  ended : String :=
    if status = .scored then "completed"
    else if status = .missingVerifierEvidence then "verifier_evidence_missing"
    else "completed_without_reward"

/-- `_coverage_for` -/
def coverageFor (files : Files) (trial : String) (observation : Observation) (terminal : TerminalEvidence)
    (workspace : WorkspaceDiff) (usage : Usage) : List (String × String) :=
  let given (relative : String) := if ((trialFile files trial relative).getD []).isEmpty then "unavailable" else "complete"
  [("instruction", given "instruction.md"), ("config", given "config.json"), ("trajectory", terminal.trajectory),
   ("terminal", terminal.terminal), ("workspace", workspace.state),
   ("verifier_output", if observation.evidenceRefs.isEmpty then "unavailable" else "complete"),
   ("reward", if observation.status = .scored then "complete" else "unavailable"),
   ("usage", if usage.coverage = "unavailable" then "unavailable" else "complete")]

structure Coverage where
  items : List (String × String)
  missing : List String
  partials : List String

def Coverage.of (items : List (String × String)) : Coverage :=
  { items
    missing := ((items.filter (fun item => item.2 = "unavailable")).map Prod.fst).insertionSort (· ≤ ·)
    partials := ((items.filter (fun item => item.2 = "partial" || item.2 = "truncated" || item.2 = "empty")).map
      Prod.fst).insertionSort (· ≤ ·) }

inductive Termination where
  | unobserved (reason : String)
  | ended (reason : String) (exceptionType exceptionMessage failurePhase : Option String)
      (timings : List (String × Option Number)) (harborTrialId trialName taskChecksum verifierEnvironmentMode : Value)
      (cancelled : Bool) (taskMatching : Matching) (jobFinished : Bool)

structure TrialResult where
  trialId : String
  sourceTrialId : Option String
  disposition : Disposition
  termination : Termination
  observation : Option Observation
  artifactRefs : List EvidenceRef
  usage : Usage
  coverage : Coverage
  parserVersion : String
  taskKey : String
  repeatIndex : ℤ
  sourceDirectory : Option String

/-- `str(payload.get("id") or directory)` -/
def sourceTrialId (r : Reading) (payload : List (String × Value)) (directory : String) : String :=
  if (at? payload "id").truthy then r.text (at? payload "id") else directory

/-- `_trial_result`, of a trial that no directory is of. -/
def unobservedResult (plan : Plan) (parserVersion : String) (cancelled : Bool) : TrialResult :=
  { trialId := plan.trialId, sourceTrialId := none
    disposition := if cancelled then .cancelled else .notAttempted
    termination := .unobserved (if cancelled then "cancelled_before_collection" else "no_result_recorded")
    observation := none, artifactRefs := []
    usage := { costUsd := none, tokens := none, coverage := "unavailable", source := none }
    coverage :=
      { items := [("trajectory", "unavailable"), ("terminal", "unavailable"), ("workspace", "missing"), ("reward", "unavailable")]
        missing := ["reward", "terminal", "trajectory"], partials := [] }
    parserVersion, taskKey := plan.taskKey, repeatIndex := plan.repeatIndex, sourceDirectory := none }

/-- Succeeded and failed are said of scored trials, and of no others. -/
def dispositionConsistent (disposition : Disposition) (status : Status) : Bool :=
  (disposition = .succeeded || disposition = .failed) == (status = .scored)

/-- `_trial_result`, of a trial that a directory is of. -/
def observedResult (r : Reading) (files : Files) (plan : Plan) (item : Observed) (parserVersion : String) (cancelled : Bool) :
    Except Raised TrialResult := do
  let observation ← readVerifierObservation r files item.directory
  let terminal := terminalEvidence r files item.directory
  let workspace ← workspaceDiff r files item.directory
  let times ← timings r item.payload
  let usage ← usageOf item.payload
  let exception := members? (at? item.payload "exception_info")
  let exceptionType := exception.map (fun e => if (at? e "exception_type").truthy then r.text (at? e "exception_type") else "")
  let disposition := dispositionFor observation.status observation.rewards cancelled
  if !dispositionConsistent disposition observation.status then throw ⟨"HarborParseError"⟩
  return {
    trialId := plan.trialId
    sourceTrialId := some (sourceTrialId r item.payload item.directory)
    disposition
    termination := .ended (terminationReason observation.status exceptionType cancelled)
      (exceptionType.filter (· ≠ "")) (exception.map (fun e => r.text (at? e "exception_message")))
      (exceptionPhases.lookup (exceptionType.getD "")) times (at? item.payload "id") (at? item.payload "trial_name")
      (at? item.payload "task_checksum") (at? item.payload "verifier_environment_mode") cancelled item.matching
      (at? item.payload "finished_at").str?.isSome
    observation := some observation
    artifactRefs :=
      [("result.json", "harbor-trial-result"), ("config.json", "harbor-trial-config"), ("lock.json", "harbor-trial-lock"),
       ("instruction.md", "harbor-instruction")].filterMap
          (fun row => evidenceRef r files (trialPath item.directory row.1) row.2) ++ terminal.refs ++ workspace.refs
    usage
    coverage := .of (coverageFor files item.directory observation terminal workspace usage)
    parserVersion, taskKey := plan.taskKey, repeatIndex := plan.repeatIndex
    sourceDirectory := some item.directory }

/-- `_trial_result` -/
def trialResult (r : Reading) (files : Files) (plan : Plan) (observed : Option Observed) (parserVersion : String)
    (cancelled : Bool) : Except Raised TrialResult :=
  match observed with
  | none => .ok (unobservedResult plan parserVersion cancelled)
  | some item => observedResult r files plan item parserVersion cancelled

/-- The last line of defence is never reached. -/
theorem disposition_consistent (status : Status) (rewards : Rewards) (cancelled : Bool) :
    dispositionConsistent (dispositionFor status rewards cancelled) status = true := by
  unfold dispositionFor dispositionConsistent
  cases status with
  | scored => split <;> split <;> simp_all
  | missingVerifierEvidence => cases cancelled <;> rfl
  | verifierProtocolError => cases cancelled <;> rfl
  | verifierError => cases cancelled <;> rfl

end Motte.Harbor
