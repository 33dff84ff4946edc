import Mathlib.Algebra.Order.Ring.Unbundled.Rat
import Mathlib.Data.Rat.Floor
import Motte.Scenario.Workflow

/-! The workflow engine.

An engine runs the steps of one workflow against one fixture and one target. All steps
share one budget of steps, turns and time, which is looked at before a step is taken;
what a call did in time is looked at again when it returns. A failed step ends the run,
or leaves only reading steps to be taken. The first verdict that is reached stands.

Everything outside the engine is a world of any kind, which a port reads and changes
when it is called, and which may answer or raise as it pleases. -/
namespace Motte.Scenario
open Foundation

inductive Status where
  | completed
  | failed
  | cancelled
  | budgetExceeded
  | needsReview
deriving DecidableEq

inductive StepStatus where
  | succeeded
  | failed
  | skipped
deriving DecidableEq

/-- A status with its reason. -/
abbrev Verdict := Status × Option String

/-! ### Exceptions -/

namespace Exn

def typeName : Exn → String
  | .evidenceBoundary _ _ => "EvidenceBoundaryError"
  | .engine _ _ => "EngineError"
  | .condition _ => "ConditionError"
  | .other typeName _ _ => typeName

def message (repr : Value → String) : Exn → String
  | .evidenceBoundary _ message => message
  | .engine _ message => message
  | .condition e => e.message repr
  | .other _ message _ => message

/-- `getattr(error, "code", None)`, where it is a text that is not empty -/
def code? : Exn → Option String
  | .evidenceBoundary code _ => some code
  | .engine code _ => some code
  | .condition e => some e.code
  | .other _ _ code => code.filter (· ≠ "")

def isBoundary : Exn → Bool
  | .evidenceBoundary _ _ => true
  | _ => false

/-- `f"{type(error).__name__}: {error}"` -/
def text (repr : Value → String) (e : Exn) : String := e.typeName ++ ": " ++ e.message repr

end Exn

/-! ### Evidence -/

/-- An entry in the `assertions` of a step's evidence. -/
inductive AssertionItem where
  | outcome (o : ConditionOutcome)
  | unresolved (condition error reason : String)
  | iteration (number : Nat) (until_ : Option ConditionOutcome)

structure StepEvidence where
  seq : Nat
  stepId : String
  kind : StepKind
  status : StepStatus
  detail : Option String
  attempts : Nat := 1
  assertions : List AssertionItem := []
  durationMs : ℚ := 0
  depth : Nat

structure Checkpoint where
  stepId : String
  label : Option String
  contentHash : String
  state : Value

structure WorkflowOutcome where
  status : Status
  reason : Option String
  steps : List StepEvidence
  checkpoints : Table String Checkpoint
  stepCount : Nat
  turns : Nat
  toolCalls : Nat
  finalOutput : Option Value
  state : Document
  needsReview : Bool
  interrupt : Option Document

/-- What an engine tells its event sink. -/
inductive EngineEvent where
  | targetBeginFailed (error : String)
  | targetCloseFailed (error : String)
  | completionAssertions (assertions : List AssertionItem)
  | stepBlocked (stepId : String) (kind : StepKind) (reason : Option String)
  | stepStart (stepId : String) (kind : StepKind) (depth : Nat) (remainingSec : ℚ)
  | stepEnd (stepId : String) (kind : StepKind) (status : StepStatus) (detail : Option String) (durationMs : ℚ)
  | targetSend (stepId : String) (turn : Nat) (remainingSec : ℚ)
  | targetInterrupt (reason : String) (outcome : List (String × Value))
  | stepDeadlineExpired (stepId : String) (kind : StepKind) (remainingSec : ℚ)
  | fixtureToolCall (stepId tool : String) (mode : ToolMode) (remainingSec : ℚ)
  | stepDeadlineExceeded (stepId : String) (kind : StepKind) (overrunSec : ℚ)
  | checkpoint (stepId contentHash : String) (label : Option String)
  | branchDecision (stepId condition : String) (taken : Bool)
  | loopIteration (stepId : String) (iteration : Nat)
  | fixtureEvent (stepId event : String) (result : Value)

/-- An event with where it comes from. -/
structure EmittedEvent where
  runId : Option String
  caseId : Option String
  attemptId : Option String
  stepSeq : Nat
  event : EngineEvent

/-! ### The engine and its ports -/

/-- The fixture, the target, the clock and whom the engine reports to, over a world `W`. -/
structure Ports (W : Type) where
  begin : Op W Exn Unit
  send : String → ℚ → Op W Exn Value
  interrupt : String → Op W Exn Value
  close : Op W Exn Unit
  /-- `fixture.state` -/
  state : Op W Exn Document
  snapshot : Op W Exn (Value × String)
  invokeTool : String → Value → ToolMode → Op W Exn Value
  applyEvent : String → Value → Op W Exn Value
  now : W → ℚ × W
  cancelCheck : Option (Op W Exn Bool)
  eventSink : Option (EmittedEvent → Op W Exn Unit)

/-- What an engine did, beside what it reports: calls with the world that they left, conditions that it looked at, and
the evidence of steps as it is recorded. -/
inductive Deed (W : Type) where
  | compiled (condition : Condition)
  | asserted (condition : Condition) (context : Value)
  | sent (deadline : ℚ) (after : W)
  | invoked (mode : ToolMode) (deadline : ℚ) (after : W)
  | applied (deadline : ℚ) (after : W)
  | interrupted (confirmed : Bool)
  | recorded (status : StepStatus)
  | closed (succeeded : Bool)

/-- What changes in a `WorkflowEngine`. -/
structure Engine (W : Type) where
  world : W
  stepsEvidence : List StepEvidence := []
  checkpoints : Table String Checkpoint := ∅
  stepResults : Document := ∅
  toolResults : Document := ∅
  stepCount : Nat := 0
  turns : Nat := 0
  toolCalls : Nat := 0
  seq : Nat := 0
  evidenceOnly : Bool := false
  evidenceOnlyReason : Option String := none
  terminal : Option Verdict := none
  needsReview : Bool := false
  interrupt : Option Document := none
  /-- what was done, in order -/
  deeds : List (Deed W) := []

/-- What stays the same in a `WorkflowEngine`, with how Python writes values. -/
structure Setup (W : Type) where
  ports : Ports W
  workflow : CompiledWorkflow
  started : ℚ
  runId : Option String := none
  caseId : Option String := none
  attemptId : Option String := none
  /-- `repr` -/
  repr : Value → String
  /-- `str` -/
  str : Value → String
  /-- `str` of a float -/
  showFloat : ℚ → String

abbrev Task (W α : Type) := Op (Engine W) Exn α

section
variable {W : Type}

/-- A call of a port. -/
def onWorld {α : Type} (x : Op W Exn α) : Task W α :=
  Op.zoom (·.world) (fun s w => { s with world := w }) x

/-- A call of a port that is noted, whatever it ends with. -/
def perform {α : Type} (x : Op W Exn α) (deed : Except Exn α → W → Deed W) : Task W α := fun s =>
  ((x s.world).1, { s with
    world := (x s.world).2
    deeds := s.deeds ++ [deed (x s.world).1 (x s.world).2] })

def note (d : Deed W) : Task W Unit := Op.modify (fun s => { s with deeds := s.deeds ++ [d] })

def setTerminal (v : Verdict) : Task W Unit := Op.modify (fun s => { s with terminal := some v })

/-- `round(q, digits)` -/
def roundTo (digits : Nat) (q : ℚ) : ℚ :=
  let scaled := q * 10 ^ digits
  let low := ⌊scaled⌋
  let rest := scaled - low
  (if rest < 1 / 2 then low else if 1 / 2 < rest then low + 1 else if low % 2 = 0 then low else low + 1) / 10 ^ digits

variable (E : Setup W)

namespace Setup

def maxTotalSteps : Nat := E.workflow.workflow.limits.maxTotalSteps

def maxTurns : Nat := E.workflow.workflow.limits.maxTurns

def wallTimeSec : ℚ := E.workflow.workflow.limits.wallTimeSec

def deadline : ℚ := E.started + E.wallTimeSec

/-- `repr` of a text -/
def quoted (text : String) : String := E.repr (.str text)

end Setup

/-! ### Budget and clock -/

def now : Task W ℚ := fun s => (.ok (E.ports.now s.world).1, { s with world := (E.ports.now s.world).2 })

def remainingSeconds : Task W ℚ := do
  let time ← now E
  return max 0 (E.deadline - time)

/-- `_cancelled` -/
def cancelled : Task W Bool :=
  match E.ports.cancelCheck with
  | none => return false
  | some check => do
    match ← Op.result (onWorld check) with
    | .ok answer => return answer
    | .error _ => return false

/-- `_budget_stop` -/
def budgetStop (kind : StepKind) : Task W (Option Verdict) := do
  if ← cancelled E then return some (.cancelled, some "cancelled before step dispatch")
  else do
    let stepCount ← Op.gets (·.stepCount)
    if E.maxTotalSteps ≤ stepCount then
      return some (.budgetExceeded, some ("max_total_steps=" ++ toString E.maxTotalSteps ++
        " exhausted before step dispatch"))
    else do
      let turns ← Op.gets (·.turns)
      if kind = .sendMessage ∧ E.maxTurns ≤ turns then
        return some (.budgetExceeded, some ("max_turns=" ++ toString E.maxTurns ++ " exhausted before step dispatch"))
      else do
        let remaining ← remainingSeconds E
        if remaining ≤ 0 then
          return some (.budgetExceeded, some ("wall_time_sec=" ++ E.showFloat E.wallTimeSec ++
            " exhausted before step dispatch"))
        else return none

/-- `_emit` -/
def emit (event : EngineEvent) : Task W Unit :=
  match E.ports.eventSink with
  | none => return ()
  | some sink => do
    let seq ← Op.gets (·.seq)
    onWorld (sink {
      runId := E.runId
      caseId := E.caseId
      attemptId := E.attemptId
      stepSeq := seq
      event := event })

/-! ### Conditions -/

/-- `_context` -/
def context : Task W Value := do
  let state ← onWorld E.ports.state
  let toolResults ← Op.gets (·.toolResults)
  let stepResults ← Op.gets (·.stepResults)
  return .obj [("state", state.value), ("tool_results", toolResults.value), ("step_results", stepResults.value)]

/-- A call of `compile_condition`. -/
def compile (condition : Condition) : Task W CompiledCondition := do
  note (.compiled condition)
  match compileCondition condition with
  | .ok compiled => return compiled
  | .error e => Op.raise (.condition e)

/-- The condition of a branch or of a loop. -/
def decide_ (condition : Condition) : Task W ConditionOutcome := do
  let compiled ← compile condition
  let context ← context E
  Op.lift (evaluateCondition E.repr compiled context)

/-- One assertion; a path that is not there is an error of its own. -/
def evaluateAssertion (condition : Condition) : Task W (AssertionItem × Bool) := do
  let compiled ← compile condition
  match ← Op.result (do
      let context ← context E
      note (.asserted condition context)
      Op.lift (evaluateCondition E.repr compiled context)) with
  | .ok outcome => return (.outcome outcome, outcome.satisfied)
  | .error (.condition e) => return (.unresolved (compiled.describe E.repr) e.code (e.message E.repr), false)
  | .error e => Op.raise e

/-- `_evaluate` -/
def evaluate : List Condition → Task W (List AssertionItem × Bool)
  | [] => return ([], true)
  | condition :: rest => do
    let (item, satisfied) ← evaluateAssertion E condition
    let (items, others) ← evaluate rest
    return (item :: items, satisfied && others)

/-! ### The target -/

/-- `_begin_target` -/
def beginTarget : Task W (Option Verdict) := do
  match ← Op.result (onWorld E.ports.begin) with
  | .ok () => return none
  | .error e => do
    emit E (.targetBeginFailed (e.text E.repr))
    return some (.failed, some ("target begin failed: " ++ e.text E.repr))

/-- `_close_target` -/
def closeTarget : Task W (Option Verdict) := do
  match ← Op.result (perform E.ports.close (fun r _ => .closed r.isOk)) with
  | .ok () => return none
  | .error e => do
    Op.modify (fun s => { s with needsReview := true })
    emit E (.targetCloseFailed (e.text E.repr))
    return some (.needsReview, some ("target close failed: " ++ e.text E.repr))

/-- The target says that it has stopped. -/
def isConfirmed : Except Exn Value → Bool
  | .ok (.obj members) => ((members.lookup "confirmed").map Value.truthy).getD false
  | _ => false

/-- What an interrupt came to. -/
def interruptOutcome : Except Exn Value → List (String × Value)
  | .ok (.obj members) => members
  | .ok other => [("confirmed", .bool false), ("detail", .str (E.str other))]
  | .error e => [("confirmed", .bool false), ("error", .str (e.text E.repr))]

/-- `_interrupt_target`, as far as whether it is confirmed -/
def interruptTarget (reason : String) : Task W Bool := do
  let answer ← Op.result (perform (E.ports.interrupt reason) (fun r _ => .interrupted (isConfirmed r)))
  let outcome := interruptOutcome E answer
  Op.modify (fun s => { s with
    interrupt := some (outcome.foldl (fun d m => d.set m.1 m.2) ((∅ : Document).set "reason" (.str reason))) })
  emit E (.targetInterrupt reason outcome)
  return isConfirmed answer

/-! ### Steps -/

/-- What a step comes to. -/
structure Dispatch where
  status : StepStatus
  detail : Option String := none
  assertions : List AssertionItem := []

/-- `_step_deadline` -/
def stepDeadline (step : Step) : Task W ℚ :=
  match step.base.timeoutSec with
  | none => return E.deadline
  | some timeout => do
    let time ← now E
    return min E.deadline (time + timeout)

/-- `_has_side_effect` -/
def hasSideEffect : Step → Bool
  | .sendMessage .. => true
  | .invokeFixtureTool _ _ _ toolMode => toolMode ≠ .deny
  | .triggerFixtureEvent .. => true
  | _ => false

/-- `_record` -/
def record (evidence : StepEvidence) : Task W Unit :=
  Op.modify (fun s => { s with
    stepsEvidence := s.stepsEvidence ++ [evidence]
    deeds := s.deeds ++ [.recorded evidence.status] })

/-- `effective_failure_policy` -/
def effectiveFailurePolicy (step : Step) : FailurePolicy :=
  if step.base.failurePolicy = .continueForEvidence then .continueForEvidence
  else E.workflow.workflow.failurePolicy

/-- `_handle_failure` -/
def handleFailure (step : Step) (detail : Option String) : Task W Unit :=
  Op.modify (fun s =>
    -- a verdict that stands already is not made less exact
    if s.terminal.isSome then s
    else if effectiveFailurePolicy E step = .continueForEvidence then
      if s.evidenceOnly then s
      else { s with
        evidenceOnly := true
        evidenceOnlyReason := some ("step " ++ E.quoted step.stepId ++
          " failed and only read-only evidence may continue") }
    else { s with terminal := some (.failed, some ((detail.filter (· ≠ "")).getD ("step " ++ E.quoted step.stepId ++ " failed"))) })

/-- `_timeout_outcome` -/
def timeoutOutcome (step : Step) : Task W Dispatch := do
  let confirmed ← interruptTarget E ("step_timeout:" ++ step.stepId)
  if confirmed then setTerminal (.failed, some ("step " ++ E.quoted step.stepId ++
    " exceeded its deadline and was stopped"))
  else Op.modify (fun s => { s with
    needsReview := true
    terminal := some (.needsReview, some ("step " ++ E.quoted step.stepId ++
      " timed out and the target could not confirm it stopped")) })
  return { status := .failed, detail := some ("step " ++ E.quoted step.stepId ++ " deadline exceeded") }

/-- `_deadline_overrun` -/
def deadlineOverrun (step : Step) (deadline : ℚ) : Task W (Option String) := do
  let time ← now E
  let overrun := time - deadline
  if overrun ≤ 0 then return none
  else do
    emit E (.stepDeadlineExceeded step.stepId step.kind (roundTo 6 overrun))
    let later ← now E
    if E.deadline ≤ later then do
      let reason := "wall_time_sec=" ++ E.showFloat E.wallTimeSec ++ " exhausted during step " ++ E.quoted step.stepId
      setTerminal (.budgetExceeded, some reason)
      return some reason
    else return some ("step " ++ E.quoted step.stepId ++ " exceeded its deadline (" ++ E.showFloat (roundTo 6 overrun) ++
      "s over); the workflow must not report success")

/-- The assertions of a step that has done what it does. -/
def checkAssertions (step : Step) (complaint : String) : Task W Dispatch := do
  let (items, satisfied) ← evaluate E step.base.assertions
  if satisfied then return { status := .succeeded, assertions := items }
  else return { status := .failed, detail := some complaint, assertions := items }

/-- The message of a step, with the output that it refers to. -/
def sendText (step : Step) (message : String) : Option String → Task W String
  | none => return message
  | some reference => do
    match (← Op.gets (·.stepResults)).get reference with
    | none => Op.raise (.engine "WORKFLOW_INPUT_MISSING" ("step " ++ E.quoted step.stepId ++ " references " ++
        E.quoted reference ++ " which produced no output"))
    | some produced =>
      match (produced.get? "output").bind Value.text? with
      | none => return message
      | some text => return message ++ "\n" ++ text

/-- What the answer to a message says besides its output. -/
def judgeAnswer (step : Step) (deadline : ℚ) (answer : List (String × Value)) : Task W Dispatch := do
  let reason := (answer.lookup "termination_reason").getD .null
  if reason = .str "per_call_timeout" ∨ answer.lookup "timeout" = some (.bool true) then timeoutOutcome E step
  else do
    match ← deadlineOverrun E step deadline with
    | some overrun => return { status := .failed, detail := some overrun }
    | none =>
      match reason with
      | .str reason =>
        if reason ∈ ["max_steps", "max_tool_calls", "wall_time", "token_limit", "cost_limit"] then
          return { status := .failed, detail := some ("target budget stop: " ++ reason) }
        else if reason = "cancelled" then do
          setTerminal (.cancelled, some "target reported cancellation")
          return { status := .failed, detail := some "target reported cancellation" }
        else if reason = "error" then
          let detail := (answer.lookup "detail").getD .null
          return {
            status := .failed
            detail := some ("target error: " ++ if detail.truthy then E.str detail else "unknown") }
        else checkAssertions E step "assertion failed after send"
      | _ => checkAssertions E step "assertion failed after send"

/-- `type(value).__name__` -/
def typeName : Value → String
  | .null => "NoneType"
  | .bool _ => "bool"
  | .int _ => "int"
  | .float _ => "float"
  | .str _ => "str"
  | .arr _ => "list"
  | .obj _ => "dict"

/-- `_dispatch_send` -/
def dispatchSend (step : Step) (message : String) (inputRef : Option String) (deadline : ℚ) : Task W Dispatch := do
  let text ← sendText E step message inputRef
  Op.modify (fun s => { s with turns := s.turns + 1 })
  let turn ← Op.gets (·.turns)
  let remaining ← remainingSeconds E
  emit E (.targetSend step.stepId turn remaining)
  match ← perform (E.ports.send text deadline) (fun _ w => .sent deadline w) with
  | .obj answer => do
    let output := (answer.lookup "output").getD .null
    Op.modify (fun s => { s with
      stepResults := (s.stepResults.set step.stepId (.obj [("status", .str "sent"), ("output", output),
        ("termination_reason", (answer.lookup "termination_reason").getD .null)])).set "__final_output__" output })
    judgeAnswer E step deadline answer
  | other => Op.raise (.engine "WORKFLOW_TARGET_RESPONSE_INVALID" ("target send returned " ++ typeName other ++
      ", expected an object"))

/-- A step whose deadline has passed before it was taken. -/
def expired (step : Step) : Task W Dispatch := do
  let remaining ← remainingSeconds E
  emit E (.stepDeadlineExpired step.stepId step.kind remaining)
  timeoutOutcome E step

/-- `_dispatch_tool` -/
def dispatchTool (step : Step) (tool : String) (arguments : Value) (toolMode : ToolMode) (deadline : ℚ) :
    Task W Dispatch := do
  let time ← now E
  if deadline ≤ time then expired E step
  else do
    Op.modify (fun s => { s with toolCalls := s.toolCalls + 1 })
    let remaining ← remainingSeconds E
    emit E (.fixtureToolCall step.stepId tool toolMode remaining)
    let result ← perform (E.ports.invokeTool tool arguments toolMode) (fun _ w => .invoked toolMode deadline w)
    Op.modify (fun s => { s with
      toolResults := s.toolResults.set step.stepId result
      stepResults := s.stepResults.set step.stepId (.obj [("status", .str "succeeded"), ("result", result)]) })
    match ← deadlineOverrun E step deadline with
    | some overrun => return { status := .failed, detail := some overrun }
    | none => checkAssertions E step "assertion failed after fixture tool"

/-- `_dispatch_checkpoint` -/
def dispatchCheckpoint (step : Step) (label : Option String) : Task W Dispatch := do
  let (snapshot, contentHash) ← onWorld E.ports.snapshot
  Op.modify (fun s => { s with
    checkpoints := s.checkpoints.set step.stepId ⟨step.stepId, label, contentHash, snapshot⟩
    stepResults := s.stepResults.set step.stepId
      (.obj [("status", .str "succeeded"), ("content_hash", .str contentHash)]) })
  emit E (.checkpoint step.stepId contentHash label)
  checkAssertions E step "checkpoint assertion failed"

/-- What of an event's result is shown. -/
def visible : Value → Value
  | .arr _ => .null
  | .obj _ => .null
  | v => v

/-- `_dispatch_event` -/
def dispatchEvent (step : Step) (event : String) (payload : Value) (deadline : ℚ) : Task W Dispatch := do
  let time ← now E
  if deadline ≤ time then expired E step
  else do
    let result ← perform (E.ports.applyEvent event payload) (fun _ w => .applied deadline w)
    Op.modify (fun s => { s with
      stepResults := s.stepResults.set step.stepId (.obj [("status", .str "succeeded"), ("event", .str event)]) })
    emit E (.fixtureEvent step.stepId event (visible result))
    match ← deadlineOverrun E step deadline with
    | some overrun => return { status := .failed, detail := some overrun }
    | none => checkAssertions E step "assertion failed after fixture event"

/-- What a branch or loop comes to. -/
def containerResult (assertions : List AssertionItem) : Task W Dispatch := do
  match ← Op.gets (·.terminal) with
  | some verdict => return { status := .failed, detail := verdict.2, assertions := assertions }
  | none => return { status := .succeeded, assertions := assertions }

/-- `_dispatch_branch`; the sequences are given as what runs them. -/
def dispatchBranch (step : Step) (when_ : Condition) (thenSteps elseSteps : Task W Unit) : Task W Dispatch := do
  let decision ← decide_ E when_
  emit E (.branchDecision step.stepId (decision.condition.describe E.repr) decision.satisfied)
  if decision.satisfied then thenSteps else elseSteps
  containerResult [.outcome decision]

/-- Whether a loop has converged. -/
def converged : Option Condition → Task W (Option ConditionOutcome)
  | none => return none
  | some until_ => do
    let outcome ← decide_ E until_
    return if outcome.satisfied then some outcome else none

/-- The iterations of a loop that are left, from the one of this index on. -/
def iterations (step : Step) (until_ : Option Condition) (body : Task W Unit) :
    Nat → Nat → List AssertionItem → Task W (List AssertionItem)
  | 0, _, records => return records
  | left + 1, index, records => do
    if (← Op.gets (·.terminal)).isSome then return records
    else do
      match ← converged E until_ with
      | some outcome => return records ++ [.iteration index (some outcome)]
      | none => do
        if E.maxTotalSteps ≤ (← Op.gets (·.stepCount)) then do
          setTerminal (.budgetExceeded, some ("max_total_steps=" ++ toString E.maxTotalSteps ++ " exhausted inside loop " ++
            E.quoted step.stepId))
          return records
        else do
          emit E (.loopIteration step.stepId (index + 1))
          body
          iterations step until_ body left (index + 1) (records ++ [.iteration (index + 1) none])

/-- `_dispatch_loop`; the body is given as what runs it. -/
def dispatchLoop (step : Step) (maxIterations : Nat) (until_ : Option Condition) (body : Task W Unit) :
    Task W Dispatch := do
  let records ← iterations E step until_ body maxIterations 0 []
  containerResult records

/-- What is done with how the dispatch of a step ended; evidence that cannot be kept ends the run. -/
def settled : Except Exn Dispatch → Task W Dispatch
  | .ok dispatch => return dispatch
  | .error e =>
    if e.isBoundary then Op.raise e
    else return { status := .failed, detail := some ((e.code?.getD e.typeName) ++ ": " ++ e.message E.repr) }

/-- `_run_step`; how the step is dispatched before a deadline is given. -/
def takeStep (step : Step) (depth : Nat) (dispatch : ℚ → Task W Dispatch) : Task W Unit := do
  match ← budgetStop E step.kind with
  | some stop => do
    setTerminal stop
    emit E (.stepBlocked step.stepId step.kind stop.2)
  | none => do
    Op.modify (fun s => { s with stepCount := s.stepCount + 1, seq := s.seq + 1 })
    let seq ← Op.gets (·.seq)
    let started ← now E
    let deadline ← stepDeadline E step
    let remaining ← remainingSeconds E
    emit E (.stepStart step.stepId step.kind depth remaining)
    if (← Op.gets (·.evidenceOnly)) ∧ hasSideEffect step = true then
      record {
        seq := seq
        stepId := step.stepId
        kind := step.kind
        status := .skipped
        detail := some "evidence-only after failure: side-effecting step not executed"
        depth := depth }
    else do
      let ended ← Op.result (dispatch deadline)
      let result ← settled E ended
      let finished ← now E
      let durationMs := roundTo 3 ((finished - started) * 1000)
      record {
        seq := seq
        stepId := step.stepId
        kind := step.kind
        status := result.status
        detail := result.detail
        assertions := result.assertions
        durationMs := durationMs
        depth := depth }
      emit E (.stepEnd step.stepId step.kind result.status result.detail durationMs)
      if result.status = .failed then handleFailure E step result.detail
      else return ()

mutual
def runStep : Step → Nat → Task W Unit
  | .sendMessage base message inputRef, depth =>
    let step : Step := .sendMessage base message inputRef
    takeStep E step depth (dispatchSend E step message inputRef)
  | .invokeFixtureTool base tool arguments toolMode, depth =>
    let step : Step := .invokeFixtureTool base tool arguments toolMode
    takeStep E step depth (dispatchTool E step tool arguments toolMode)
  | .assert base, depth => takeStep E (.assert base) depth (fun _ => checkAssertions E (.assert base) "assertion failed")
  | .checkpoint base label, depth =>
    takeStep E (.checkpoint base label) depth (fun _ => dispatchCheckpoint E (.checkpoint base label) label)
  | .branch base when_ thenSteps elseSteps, depth =>
    let step : Step := .branch base when_ thenSteps elseSteps
    takeStep E step depth (fun _ => dispatchBranch E step when_ (runSequence thenSteps (depth + 1))
      (runSequence elseSteps (depth + 1)))
  | .loop base maxIterations body until_, depth =>
    let step : Step := .loop base maxIterations body until_
    takeStep E step depth (fun _ => dispatchLoop E step maxIterations until_ (runSequence body (depth + 1)))
  | .triggerFixtureEvent base event payload, depth =>
    let step : Step := .triggerFixtureEvent base event payload
    takeStep E step depth (dispatchEvent E step event payload)

/-- `_run_sequence` -/
def runSequence : List Step → Nat → Task W Unit
  | [], _ => return ()
  | step :: rest, depth => do
    if (← Op.gets (·.terminal)).isSome then return ()
    else do
      runStep step depth
      runSequence rest depth
end

/-! ### The run -/

/-- `_completion_verdict` -/
def completionVerdict : Task W Verdict := do
  let (items, satisfied) ← evaluate E E.workflow.completionAssertions
  if items.isEmpty then return (.completed, none)
  else do
    emit E (.completionAssertions items)
    if satisfied then return (.completed, none) else return (.failed, some "completion assertions failed")

/-- The verdict of a run that has none yet is that of its completion. -/
def finalVerdict : Option Verdict → Task W Verdict
  | some verdict => return verdict
  | none => completionVerdict E

/-- `_outcome` -/
def outcome (terminal : Option Verdict) : Task W WorkflowOutcome := do
  let verdict ← finalVerdict E terminal
  let s ← Op.gets id
  let verdict := if s.evidenceOnly ∧ verdict.1 = .completed then (.failed, s.evidenceOnlyReason) else verdict
  let verdict := if s.needsReview ∧ verdict.1 = .completed then
      (.needsReview, some ((verdict.2.filter (· ≠ "")).getD "stop could not be confirmed")) else verdict
  let state ← onWorld E.ports.state
  return {
    status := verdict.1
    reason := verdict.2
    steps := s.stepsEvidence
    checkpoints := s.checkpoints
    stepCount := s.stepCount
    turns := s.turns
    toolCalls := s.toolCalls
    finalOutput := s.stepResults.get "__final_output__"
    state := state
    needsReview := s.needsReview || verdict.1 = .needsReview
    interrupt := s.interrupt }

/-- The verdict of closing the session is the last that may stand. -/
def closeVerdict : Option Verdict → Task W Unit
  | none => return ()
  | some verdict => Op.modify (fun s => if s.terminal.isSome then s else { s with terminal := some verdict })

/-- `WorkflowEngine.run` -/
def run : Task W WorkflowOutcome := do
  match ← beginTarget E with
  | some verdict => outcome E (some verdict)
  | none => do
    let ended ← Op.result (runSequence E E.workflow.topLevelSteps 1)
    -- the session is closed however the steps ended
    let close ← closeTarget E
    Op.lift ended
    closeVerdict close
    outcome E (← Op.gets (·.terminal))

end

end Motte.Scenario
