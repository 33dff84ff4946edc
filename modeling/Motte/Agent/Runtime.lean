import Motte.Agent.Tools
import Motte.Foundation.Op
import Motte.Gate.Policy

/-! The built-in ReAct agent, turn by turn.

The model, the tools, the clock, the hook for cancellation and the sink for events are
a world of any kind, which answers or raises as it pleases. While it is called, and
whenever the agent looks whether it is cancelled, others may interrupt or close the
session. -/
namespace Motte.Agent
open Foundation Gate

inductive Mode where
  | legacyJson
  | nativeTool
deriving DecidableEq

/-- `PROMPT_VERSIONS` -/
def Mode.promptVersion : Mode → String
  | .legacyJson => "builtin-react-legacy@2"
  | .nativeTool => "builtin-react-native@1"

/-- `ModelRequest` -/
structure ModelRequest where
  model : String
  messages : List Message
  system : String
  tools : List ToolDeclaration
  maxOutputTokens : Option Nat

/-- What others do with the session. -/
inductive Demand where
  | interrupt
  | close

/-- What is outside the agent, over a world `W`. -/
structure Ports (W : Type) where
  /-- A call of the model; nothing when it returns nothing. -/
  complete : ModelRequest → Op W Fault (Option Document)
  /-- A call of the model on a thread that is waited for; nothing when it is still running after this time. -/
  completeWithin : ModelRequest → ℚ → Op W Fault (Option (Option Document))
  tool : String → Value → Op W Fault Value
  /-- The clock of the deadlines. -/
  now : W → ℚ × W
  /-- `wall_elapsed` -/
  wallElapsed : W → ℚ × W
  shouldCancel : Option (Op W Fault Bool)
  eventSink : Option (AgentEvent → Op W Fault Unit)
  /-- What others have done with the session since it was asked last. -/
  demands : W → List Demand × W

/-- What the agent did, beside what it reports. -/
inductive Deed where
  | called (messages : List Message)
  | executed (callId : Option String) (tool : String)
  /-- A cancellation, or the end of the time for the turn, was seen. -/
  | observed

/-- What changes in a `BuiltinReActRuntime`. -/
structure Runtime (W : Type) where
  world : W
  session : BuiltinSession := .fresh
  spent : Spent := {}
  interrupted : Bool := false
  lastCallStop : Option Reason := none
  turnDeadline : Option ℚ := none
  /-- What was done, in order. -/
  deeds : List Deed := []

/-- What stays the same in a `BuiltinReActRuntime`, with how the language reads and writes values. -/
structure Setup (W : Type) where
  ports : Ports W
  /-- `str` -/
  str : Value → String
  /-- `json.loads` -/
  loads : Loads
  /-- `json.dumps` -/
  dumps : Value → String
  /-- A time as it is written. -/
  time : ℚ → Value
  mode : Mode
  limits : Limits := {}
  /-- The tools that have a handler. -/
  tools : List String := []
  declaredTools : List String := []
  systemPrompt : Option String := none
  model : String := "builtin-react"
  perCallSelfEnforced : Bool := false

/-- The limit of the output, as it is reported. -/
def Setup.outputBudget {W : Type} (E : Setup W) : List (String × Value) :=
  match E.limits.maxOutputTokens with
  | none => []
  | some n => [("max_output_tokens", .int n)]

abbrev Task (W α : Type) := Op (Runtime W) Fault α

section
variable {W : Type}

/-! ### The session and the world -/

def Runtime.setSession (s : Runtime W) (session : BuiltinSession) : Runtime W := { s with session := session }

/-- `interrupt`, or `close` -/
def Runtime.demand (s : Runtime W) : Demand → Runtime W
  | .interrupt => { s with interrupted := true, session := s.session.cancel }
  | .close => { s with session := s.session.close }

def onSession (f : BuiltinSession → BuiltinSession) : Task W Unit := Op.modify (fun s => s.setSession (f s.session))

def say (m : Message) : Task W Unit := onSession (fun s => { s with messages := s.messages ++ [m] })

def spend (f : Spent → Spent) : Task W Unit := Op.modify (fun s => { s with spent := f s.spent })

def note (d : Deed) : Task W Unit := Op.modify (fun s => { s with deeds := s.deeds ++ [d] })

variable (E : Setup W)

/-- What others have done with the session takes effect. -/
def poll : Task W Unit := Op.modify (fun s =>
  (E.ports.demands s.world).1.foldl Runtime.demand { s with world := (E.ports.demands s.world).2 })

/-- A call of a port. -/
def onWorld {α : Type} (x : Op W Fault α) : Task W α := do
  let answer ← Op.result (Op.zoom (·.world) (fun s w => { s with world := w }) x)
  poll E
  match answer with
  | .ok a => return a
  | .error e => Op.raise e

def now : Task W ℚ := fun s => (.ok (E.ports.now s.world).1, { s with world := (E.ports.now s.world).2 })

def wallElapsed : Task W ℚ := fun s =>
  (.ok (E.ports.wallElapsed s.world).1, { s with world := (E.ports.wallElapsed s.world).2 })

/-- `_record` -/
def record (type : String) (payload : List (String × Value)) : Task W Unit := do
  onSession (·.recordEvent ⟨type, payload⟩)
  match E.ports.eventSink with
  | none => return ()
  | some sink => onWorld E (sink ⟨type, payload⟩)

/-! ### Cancellation and time -/

/-- Ask the hook; a hook that fails says no. -/
def askCancel : Task W Bool :=
  match E.ports.shouldCancel with
  | none => return false
  | some hook => do
    match ← Op.result (onWorld E hook) with
    | .ok answer => return answer
    | .error (.base typeName message) => Op.raise (.base typeName message)
    | .error _ => return false

/-- `_cancelled` -/
def cancelled : Task W Bool := do
  poll E
  let flagged ← Op.gets (fun s => s.interrupted || s.session.cancelled)
  let answer ← if flagged then pure true else askCancel E
  if answer then
    note .observed
    return true
  else return false

/-- `_turn_deadline_expired` -/
def turnDeadlineExpired (step : Nat) : Task W (Option (Reason × String)) := do
  match ← Op.gets (·.turnDeadline) with
  | none => return none
  | some deadline =>
    let time ← now E
    if time < deadline then return none
    else
      note .observed
      record E "turn_deadline_exceeded" [("step", .int step), ("phase", .str "before_tool"), ("deadline", E.time deadline)]
      spend (fun p => { p with perCallTimeoutEnforced := true })
      return some (.perCallTimeout, "turn deadline exceeded before tool execution")

/-- The time for the whole session is over. -/
def wallOver : Task W Bool :=
  match E.limits.wallTimeSec with
  | none => return false
  | some limit => do
    let elapsed ← wallElapsed E
    return decide (limit < elapsed)

/-- `_wall_or_usage_stop` -/
def wallOrUsageStop : Task W (Option Reason) := do
  if ← wallOver E then return some .wallTime
  else Op.gets (fun s => s.spent.usageStop E.limits)

/-- `step_allowed` -/
def stepAllowed (step : Nat) : Task W (Option Reason) :=
  if E.limits.maxSteps < step then return some .maxSteps else wallOrUsageStop E

/-! ### The model -/

def legacySystemPrompt : String :=
  "You are a ReAct agent. Reply with a single JSON object, nothing else:\n" ++
  "\x7b\"action\": \"tool\", \"tool\": \"<name>\", \"input\": <value>\x7d to call a tool, or\n" ++
  "\x7b\"action\": \"final\", \"answer\": <value>\x7d to give the final answer.\n" ++
  "Available tools: \x7btools\x7d"

def nativeSystemPrompt : String :=
  "You are a ReAct agent working inside a sandboxed case workspace. " ++
  "Call the provided tools to inspect and create files. " ++
  "When the task is complete, reply with a plain-text final answer (no tool call)."

/-- The given prompt, unless it is empty. -/
def promptOr (default : String) : Option String → String
  | none => default
  | some prompt => if prompt = "" then default else prompt

/-- `_build_system_prompt` -/
def buildSystemPrompt : String :=
  match E.mode with
  | .nativeTool => promptOr nativeSystemPrompt E.systemPrompt
  | .legacyJson =>
    let names := if E.declaredTools = [] then "(none)" else ", ".intercalate E.declaredTools
    (promptOr legacySystemPrompt E.systemPrompt).replace "\x7btools\x7d" names

def requestOf (messages : List Message) : ModelRequest where
  model := E.model
  messages := messages
  system := buildSystemPrompt E
  tools := if E.mode = .nativeTool then E.declaredTools.filterMap declarationOf else []
  maxOutputTokens := E.limits.maxOutputTokens

/-- `_record_timeout` -/
def recordTimeout (step : Nat) : Task W Unit := do
  note .observed
  record E "model_call_timeout" [("step", .int step), ("timeout_sec", GateRule.nullable E.time E.limits.perCallTimeoutSec)]
  Op.modify (fun s => { s with lastCallStop := some .perCallTimeout })
  spend (fun p => { p with perCallTimeoutEnforced := true })

/-- `_effective_call_deadline` -/
def effectiveCallDeadline : Task W (Option ℚ) := do
  let time ← now E
  let perCall := E.limits.perCallTimeoutSec.map (time + ·)
  let turn ← Op.gets (·.turnDeadline)
  return match perCall, turn with
    | some d, some e => some (min d e)
    | some d, none => some d
    | none, e => e

/-- A call that is answered by the wrapper in its time, or raises. -/
def completeOrTimeout (request : ModelRequest) (step : Nat) : Task W (Option Document) := do
  note (.called request.messages)
  match ← Op.result (onWorld E (E.ports.complete request)) with
  | .ok envelope => return envelope
  | .error (.callTimeout _) => do
    recordTimeout E step
    return none
  | .error e => Op.raise e

/-- A call on a thread of its own. -/
def completeOnThread (request : ModelRequest) (remaining : ℚ) (step : Nat) : Task W (Option Document) := do
  note (.called request.messages)
  match ← Op.result (onWorld E (E.ports.completeWithin request remaining)) with
  | .ok none => do
    recordTimeout E step
    return none
  | .ok (some envelope) => do
    spend (fun p => { p with perCallTimeoutEnforced := true })
    return envelope
  | .error (.callTimeout _) => do
    recordTimeout E step
    return none
  | .error e => Op.raise e

/-- The time for the turn is over. -/
def turnOver : Task W Bool := do
  match ← Op.gets (·.turnDeadline) with
  | none => return false
  | some deadline => do
    let time ← now E
    return decide (deadline ≤ time)

/-- `_dispatch_model_call` -/
def dispatchModelCall (request : ModelRequest) (step : Nat) : Task W (Option Document) := do
  if E.perCallSelfEnforced then
    if ← turnOver E then
      recordTimeout E step
      return none
    else completeOrTimeout E request step
  else
    match ← effectiveCallDeadline E with
    | none => do
      note (.called request.messages)
      onWorld E (E.ports.complete request)
    | some deadline => do
      let time ← now E
      if deadline - time ≤ 0 then
        recordTimeout E step
        return none
      else completeOnThread E request (deadline - time) step

/-- `_call_model` -/
def callModel (step : Nat) : Task W (Option Document) := do
  let messages ← Op.gets (·.session.messages)
  let request := requestOf E messages
  record E "model_request" ([("step", .int step), ("messages", .int messages.length),
    ("tools", .int request.tools.length)] ++ E.outputBudget)
  match ← dispatchModelCall E request step with
  | none => return none
  | some envelope => do
    record E "model_response" [("step", .int step), ("finish_reason", envelope.getOrNull "finish_reason"),
      ("usage", (envelope.getOrNull "usage").or .null)]
    Op.modify (fun s => { s with lastCallStop := none })
    return some envelope

/-- `record_usage` -/
def recordUsage (envelope : Document) : Task W Unit := do
  let spent ← Op.gets (·.spent)
  let counted ← Op.lift (spent.addTokens (envelope.getOrNull "usage"))
  spend (fun _ => counted)
  let priced ← Op.lift (counted.addCost (envelope.getOrNull "cost"))
  spend (fun _ => priced)

/-! ### Tools -/

/-- `_bounded_result` -/
def boundedResult (result : Value) : String :=
  let text := match result with
    | .str s => s
    | v => E.dumps v
  if 4000 < text.length then
    String.ofList (text.toList.take 4000) ++ s!"... [truncated {text.length - 4000} chars]"
  else text

/-- A tool is run. -/
def runTool (callId : Option String) (name : String) (argument : Value) : Task W Value := do
  note (.executed callId name)
  onWorld E (E.ports.tool name argument)

/-- `_execute_tool` -/
def executeTool (name : String) (arguments : Value) (callId : String) (step : Nat) : Task W (Option Reason) := do
  spend (fun p => { p with toolCallsMade := p.toolCallsMade + 1 })
  record E "tool_call" [("step", .int step), ("tool", .str name), ("call_id", .str callId), ("arguments", arguments)]
  match ← Op.result (runTool E (some callId) name arguments) with
  | .ok result => do
    record E "tool_result" [("step", .int step), ("tool", .str name), ("call_id", .str callId),
      ("result", .str (boundedResult E result))]
    say (.tool (boundedResult E result) (some callId))
    return none
  | .error e =>
    if e.isToolError then do
      record E "tool_error" [("step", .int step), ("tool", .str name), ("call_id", .str callId), ("error", .str e.message)]
      say (.tool s!"tool error: {e.message}" (some callId))
      return none
    else Op.raise e

/-- A call of a tool is refused, and the model is told. -/
def deny (step : Nat) (name : String) (details : List (String × Value)) (m : Message) : Task W (Option Reason) := do
  record E "tool_denied" ([("step", .int step), ("tool", .str name)] ++ details)
  say m
  return none

/-- A call whose arguments are read, within the budget. -/
def callDeclared (name : String) (arguments : List (String × Value)) (callId : String) (step : Nat) :
    Task W (Option Reason) :=
  if !E.tools.contains name then
    deny E step name [("call_id", .str callId), ("reason", .str "unknown_tool")]
      (.tool s!"tool not available: {name}" (some callId))
  else
    let violations := match declarationOf name with
      | none => []
      | some declaration => validateToolArguments arguments declaration.parameters
    if violations ≠ [] then
      deny E step name [("call_id", .str callId), ("reason", .str "arguments_schema_mismatch"),
        ("violations", .arr (violations.map .str))]
        (.tool ("tool arguments rejected: " ++ "; ".intercalate violations) (some callId))
    else executeTool E name (.obj arguments) callId step

/-- `_run_native_tool_call` -/
def runNativeToolCall (call : Value) (step : Nat) : Task W (Option Reason) := do
  let callId := if (call.member "id").truthy then E.str (call.member "id") else ""
  let name := if (call.member "name").truthy then E.str (call.member "name") else ""
  if callId = "" then
    deny E step (if name = "" then "(none)" else name) [("reason", .str "missing_call_id")]
      (.tool "tool denied: missing call_id" none)
  else
    let executed ← Op.gets (fun s => s.session.executedCallIds.contains callId)
    if executed then
      deny E step name [("call_id", .str callId), ("reason", .str "duplicate_call_id")]
        (.tool s!"tool denied: duplicate call_id {callId}" (some callId))
    else
      onSession (fun s => { s with executedCallIds := s.executedCallIds ++ [callId] })
      match parseToolArguments E.loads (call.member "arguments") with
      | .error e =>
        deny E step name [("call_id", .str callId), ("reason", .str "invalid_arguments"), ("error", .str e)]
          (.tool s!"tool arguments rejected: {e}" (some callId))
      | .ok arguments =>
        match ← Op.gets (fun s => s.spent.toolCallAllowed E.limits) with
        | some reason => return some reason
        | none => callDeclared E name arguments callId step

/-- `note_legacy_call` -/
def noteLegacyCall (step : Nat) : Task W String := do
  onSession (fun s => { s with legacyCallSeq := s.legacyCallSeq + 1 })
  let seq ← Op.gets (·.session.legacyCallSeq)
  return s!"legacy-{step}-{seq}"

/-- `_run_legacy_tool` -/
def runLegacyTool (decision : Value) (step : Nat) : Task W (Option Reason) := do
  let name := E.str ((decision.get? "tool").getD (.str ""))
  match ← Op.gets (fun s => s.spent.toolCallAllowed E.limits) with
  | some reason => return some reason
  | none =>
    if !E.tools.contains name then
      deny E step name [] (.user s!"observation: tool not available: {name}")
    else
      let callId ← noteLegacyCall step
      spend (fun p => { p with toolCallsMade := p.toolCallsMade + 1 })
      record E "tool_call" [("step", .int step), ("tool", .str name), ("call_id", .str callId),
        ("input", decision.member "input")]
      match ← Op.result (runTool E none name (decision.member "input")) with
      | .ok result => do
        record E "tool_result" [("step", .int step), ("tool", .str name), ("call_id", .str callId),
          ("result", .str (boundedResult E result))]
        say (.user s!"observation: {boundedResult E result}")
        return none
      | .error e =>
        if e.isToolError then do
          record E "tool_error" [("step", .int step), ("tool", .str name), ("call_id", .str callId),
            ("error", .str e.message)]
          say (.user s!"observation: tool error: {e.message}")
          return none
        else Op.raise e

/-! ### One step of a turn -/

/-- What a step of a turn ends with. -/
inductive Flow where
  | again
  | stop (reason : Reason) (detail : Option String) (finalOutput : Value)

/-- Stop for a reason other than an answer. -/
def halt (reason : Reason) (detail : Option String) : Flow := .stop reason detail .null

/-- The content of a message: a text, or a list of parts. -/
def checkContent (v : Value) : Except Fault Unit :=
  match v with
  | .str _ => .ok ()
  | .arr items => if items.all Value.isObj then .ok () else .error (.error "ValidationError" "content")
  | _ => .error (.error "ValidationError" "content")

/-- The content of a response, an empty text when it has none. -/
def contentOf (envelope : Document) : Value := (envelope.get "content").getD (.str "")

/-- The tool calls of one response, one after the other. -/
def runCalls (step : Nat) : List Value → Task W Flow
  | [] => return .again
  | call :: rest => do
    if ← cancelled E then return halt .cancelled none
    else
      match ← turnDeadlineExpired E step with
      | some (reason, detail) => return halt reason (some detail)
      | none =>
        match ← runNativeToolCall E call step with
        | some reason => return halt reason (some "stopped during tool calls")
        | none => runCalls step rest

/-- A response in native mode. -/
def nativeResponse (envelope : Document) (step : Nat) : Task W Flow := do
  let toolCalls ← Op.lift (((envelope.getOrNull "tool_calls").list).mapError Fault.ofAccess)
  if toolCalls = [] then
    record E "final_answer" [("step", .int step), ("answer", contentOf envelope)]
    return .stop .finalAnswer none (contentOf envelope)
  else
    Op.lift (checkContent (contentOf envelope))
    Op.lift (ensure (toolCalls.all Value.isObj = true) (.error "TypeError" "tool_calls"))
    say { role := .assistant, content := contentOf envelope, toolCalls := toolCalls }
    runCalls E step toolCalls

/-- `_parse_decision` -/
def parseDecision (content : Value) : Except Fault (Option Value) :=
  match content with
  | .str s =>
    match E.loads s with
    | .error _ => .ok none
    | .ok v =>
      if !v.isObj then .ok none
      else
        match v.member "action" with
        | .str action => .ok (if action = "tool" || action = "final" then some v else none)
        | .arr _ | .obj _ => .error (.error "TypeError" "unhashable type")
        | _ => .ok none
  | _ => .ok none

/-- The decision is a final answer. -/
def isFinal (decision : Value) : Bool := decision.member "action" = .str "final"

/-- A response in legacy mode. -/
def legacyResponse (envelope : Document) (step : Nat) : Task W Flow := do
  let content := E.str (contentOf envelope)
  match ← Op.lift (parseDecision E (contentOf envelope)) with
  | none => do
    record E "invalid_response" [("step", .int step), ("content", .str (String.ofList (content.toList.take 2000)))]
    say (.assistant content)
    say (.user "observation: invalid response; reply with a single JSON object")
    if E.limits.maxSteps ≤ step then return halt .maxSteps (some "invalid responses exhausted budget")
    else return .again
  | some decision => do
    say (.assistant content)
    if isFinal decision then
      record E "final_answer" [("step", .int step), ("answer", decision.member "answer")]
      return .stop .finalAnswer none (decision.member "answer")
    else if ← cancelled E then
      return halt .cancelled (some "cancelled between model response and tool execution")
    else
      match ← turnDeadlineExpired E step with
      | some (reason, detail) => return halt reason (some detail)
      | none =>
        match ← runLegacyTool E decision step with
        | some reason => return halt reason (some "stopped during tool call")
        | none => return if E.limits.maxSteps ≤ step then halt .maxSteps (some "budget exhausted") else .again

/-- What follows a response of the model. -/
def afterResponse (envelope : Document) (step : Nat) : Task W Flow := do
  recordUsage envelope
  match ← wallOrUsageStop E with
  | some reason => do
    record E "model_response" [("step", .int step), ("finish_reason", envelope.getOrNull "finish_reason")]
    return halt reason (some "observed after model response")
  | none =>
    if ← cancelled E then return halt .cancelled (some "cancelled after model response")
    else
      match E.mode with
      | .nativeTool => nativeResponse E envelope step
      | .legacyJson => legacyResponse E envelope step

/-- A step that the budget allows. -/
def allowedStep (step : Nat) : Task W Flow := do
  record E "step_started" [("step", .int step)]
  if ← cancelled E then return halt .cancelled none
  else
    match ← callModel E step with
    | none => do
      let reason ← Op.gets (fun s => s.lastCallStop.getD .error)
      return halt reason none
    | some envelope => afterResponse E envelope step

/-- One round of the loop. -/
def turnStep : Task W Flow := do
  onSession (fun s => { s with steps := s.steps + 1 })
  let step ← Op.gets (·.session.steps)
  match ← stepAllowed E step with
  | some reason => return halt reason (some s!"blocked before step {step}")
  | none => allowedStep E step

/-! ### A turn -/

/-- What a turn returns. -/
structure TurnOutcome where
  finalOutput : Value
  terminationReason : Reason
  terminationDetail : Option String
  steps : Nat
  toolCalls : Nat
  events : List AgentEvent
  messages : List Message
  promptVersion : String
  turn : Nat

/-- The loop of `_run_loop`, for so many rounds at most; nothing when they do not suffice. -/
def turnLoop : Nat → Task W (Option (Reason × Option String × Value))
  | 0 => return none
  | fuel + 1 => do
    match ← turnStep E with
    | .stop reason detail finalOutput => return some (reason, detail, finalOutput)
    | .again => turnLoop fuel

/-- `_run_loop`; the rounds that the budget leaves, and one more that it refuses. -/
def runLoop (prompt : String) : Task W (Option TurnOutcome) := do
  let start ← Op.gets (·.session.steps)
  let events ← Op.gets (·.session.events.length)
  onSession (fun s => { s with turns := s.turns + 1 })
  say (.user prompt)
  match ← turnLoop E (E.limits.maxSteps - start + 1) with
  | none => return none
  | some (reason, detail, finalOutput) => do
    let steps ← Op.gets (·.session.steps)
    record E "terminated" [("reason", .str reason.name), ("detail", GateRule.nullable .str detail), ("steps", .int steps)]
    poll E
    onSession (·.recordTermination reason detail finalOutput)
    let t ← Op.gets id
    return some {
      finalOutput := finalOutput
      terminationReason := reason
      terminationDetail := detail
      steps := t.session.steps - start
      toolCalls := t.spent.toolCallsMade
      events := t.session.events.drop events
      messages := t.session.messages
      promptVersion := E.mode.promptVersion
      turn := t.session.turns }

/-- What a request to the agent is answered with. -/
inductive Reply where
  /-- `SessionStateError` -/
  | refused (reason : String)
  | turn (outcome : TurnOutcome)
  /-- The turn raised. -/
  | raised (e : Fault)
  /-- The turn did not come to an end. -/
  | unfinished
  /-- What is not a turn is done. -/
  | done

/-- `send` -/
def send (prompt : String) (deadline : Option ℚ) : Task W Reply := do
  match ← Op.gets (·.session.sendRefusal) with
  | some reason => return .refused reason
  | none => do
    let previous ← Op.gets (·.turnDeadline)
    Op.modify (fun s => { s with turnDeadline := deadline })
    let outcome ← Op.result (runLoop E prompt)
    match outcome with
    | .ok none => return .unfinished
    | .ok (some outcome) => do
      Op.modify (fun s => { s with turnDeadline := previous })
      return .turn outcome
    | .error e => do
      onSession (·.markFailed e)
      Op.modify (fun s => { s with turnDeadline := previous })
      return .raised e

/-! ### A conversation -/

/-- What is asked of an agent. -/
inductive Request where
  | send (prompt : String) (deadline : Option ℚ)
  | demand (d : Demand)

/-- The agent does what it is asked. -/
def serve (request : Request) (s : Runtime W) : Reply × Runtime W :=
  match request with
  | .demand d => (.done, s.demand d)
  | .send prompt deadline =>
    match send E prompt deadline s with
    | (.ok reply, t) => (reply, t)
    | (.error e, t) => (.raised e, t)

/-- The agent does one thing after the other. -/
def converse : List Request → Runtime W → List Reply × Runtime W
  | [], s => ([], s)
  | request :: rest, s =>
    let (reply, t) := serve E request s
    let (replies, u) := converse rest t
    (reply :: replies, u)

end

end Motte.Agent
