import Motte.Assertions.Matcher

/-! Response policies.

A policy requires and forbids what its matchers match in a stream of items: the actions of
a log, the tool calls, or the final output. Too many matches of what is required and any
match of what is forbidden are violations whatever is still missing; too few matches and a
wrong order are looked at only when the stream is complete. -/
namespace Motte.Assertions
open Foundation

inductive Violation where
  | countExceeded (matcher : Matcher) (matched maximum : ℕ)
  | forbidden (matcher : Matcher) (matched : ℕ)
  | missing (matcher : Matcher) (matched minimum : ℕ)
  | order (requirements : List Matcher)
deriving DecidableEq

def Violation.kind : Violation → String
  | .countExceeded .. => "action_count_exceeded"
  | .forbidden .. => "forbidden_match"
  | .missing .. => "required_match_missing"
  | .order _ => "action_order_violation"

inductive Details where
  | none
  | error (text : String)
  | refusal (evidenceId : String) (ref : Option EvidenceRef) (error : Option String)
  | checker (seconds : ℚ) (error : Option String)
  | violations (violations : List Violation) (scope : Option (List String))
  | evidence (source : Option String) (scope : List String)
  | tools (tools scope : List String)
  | matched (source : String) (scope : List String) (items : ℕ)
  | monitored (scope : List String) (actions toolCalls : ℕ) (logs : List String)

/-- `MetricResult`, as far as it differs between results. -/
structure MetricResult where
  metricId : String
  unit : Option String
  status : MetricStatus
  passed : Option Bool
  reason : Option String
  denominator : Bool
  details : Details
  refs : List String

/-- What every metric has. -/
structure Header where
  metricId : String
  unit : Option String

namespace Header
variable (h : Header)

/-- `_base_metric` -/
def result (status : MetricStatus) (passed : Option Bool) (reason : Option String) (details : Details) (refs : List String) :
    MetricResult :=
  { metricId := h.metricId, unit := h.unit, status, passed, reason, denominator := status = .scored, details, refs }

/-- `_config_error` -/
def configError (message : String) : MetricResult := h.result .evaluatorError none "config_error" (.error message) []

/-- `_deadline_error` -/
def deadlineError : MetricResult := h.result .evaluatorError none "eval_deadline_exceeded" .none []

/-- `_insufficient` -/
def insufficient (reason : String) (details : Details) (refs : List String) : MetricResult :=
  h.result .insufficientEvidence none reason details refs

/-- A log that is refused (`_refusal_result`), or whose payload is no log. -/
def logFailure : LogFailure → MetricResult
  | .refused evidenceId e =>
    h.result e.status none e.reason (.refusal ((e.ref.map EvidenceRef.evidenceId).getD evidenceId) e.ref e.detail) []
  | .invalid error artifactId => h.result .evaluatorError none "action_log_invalid" (.error error) [artifactId]

def failed (reason : Option String) (details : Details) (refs : List String) : MetricResult :=
  h.result .scored (some false) reason details refs

def succeeded (details : Details) (refs : List String) : MetricResult := h.result .scored (some true) none details refs

end Header

/-! ### Options -/

/-- A response-policy metric. -/
structure PolicyMetric where
  header : Header
  source : String := "action_log"
  log : Option String := none
  require : List Matcher := []
  forbid : List Matcher := []
  ordered : Bool := true
  flags : List String := []
  timeoutSec : Option ℚ := none

structure PolicyOptions where
  require : List Matcher
  forbid : List Matcher
  ordered : Bool
  flags : RegexFlags

/-- `_matcher_list` -/
def matcherList (key : String) (matchers : List Matcher) : Except String (List Matcher) :=
  match matchers.findSome? Matcher.problem with
  | some problem => .error (key ++ ": " ++ problem)
  | none => .ok matchers

def regexFlagNames : List String := ["dotall", "ignore_case", "multiline"]

/-- `_policy_flags` -/
def policyFlags (names : List String) : Except String RegexFlags := do
  let unknown := (names.filter (· ∉ regexFlagNames)).dedup.insertionSort (· ≤ ·)
  ensure unknown.isEmpty ("unsupported regex flags: " ++ ", ".intercalate unknown)
  return { ignoreCase := "ignore_case" ∈ names, multiline := "multiline" ∈ names, dotall := "dotall" ∈ names }

/-- `_policy_options` -/
def policyOptions (metric : PolicyMetric) : Except String PolicyOptions := do
  let require ← matcherList "require" metric.require
  let forbid ← matcherList "forbid" metric.forbid
  ensure (!(require.isEmpty && forbid.isEmpty)) "response-policy requires a nonempty require or forbid list"
  ensure (∀ seconds ∈ metric.timeoutSec, 0 < seconds) "timeout_sec must be a positive number"
  let flags ← policyFlags metric.flags
  return { require, forbid, ordered := metric.ordered, flags }

/-! ### Streams -/

structure PolicyStream where
  source : String
  items : List Item
  refs : List String
  complete : Bool
  scope : List String
  incompleteReason : Option String := none

/-- The items of the log at an index. -/
def logItems (index : ℕ) (log : ActionLog) : List Item :=
  log.actions.map (fun record =>
    { order := index * orderScale + record.seq, step := record.step, name := record.action
      target := record.target.elim .null .str, status := record.status, text := record.detail, callId := record.callId })

/-- `_action_log_items` -/
def actionLogItems (logs : List ActionLog) : List Item := (logs.zipIdx.map (fun log => logItems log.2 log.1)).flatten

/-- `a or b` -/
def orElse (a b : Value) : Value := if a.truthy then a else b

/-- `mapping.get(key)` -/
def at? (members : List (String × Value)) (key : String) : Value := (members.lookup key).getD .null

/-- `_tool_call_items` -/
def toolCallItems (lib : Library) (calls : List ToolCall) : List Item :=
  calls.zipIdx.map (fun call =>
    { order := call.2 + 1, step := call.1.step, name := call.1.toolName
      target := orElse (at? call.1.arguments "target") (at? call.1.arguments "path")
      status := call.1.status, text := some (lib.dumps (.obj call.1.arguments)), callId := some call.1.callId })

section
variable (ctx : Context) (obs : Observation)

/-- Why what is read of a log cannot be all. -/
def logIncomplete (obs : Observation) (ref : EvidenceRef) : Option String :=
  if !ref.complete then some "action_log_incomplete"
  else if ref.monitoredScope.isEmpty then some "monitoring_scope_undeclared"
  else if !obs.coverageComplete then some "capture_incomplete"
  else none

def policySources : List String := ["action_log", "tool_calls", "final_output"]

/-- `_policy_stream`, with what reads a log. -/
def policyStream (read : String → Except LogFailure ReadLog) (reprText : String → String) (metric : PolicyMetric) :
    Except MetricResult PolicyStream :=
  let h := metric.header
  if metric.source = "final_output" then
    match obs.finalOutput with
    | .null => .error (h.insufficient "final_output_missing" .none [])
    | output =>
      let text := match output with
        | .str text => text
        | output => ctx.lib.dumps output
      .ok {
        source := metric.source
        items := [{ order := 1, step := 1, name := "final_output", target := .null, status := .succeeded, text, callId := none }]
        refs := [], complete := true, scope := ["final_output"] }
  else if metric.source = "tool_calls" then
    if !obs.coverageComplete then .error (h.insufficient "tool_trajectory_incomplete" .none [])
    else .ok { source := metric.source, items := toolCallItems ctx.lib obs.toolCalls, refs := [], complete := true
               scope := ["tool_calls"] }
  else if metric.source = "action_log" then
    match metric.log with
    | none => .error (h.configError "source action_log requires log")
    | some logId =>
      if logId = "" then .error (h.configError "source action_log requires log")
      else match read logId with
        | .error failure => .error (h.logFailure failure)
        | .ok r =>
          .ok { source := metric.source, items := actionLogItems [r.log], refs := [r.ref.artifactId]
                complete := (logIncomplete obs r.ref).isNone, scope := r.ref.monitoredScope
                incompleteReason := logIncomplete obs r.ref }
  else .error (h.configError ("unsupported source: " ++ reprText metric.source))

end

/-! ### Verdicts -/

/-- `_confirmed_policy_violations` -/
def confirmedViolations (require forbid : List (Matcher × List ℕ)) : List Violation :=
  require.filterMap (fun entry =>
    match entry.1.maxCount with
    | some maximum => if maximum < entry.2.length then some (.countExceeded entry.1 entry.2.length maximum) else none
    | none => none) ++
  forbid.filterMap (fun entry => if entry.2.isEmpty then none else some (.forbidden entry.1 entry.2.length))

/-- `int(matcher.get("min_count", 1))`, which a null has not. -/
def Matcher.minimum (m : Matcher) : Except String ℕ :=
  match m.minCount with
  | none => .ok 1
  | some (some minimum) => .ok minimum
  | some none => .error "TypeError"

/-- The loop of `_order_satisfied`; the cursor is the key that was taken last. -/
def orderFrom : Option ℕ → List (Matcher × List ℕ) → Except String Bool
  | _, [] => .ok true
  | cursor, (m, keys) :: rest => do
    if (← m.minimum) < 1 then orderFrom cursor rest
    else match keys.find? (fun key => cursor.all (· < key)) with
      | none => return false
      | some candidate => orderFrom (some candidate) rest

/-- The matchers of which there are too few matches. -/
def missingMatches : List (Matcher × List ℕ) → Except String (List Violation)
  | [] => .ok []
  | (m, keys) :: rest => do
    let minimum ← m.minimum
    let others ← missingMatches rest
    return if keys.length < minimum then .missing m keys.length minimum :: others else others

/-- `_completeness_policy_violations` -/
def completenessViolations (require : List (Matcher × List ℕ)) (ordered : Bool) : Except String (List Violation) := do
  let missing ← missingMatches require
  if missing.isEmpty && ordered then
    return if ← orderFrom none require then [] else [.order (require.map Prod.fst)]
  else return missing

/-- Each matcher with its keys. -/
def keysOf (lib : Library) (items : List Item) (flags : RegexFlags) (seconds : ℚ) (matchers : List Matcher) :
    Except CheckerError (List (Matcher × List ℕ)) :=
  matchers.mapM (fun m => do return (m, ← matcherKeys lib items m flags seconds))

/-- What the keys come to. -/
def policyVerdict (h : Header) (stream : PolicyStream) (ordered : Bool) (require forbid : List (Matcher × List ℕ)) :
    Except String MetricResult :=
  match confirmedViolations require forbid with
  | first :: rest => .ok (h.failed first.kind (.violations (first :: rest) none) stream.refs)
  | [] =>
    if !stream.complete then
      .ok (h.insufficient (stream.incompleteReason.getD "evidence_incomplete") (.evidence stream.source stream.scope) stream.refs)
    else do
      match ← completenessViolations require ordered with
      | first :: rest => return h.failed first.kind (.violations (first :: rest) none) stream.refs
      | [] => return h.succeeded (.matched stream.source stream.scope stream.items.length) stream.refs

/-- The rest of `evaluate_response_policy`, once there is a stream. -/
def judgePolicy (lib : Library) (h : Header) (seconds : ℚ) (options : PolicyOptions) (stream : PolicyStream) :
    Except String MetricResult :=
  match (do
    let require ← keysOf lib stream.items options.flags seconds options.require
    let forbid ← keysOf lib stream.items options.flags seconds options.forbid
    return (require, forbid)) with
  | .error (.timeout text) => .ok (h.result .evaluatorError none "checker_timeout" (.checker seconds text) stream.refs)
  | .error (.failure detail) => .ok (h.result .evaluatorError none "checker_execution_error" (.error detail) stream.refs)
  | .ok (require, forbid) => policyVerdict h stream options.ordered require forbid

/-- `_effective_timeout` -/
def effectiveTimeout (ctx : Context) (timeoutSec : Option ℚ) : ℚ :=
  let requested := timeoutSec.elim ctx.regexTimeout (min · ctx.regexTimeout)
  ctx.remaining.elim requested (fun remaining => min requested (max remaining 0))

/-- `evaluate_response_policy`, with what reads a log. -/
def evaluateResponsePolicyWith (ctx : Context) (obs : Observation) (read : String → Except LogFailure ReadLog)
    (metric : PolicyMetric) : Except String MetricResult :=
  match policyOptions metric with
  | .error problem => .ok (metric.header.configError problem)
  | .ok options =>
    if ctx.expired then .ok metric.header.deadlineError
    else match policyStream ctx obs read ctx.lib.repr metric with
      | .error result => .ok result
      | .ok stream => judgePolicy ctx.lib metric.header (effectiveTimeout ctx metric.timeoutSec) options stream

/-- `evaluate_response_policy` -/
def evaluateResponsePolicy (ctx : Context) (obs : Observation) (metric : PolicyMetric) : Except String MetricResult :=
  evaluateResponsePolicyWith ctx obs (readLog ctx obs) metric

end Motte.Assertions
