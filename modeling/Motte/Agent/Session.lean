import Motte.Foundation.Access
import Motte.Foundation.Double
import Motte.Gate.Evidence

/-! A session of the built-in agent: its messages, its budget, and what ends it.

A session belongs to one case. It counts the steps of all its turns, and only a final
answer leaves it open for the next turn. -/
namespace Motte.Agent
open Foundation Gate

/-! ### Reasons and states -/

/-- `TERMINATION_REASONS` -/
inductive Reason where
  | finalAnswer
  | maxSteps
  | maxToolCalls
  | wallTime
  | tokenLimit
  | costLimit
  | cancelled
  | perCallTimeout
  | error
deriving DecidableEq

def Reason.name : Reason → String
  | .finalAnswer => "final_answer"
  | .maxSteps => "max_steps"
  | .maxToolCalls => "max_tool_calls"
  | .wallTime => "wall_time"
  | .tokenLimit => "token_limit"
  | .costLimit => "cost_limit"
  | .cancelled => "cancelled"
  | .perCallTimeout => "per_call_timeout"
  | .error => "error"

/-- `SESSION_STATES` -/
inductive SessionState where
  | idle
  | active
  | terminated
  | closed
deriving DecidableEq

def SessionState.name : SessionState → String
  | .idle => "idle"
  | .active => "active"
  | .terminated => "terminated"
  | .closed => "closed"

/-! ### What can be raised -/

inductive Fault where
  /-- `AgentFatalError` -/
  | fatal (message : String)
  /-- `ProviderCallTimeout` -/
  | callTimeout (message : String)
  /-- Any other `Exception`. -/
  | error (typeName message : String)
  /-- What is no `Exception`. -/
  | base (typeName message : String)
deriving DecidableEq

namespace Fault

def typeName : Fault → String
  | .fatal _ => "AgentFatalError"
  | .callTimeout _ => "ProviderCallTimeout"
  | .error typeName _ => typeName
  | .base typeName _ => typeName

def message : Fault → String
  | .fatal message => message
  | .callTimeout message => message
  | .error _ message => message
  | .base _ message => message

/-- A tool failure, which is told to the model. -/
def isToolError : Fault → Bool
  | .callTimeout _ | .error _ _ => true
  | .fatal _ | .base _ _ => false

def ofAccess : AccessError → Fault
  | .attribute => .error "AttributeError" ""
  | .type => .error "TypeError" ""

end Fault

/-! ### Messages and events -/

inductive Role where
  | user
  | assistant
  | tool
deriving DecidableEq

/-- `Message` -/
structure Message where
  role : Role
  content : Value
  /-- Empty when there are none. -/
  toolCalls : List Value := []
  toolCallId : Option String := none
deriving DecidableEq

namespace Message

def user (content : String) : Message := { role := .user, content := .str content }

def assistant (content : String) : Message := { role := .assistant, content := .str content }

def tool (content : String) (callId : Option String) : Message :=
  { role := .tool, content := .str content, toolCallId := callId }

/-- An answer: an assistant message that calls no tool. -/
def isAnswer (m : Message) : Bool := m.role = .assistant && m.toolCalls = []

end Message

structure AgentEvent where
  type : String
  payload : List (String × Value)

/-! ### The budget -/

/-- The limits of an `ExecutionBudget`. -/
structure Limits where
  maxSteps : Nat := 8
  maxToolCalls : Option Nat := none
  wallTimeSec : Option ℚ := none
  perCallTimeoutSec : Option ℚ := none
  maxOutputTokens : Option Nat := none
  totalTokenLimit : Option Int := none
  observedCostLimit : Option Double := none

/-- What an `ExecutionBudget` counts. -/
structure Spent where
  perCallTimeoutEnforced : Bool := false
  toolCallsMade : Nat := 0
  usageReported : Bool := false
  totalTokens : Int := 0
  observedCost : Double := .zero

namespace Spent

/-- `record_usage`, the tokens -/
def addTokens (spent : Spent) (usage : Value) : Except Fault Spent :=
  match usage.member "total_tokens" with
  | .null => .ok spent
  | .int n =>
    if n < 0 then .error (.error "BudgetConfigError" "usage.total_tokens must be non-negative")
    else .ok { spent with usageReported := true, totalTokens := spent.totalTokens + n }
  | _ => .error (.error "BudgetConfigError" "usage.total_tokens must be a non-negative integer")

/-- A cost that is a finite number and no truth value. -/
def costOf : Value → Option Double
  | .int n => Double.ofInt n
  | .float bits => if Double.isFinite ⟨bits⟩ then some ⟨bits⟩ else none
  | _ => none

/-- The sum of two floats, rounded. -/
def plus (x y : Double) : Double := ⟨(Float.ofBits x.bits + Float.ofBits y.bits).toBits⟩

/-- `record_usage`, the cost -/
def addCost (spent : Spent) (cost : Value) : Except Fault Spent :=
  match cost.member "total" with
  | .null => .ok spent
  | total =>
    match costOf total with
    | none => .error (.error "BudgetConfigError" "cost.total must be finite")
    | some c =>
      if c.lt .zero then .error (.error "BudgetConfigError" "cost.total must be non-negative")
      else .ok { spent with observedCost := plus spent.observedCost c }

/-- The usage alone decides, without the clock. -/
def usageStop (spent : Spent) (limits : Limits) : Option Reason :=
  if limits.totalTokenLimit.any (fun limit => spent.usageReported && limit < spent.totalTokens) then some .tokenLimit
  else if limits.observedCostLimit.any (fun limit => limit.lt spent.observedCost) then some .costLimit
  else none

/-- `tool_call_allowed` -/
def toolCallAllowed (spent : Spent) (limits : Limits) : Option Reason :=
  if limits.maxToolCalls.any (· ≤ spent.toolCallsMade) then some .maxToolCalls else none

end Spent

/-! ### The session -/

/-- `BuiltinSession` -/
structure BuiltinSession where
  messages : List Message := []
  executedCallIds : List String := []
  events : List AgentEvent := []
  eventSeq : Nat := 0
  steps : Nat := 0
  turns : Nat := 0
  legacyCallSeq : Nat := 0
  state : SessionState := .idle
  begun : Bool := false
  closed : Bool := false
  cancelled : Bool := false
  terminationReason : Option Reason := none
  terminationDetail : Option String := none
  finalOutput : Value := .null

namespace BuiltinSession

/-- A session that `begin` has made. -/
def fresh : BuiltinSession := { begun := true, state := .active }

/-- `send_refusal` -/
def sendRefusal (s : BuiltinSession) : Option String :=
  if !s.begun then some "session has not begun; call begin() before send()"
  else if s.cancelled then some "session was interrupted; send() is refused"
  else if s.closed then some "session is closed; send() is refused"
  else if s.state ≠ .active then
    let reason := (s.terminationReason.map Reason.name).getD s.state.name
    some s!"session is terminal ({reason}); send() is refused"
  else none

/-- `cancel` -/
def cancel (s : BuiltinSession) : BuiltinSession :=
  { s with
    cancelled := true
    terminationReason := some (s.terminationReason.getD .cancelled)
    state := if s.closed then s.state else .terminated }

/-- `close` -/
def close (s : BuiltinSession) : BuiltinSession :=
  if s.closed then s else { s with closed := true, state := if s.state = .terminated then s.state else .closed }

/-- `record_termination` -/
def recordTermination (s : BuiltinSession) (reason : Reason) (detail : Option String) (finalOutput : Value) :
    BuiltinSession :=
  { s with
    terminationReason := some reason
    terminationDetail := detail
    finalOutput := finalOutput
    state :=
      if s.closed then s.state
      else if reason = .finalAnswer && !s.cancelled then .active
      else .terminated }

/-- `mark_failed` -/
def markFailed (s : BuiltinSession) (e : Fault) : BuiltinSession :=
  { s with
    terminationReason := some .error
    terminationDetail := some s!"{e.typeName}: {e.message}"
    state := if s.closed then s.state else .terminated }

/-- `record_event` -/
def recordEvent (s : BuiltinSession) (event : AgentEvent) : BuiltinSession :=
  { s with eventSeq := s.eventSeq + 1, events := s.events ++ [event] }

end BuiltinSession

/-- Nothing can be sent to the session. -/
def BuiltinSession.Shut (s : BuiltinSession) : Prop := s.cancelled = true ∨ s.closed = true ∨ s.state ≠ .active

theorem BuiltinSession.refused_iff {s : BuiltinSession} (hbegun : s.begun = true) : s.sendRefusal ≠ none ↔ s.Shut := by
  unfold BuiltinSession.sendRefusal BuiltinSession.Shut
  cases s.cancelled <;> cases s.closed <;> by_cases hstate : s.state = .active <;> simp [hbegun, hstate]

end Motte.Agent
