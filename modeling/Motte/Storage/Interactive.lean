import Motte.Foundation.Run
import Motte.Storage.Run

/-! Interactive sessions and the commands sent to them.

A worker keeps one session record; clients queue commands against it, and the
worker claims them one by one. A command that approves or rejects something names
an approval of the session: its claim marks the approval in the session record,
in the same transaction. Every call checks first and writes last, so the stores
that roll back and the one that does not leave the same state behind. -/
namespace Motte.Storage
open Foundation

/-! ### Records -/

/-- What `deadline` makes of a stored text. -/
inductive Deadline where
  | instant (t : Int)
  /-- a time without a zone -/
  | naive
  | invalid
deriving DecidableEq, Repr

/-- An entry of `pending_approvals`. -/
structure Approval where
  requestHash : String
  expiresAt : Deadline
  /-- the other members that name the action -/
  action : Fields
  state : String
  claimedCommandId : Option String
  resolutionEvidence : Json
deriving DecidableEq

structure Session where
  sessionId : String
  runId : String
  caseId : String
  workerToken : String
  /-- `attempt_id`, `operation_id`, `start_token` and the other members that never change -/
  identity : Fields
  revision : Int
  controlRevision : Int
  state : String
  nativeThreadId : Json
  activeTurnId : Json
  pendingApprovals : Table String Approval
  fields : Fields

/-- `COMMAND_TRANSITIONS` has these keys. -/
inductive CommandStatus where
  | queued | delivered | acknowledged | failed | rejected | expired | deliveryUnknown
deriving DecidableEq, Repr

namespace CommandStatus

def name : CommandStatus → String
  | queued => "queued"
  | delivered => "delivered"
  | acknowledged => "acknowledged"
  | failed => "failed"
  | rejected => "rejected"
  | expired => "expired"
  | deliveryUnknown => "delivery_unknown"

/-- `COMMAND_TRANSITIONS` -/
def transitions : CommandStatus → List CommandStatus
  | queued => [delivered, failed, rejected, expired]
  | delivered => [acknowledged, failed, deliveryUnknown, rejected, expired]
  | acknowledged | failed | rejected | expired | deliveryUnknown => []

/-- A dispatch intent never returns to the queue, and is made from the queue only. -/
theorem transitions_spec {a b : CommandStatus} (h : b ∈ a.transitions) :
    b ≠ queued ∧ (b = delivered → a = queued) := by
  cases a <;> cases b <;> simp_all [transitions]

end CommandStatus

structure Command where
  id : String
  runId : String
  caseId : Option String
  sessionId : Option String
  type : String
  approvalId : Option String
  requestHash : Option String
  expectedSessionRevision : Option Int
  expiresAt : Deadline
  dedupeKey : String
  intentHash : String
  status : CommandStatus
  revision : Int
  fields : Fields
deriving DecidableEq

/-- What the calls read of a run. -/
structure RunFacts where
  status : String
  cancelling : Bool
deriving DecidableEq

/-- The tables the two repositories share. -/
structure Desk where
  runs : Table String RunFacts
  sessions : Table String Session
  commands : Table String Command
  events : List StoredEvent

/-! ### Sessions -/

/-- A record given to `create`; what is left out gets its default. -/
structure SessionInput where
  sessionId : String
  runId : String
  caseId : String
  workerToken : String
  attemptId : String
  operationId : String
  startToken : String
  revision : Option Int
  controlRevision : Option Int
  state : Option String
  nativeThreadId : Json
  activeTurnId : Json
  pendingApprovals : Option (Table String Approval)
  identity : Fields
  fields : Fields

def requireMember (key value : String) : Except Err Unit := ensure (value ≠ "") (.value ("session requires " ++ key))

def storedSession (r : SessionInput) : Session where
  sessionId := r.sessionId
  runId := r.runId
  caseId := r.caseId
  workerToken := r.workerToken
  identity := r.identity
  revision := r.revision.getD 1
  controlRevision := r.controlRevision.getD 1
  state := r.state.getD "prepared"
  nativeThreadId := r.nativeThreadId
  activeTurnId := r.activeTurnId
  pendingApprovals := r.pendingApprovals.getD ∅
  fields := r.fields

/-- `RuntimeSessions.create` -/
def createSession (r : SessionInput) : Op Desk Err Session := do
  Op.lift do
    requireMember "session_id" r.sessionId
    requireMember "run_id" r.runId
    requireMember "case_id" r.caseId
    requireMember "attempt_id" r.attemptId
    requireMember "operation_id" r.operationId
    requireMember "start_token" r.startToken
    requireMember "worker_token" r.workerToken
    ensure (r.revision.getD 1 = 1) (.value "new session must have revision 1")
  let run ← Op.gets (·.runs.get r.runId)
  Op.lift (ensure (run ≠ none) (.runConflict "session run missing"))
  let existing ← Op.gets (fun s => (s.sessions.get r.sessionId).isNone)
  Op.lift (ensure (existing = true) (.runConflict "session already exists"))
  Op.modify (fun s => { s with sessions := s.sessions.set r.sessionId (storedSession r) })
  pure (storedSession r)

/-- What a transition changes; `identities` are the members of `SESSION_IDENTITIES` it names. -/
structure SessionChanges where
  identities : List String
  state : Option String
  nativeThreadId : Option Json
  activeTurnId : Option Json
  pendingApprovals : Option (Table String Approval)
  fields : Fields

structure SessionTransition where
  sessionId : String
  expectedRevision : Int
  expectedState : String
  changes : SessionChanges

def sessionStates : List String := ["prepared", "starting", "active", "stopping", "terminal", "abandoned"]

/-- A native id, once bound, is not replaced. -/
def keepsBound (previous : Json) (change : Option Json) : Prop :=
  previous.truthy = true → ∀ value ∈ change, value = previous

instance (previous : Json) (change : Option Json) : Decidable (keepsBound previous change) :=
  inferInstanceAs (Decidable (_ → _))

/-- All members but the three that a transition may change. -/
def Approval.sameAction (a b : Approval) : Prop :=
  a.requestHash = b.requestHash ∧ a.expiresAt = b.expiresAt ∧ a.action = b.action

instance (a b : Approval) : Decidable (a.sameAction b) := inferInstanceAs (Decidable (_ ∧ _))

/-- One stored approval against what comes in under its key. -/
def checkApproval (incoming : Table String Approval) (key : String) (approval : Approval) : Except Err Unit :=
  match incoming.get key with
  | none => .error (.value "approval identity/action is immutable")
  | some new => do
    ensure (approval.sameAction new) (.value "approval identity/action is immutable")
    ensure (approval.state ∈ ["resolved", "expired", "abandoned"] → new.state = approval.state)
      (.value "closed approval cannot reopen")

def checkApprovals (incoming : Table String Approval) : List (String × Approval) → Except Err Unit
  | [] => .ok ()
  | (key, approval) :: rest => do
    checkApproval incoming key approval
    checkApprovals incoming rest

/-- The same entries, in whichever order. -/
def sameEntries (a b : Table String Approval) : Bool :=
  a.rows.all (fun r => b.get r.1 = some r.2) && b.rows.all (fun r => a.get r.1 = some r.2)

/-- A change that commands bound to the session have to notice. -/
def changesControl (previous : Session) (c : SessionChanges) : Bool :=
  c.state.any (· ≠ previous.state) || c.nativeThreadId.any (· ≠ previous.nativeThreadId) ||
    c.activeTurnId.any (· ≠ previous.activeTurnId) ||
    c.pendingApprovals.any (fun approvals => !sameEntries approvals previous.pendingApprovals)

def changedSession (previous : Session) (expectedRevision : Int) (c : SessionChanges) : Session :=
  { previous with
    state := c.state.getD previous.state
    nativeThreadId := c.nativeThreadId.getD previous.nativeThreadId
    activeTurnId := c.activeTurnId.getD previous.activeTurnId
    pendingApprovals := c.pendingApprovals.getD previous.pendingApprovals
    fields := previous.fields.merge c.fields
    revision := expectedRevision + 1
    controlRevision := if changesControl previous c then previous.controlRevision + 1 else previous.controlRevision }

/-- The checks of `RuntimeSessions.transition` on the record it finds. -/
def checkTransition (previous : Session) (r : SessionTransition) : Except Err Unit := do
  ensure (previous.revision = r.expectedRevision ∧ previous.state = r.expectedState)
    (.runConflict "session revision/state changed")
  ensure (previous.state ≠ "terminal" ∧ previous.state ≠ "abandoned") (.runConflict "session is closed")
  ensure (r.changes.state.getD previous.state ∈ sessionStates) (.value "unknown runtime session state")
  ensure (keepsBound previous.nativeThreadId r.changes.nativeThreadId)
    (.value "native session identity is immutable once bound")
  ensure (keepsBound previous.activeTurnId r.changes.activeTurnId)
    (.value "native session identity is immutable once bound")
  match r.changes.pendingApprovals with
  | none => .ok ()
  | some incoming => checkApprovals incoming previous.pendingApprovals.rows

/-- `RuntimeSessions.transition` -/
def transitionSession (r : SessionTransition) : Op Desk Err Session := do
  Op.lift (ensure (r.changes.identities = []) (.value "session identity is immutable"))
  let found ← Op.gets (·.sessions.get r.sessionId)
  match found with
  | none => Op.raise (.runConflict "session revision/state changed")
  | some previous =>
    Op.lift (checkTransition previous r)
    let stored := changedSession previous r.expectedRevision r.changes
    Op.modify (fun s => { s with sessions := s.sessions.set stored.sessionId stored })
    pure stored

/-! ### Commands -/

/-- `deadline`, compared with the clock. -/
def beforeDeadline (now : Int) (expiresAt : Deadline) (late : String) : Except Err Unit :=
  match expiresAt with
  | .invalid => .error (.runConflict "invalid command/approval deadline")
  | .naive => .error (.runConflict "deadline must have a timezone")
  | .instant t => ensure (now < t) (.runConflict late)

def decides (type : String) : Bool := type = "approve" || type = "reject"

/-- `check_binding`: the session a command is bound to, if it is still the one it was sent to. -/
def checkBinding (run : Option RunFacts) (session : Option Session) (command : Command) (now : Int) :
    Except Err Session := do
  ensure (run.any (fun r => r.status = "running" && (!r.cancelling || command.type = "interrupt")) = true)
    (.runConflict "run is not active or is cancelling")
  match session with
  | none => .error (.runConflict "session is not active")
  | some session =>
    ensure (session.state = "active") (.runConflict "session is not active")
    ensure (command.runId = session.runId ∧ command.caseId = some session.caseId ∧
      command.sessionId = some session.sessionId) (.runConflict "command session binding mismatch")
    ensure (command.expectedSessionRevision = some session.controlRevision)
      (.runConflict "session control revision mismatch")
    beforeDeadline now command.expiresAt "command expired"
    if decides command.type then
      match command.approvalId.bind session.pendingApprovals.get with
      | none => .error (.runConflict "approval is not pending")
      | some approval =>
        ensure (approval.state = "pending") (.runConflict "approval is not pending")
        ensure (command.requestHash = some approval.requestHash) (.runConflict "approval request hash mismatch")
        beforeDeadline now approval.expiresAt "approval expired"
    .ok session

/-- A record given to `create_or_get`, with the id to take where it has none. -/
structure CommandInput where
  id : Option String
  freshId : String
  runId : String
  status : Option String
  revision : Option Int
  dedupeKey : Option String
  intentHash : Option String
  caseId : Option String
  sessionId : Option String
  type : String
  approvalId : Option String
  requestHash : Option String
  expectedSessionRevision : Option Int
  expiresAt : Deadline
  fields : Fields
  event : Option Event
  now : Int

/-- `new_record`, and what `create_or_get` asks beside it. -/
def newCommand (r : CommandInput) : Except Err Command := do
  let id := r.id.getD r.freshId
  ensure (id ≠ "") (.value "id must be a nonempty string")
  ensure (r.runId ≠ "") (.value "run_id must be a nonempty string")
  ensure (r.status.getD "queued" = "queued" ∧ r.revision.getD 1 = 1)
    (.value "new command must start as queued at revision 1")
  ensure (r.dedupeKey.getD "" ≠ "" ∧ r.intentHash.getD "" ≠ "")
    (.value "command requires dedupe key and canonical intent hash")
  return { id := id, runId := r.runId, caseId := r.caseId, sessionId := r.sessionId, type := r.type
           approvalId := r.approvalId, requestHash := r.requestHash
           expectedSessionRevision := r.expectedSessionRevision, expiresAt := r.expiresAt
           dedupeKey := r.dedupeKey.getD "", intentHash := r.intentHash.getD "", status := .queued, revision := 1
           fields := r.fields }

def putCommand (c : Command) : Op Desk Err Unit :=
  Op.modify (fun s => { s with commands := s.commands.set c.id c })

def putSession (x : Session) : Op Desk Err Unit :=
  Op.modify (fun s => { s with sessions := s.sessions.set x.sessionId x })

def audit (event : Option Event) (runId : String) : Op Desk Err Unit :=
  Op.modify (fun s => { s with events := appendBound s.events runId event })

/-- The command of the run that has the dedupe key. -/
def deduped (s : Desk) (runId dedupeKey : String) : Option Command :=
  (s.commands.rows.map Prod.snd).find? (fun c => c.runId = runId && c.dedupeKey = dedupeKey)

/-- `InteractiveCommands.create_or_get` -/
def createOrGet (r : CommandInput) : Op Desk Err (Command × Bool) := do
  let stored ← Op.lift (newCommand r)
  let pending ← Op.lift (validateEvent r.event stored.runId)
  let run ← Op.gets (·.runs.get stored.runId)
  let existing ← Op.gets (fun s => deduped s stored.runId stored.dedupeKey)
  match existing with
  | some existing =>
    Op.lift (ensure (existing.intentHash = stored.intentHash)
      (.runConflict "dedupe key has a different command intent"))
    pure (existing, false)
  | none =>
    let session ← Op.gets (fun s => stored.sessionId.bind s.sessions.get)
    let _ ← Op.lift (checkBinding run session stored r.now)
    let taken ← Op.gets (·.commands.get stored.id)
    Op.lift (ensure (taken = none) (.runConflict "command already exists"))
    putCommand stored
    audit pending stored.runId
    pure (stored, true)

/-- The members `advance_record` keeps. -/
def protectedKeys : List String := ["id", "run_id", "case_id", "attempt_no", "trial_id", "revision", "status"]

/-- `COMMAND_IDENTITIES` -/
def commandIdentities : List String :=
  ["session_id", "expected_session_revision", "dedupe_key", "intent_hash", "request_hash", "payload", "type",
    "content", "actor", "expires_at", "created_at", "intervention"]

/-- `advance_record` on a command. -/
def advanceCommand (current : Command) (expectedRevision : Int) (expectedStatus status : CommandStatus)
    (changes : Fields) : Except Err Command := do
  ensure (current.revision = expectedRevision ∧ current.status = expectedStatus)
    (.runConflict "record revision or status changed")
  ensure (status ∈ expectedStatus.transitions)
    (.value ("invalid transition: " ++ expectedStatus.name ++ " -> " ++ status.name))
  ensure (changes.names protectedKeys = false)
    (.value "transition changes cannot replace identity, revision or status")
  return { current with
    fields := current.fields.merge changes, status := status, revision := expectedRevision + 1 }

structure ClaimRequest where
  commandId : String
  expectedRevision : Int
  sessionId : String
  expectedControlRevision : Int
  workerToken : String
  now : Int
  /-- `delivered_at`, `execution_token`, `worker_token` -/
  stamps : Fields
  event : Option Event

def claimChecks (s : Desk) (r : ClaimRequest) (command : Command) :
    Except Err (Session × Command × Option Event) := do
  let session ← checkBinding (s.runs.get command.runId) (s.sessions.get r.sessionId) command r.now
  ensure (session.workerToken = r.workerToken ∧ session.controlRevision = r.expectedControlRevision)
    (.runConflict "session owner/revision changed")
  let stored ← advanceCommand command r.expectedRevision .queued .delivered r.stamps
  let delivered : Event := { type := "command_delivered", fields := Finmap.singleton "command_id" (.str r.commandId) }
  let pending ← validateEvent (some (r.event.getD delivered)) command.runId
  return (session, stored, pending)

/-- The session with an approval reserved for a command. -/
def reserve (session : Session) (approvalId commandId : String) : Session :=
  match session.pendingApprovals.get approvalId with
  | none => session
  | some approval => { session with
      pendingApprovals := session.pendingApprovals.set approvalId
        { approval with state := "claimed", claimedCommandId := some commandId }
      revision := session.revision + 1 }

/-- `InteractiveCommands.claim` -/
def claimCommand (r : ClaimRequest) : Op Desk Err Command := do
  let found ← Op.gets (·.commands.get r.commandId)
  match found with
  | none => Op.raise (.runConflict "command missing")
  | some command =>
    let s ← Op.gets id
    let (session, stored, pending) ← Op.lift (claimChecks s r command)
    match command.approvalId.filter (fun _ => decides command.type) with
    | some approvalId => putSession (reserve session approvalId r.commandId)
    | none => pure ()
    putCommand stored
    audit pending command.runId
    pure stored

structure CommandTransition where
  commandId : String
  expectedRevision : Int
  expectedStatus : CommandStatus
  status : CommandStatus
  changes : Fields
  event : Option Event

/-- `InteractiveCommands.transition` -/
def transitionCommand (r : CommandTransition) : Op Desk Err Command := do
  Op.lift (ensure (r.changes.names commandIdentities = false) (.value "command intent/binding is immutable"))
  let found ← Op.gets (·.commands.get r.commandId)
  match found with
  | none => Op.raise (.runConflict "command missing")
  | some previous =>
    let stored ← Op.lift (advanceCommand previous r.expectedRevision r.expectedStatus r.status r.changes)
    let moved : Event :=
      { type := "command_" ++ r.status.name, fields := Finmap.singleton "command_id" (.str r.commandId) }
    let pending ← Op.lift (validateEvent (some (r.event.getD moved)) stored.runId)
    putCommand stored
    audit pending stored.runId
    pure stored

/-! ### The system -/

/-- The calls of clients and workers, and what the run repository does meanwhile. -/
inductive DeskRequest where
  | setRun (runId : String) (run : RunFacts)
  | createSession (r : SessionInput)
  | transitionSession (r : SessionTransition)
  | createOrGet (r : CommandInput)
  | claim (r : ClaimRequest)
  | transitionCommand (r : CommandTransition)

inductive DeskAnswer where
  | none
  | session (x : Session)
  | command (c : Command)
  | submitted (c : Command) (created : Bool)

def serveDesk : DeskRequest → Op Desk Err DeskAnswer
  | .setRun runId run => do
    Op.modify (fun s => { s with runs := s.runs.set runId run })
    pure .none
  | .createSession r => createSession r >>= fun x => pure (.session x)
  | .transitionSession r => transitionSession r >>= fun x => pure (.session x)
  | .createOrGet r => createOrGet r >>= fun a => pure (.submitted a.1 a.2)
  | .claim r => claimCommand r >>= fun c => pure (.command c)
  | .transitionCommand r => transitionCommand r >>= fun c => pure (.command c)

def deskStep (r : DeskRequest) (s : Desk) : Desk := (serveDesk r s).2

def emptyDesk : Desk := ⟨∅, ∅, ∅, []⟩

end Motte.Storage
