import Motte.Storage.Record

/-! Agent invocations: the durable boundary around one model or tool call.

An invocation is prepared, then dispatching, then settled. The table is changed
by two operations only, `create` and `transition`; both run inside the caller's
transaction. A stored invocation carries the proof that it passes its contract
(`Invocation.Valid`), so a later transition cannot be refused for what is already
stored: it can only lose the compare-and-set. -/
namespace Motte.Storage
open Foundation

inductive InvocationStatus where
  | prepared | dispatching | settled
deriving DecidableEq, Repr

/-- `INVOCATION_TRANSITIONS` -/
def InvocationStatus.transitions : InvocationStatus → List InvocationStatus
  | .prepared => [.dispatching, .settled]
  | .dispatching => [.settled]
  | .settled => []

def InvocationStatus.name : InvocationStatus → String
  | .prepared => "prepared"
  | .dispatching => "dispatching"
  | .settled => "settled"

inductive CallOutcome where
  | succeeded | failed | indeterminate
deriving DecidableEq, Repr

inductive InvocationKind where
  | model | tool
deriving DecidableEq, Repr

inductive InvocationPurpose where
  | subject | judge
deriving DecidableEq, Repr

/-- A subject owner names its run and attempt, both optional on input; a
calibration owner names its job and sample. -/
inductive InvocationOwner where
  | subject (runId attemptId : Option String)
  | calibration (calibrationJobId sampleId : String)
deriving DecidableEq

/-- The fields of an invocation that its contract, its owner check or a settlement
touches; the others (request summary, model, earlier timestamps) are in `fields`. -/
structure InvocationBody where
  id : String
  runId : String
  caseId : String
  attemptId : Option String := none
  kind : InvocationKind
  step : Int
  outcome : Option CallOutcome := none
  toolName : Option String := none
  settledAt : Option Timestamp := none
  resultSummary : Option Fields := none
  purpose : InvocationPurpose := .subject
  jobId : Option String := none
  scoringPassId : Option String := none
  criterionId : Option String := none
  fields : Fields := ∅

/-- An invocation as a caller hands it to `create`. -/
structure InvocationRecord extends InvocationBody where
  status : Option InvocationStatus := none
  revision : Option Int := none
  owner : Option InvocationOwner := none

/-- An invocation with its status, its owner in normal form, and its revision. -/
structure Invocation extends InvocationBody where
  status : InvocationStatus
  owner : InvocationOwner
  revision : Int

/-! ### Validation -/

def contractError (reason : String) : Err :=
  .value ("invocation does not match the contract: " ++ reason)

/-- The `InvocationRecord` contract: nonempty identities, a positive step, an
outcome exactly when settled, a tool name exactly for tool calls. -/
def checkContract (b : InvocationBody) (status : InvocationStatus) : Except Err Unit := do
  ensure (b.id ≠ "") (contractError "id")
  ensure (b.runId ≠ "") (contractError "run_id")
  ensure (b.caseId ≠ "") (contractError "case_id")
  ensure (1 ≤ b.step) (contractError "step")
  ensure (status = .settled → b.outcome ≠ none) (contractError "settled invocation requires an outcome")
  ensure (status = .settled → b.settledAt ≠ none) (contractError "settled invocation requires settled_at")
  ensure (status ≠ .settled → b.outcome = none)
    (contractError "only settled invocations carry an outcome")
  ensure (b.kind = .tool → b.toolName ≠ none ∧ b.toolName ≠ some "")
    (contractError "tool invocation requires tool_name")
  ensure (b.kind = .model → b.toolName = none) (contractError "model invocation cannot carry tool_name")

/-- `_validate_owner`: the owner in normal form. -/
def validateOwner (b : InvocationBody) : InvocationOwner → Except Err InvocationOwner
  | .subject runId attemptId => do
    ensure (runId = none ∨ runId = some b.runId) (.value "subject invocation owner must match the run")
    ensure (starts "calibration:" b.runId = false)
      (.value "subject invocation cannot use a calibration owner reference")
    return .subject (some b.runId) (if attemptId = none ∨ attemptId = some "" then b.attemptId else attemptId)
  | .calibration calibrationJobId sampleId => do
    ensure (calibrationJobId ≠ "") (.value "calibration owner requires calibration_job_id")
    ensure (sampleId ≠ "") (.value "calibration owner requires sample_id")
    ensure (b.runId = "calibration:" ++ calibrationJobId)
      (.value ("calibration invocation must use the namespaced owner reference 'calibration:" ++
        calibrationJobId ++ "', never a fabricated Run"))
    ensure (b.caseId = sampleId)
      (.value "calibration invocation case_id must be the calibration sample id")
    ensure (b.kind = .model) (.value "calibration invocations must be model calls")
    ensure (b.purpose = .judge) (.value "calibration invocations must be judge-purpose calls")
    return .calibration calibrationJobId sampleId

/-- `validate_invocation`: the contract, the owner, and the scoring job id that
judge calls carry and no others may. -/
def validateInvocation (b : InvocationBody) (status : InvocationStatus) (owner : Option InvocationOwner) :
    Except Err InvocationOwner := do
  checkContract b status
  let owner ← validateOwner b (owner.getD (.subject (some b.runId) none))
  ensure (b.purpose = .judge → b.jobId ≠ none ∧ b.jobId ≠ some "")
    (.value "judge invocations must carry the scoring job id")
  ensure (b.purpose ≠ .judge → b.jobId = none)
    (.value "only judge invocations may carry a scoring job id")
  return owner

def Invocation.Valid (i : Invocation) : Prop :=
  validateInvocation i.toInvocationBody i.status (some i.owner) = .ok i.owner

/-- A row of `agent_invocations`. -/
abbrev StoredInvocation := {i : Invocation // i.Valid}

theorem validateOwner_normal {b : InvocationBody} {owner normal : InvocationOwner}
    (h : validateOwner b owner = .ok normal) : validateOwner b normal = .ok normal := by
  cases owner with
  | subject runId attemptId =>
    simp only [validateOwner, except_bind_ok_iff, ensure_ok_iff, except_pure_ok_iff, exists_const] at h
    obtain ⟨_, hcal, rfl⟩ := h
    simp only [validateOwner, except_bind_ok_iff, ensure_ok_iff, except_pure_ok_iff, exists_const]
    refine ⟨.inr trivial, hcal, ?_⟩
    by_cases ha : attemptId = none ∨ attemptId = some ""
    · simp only [if_pos ha, ite_self]
    · simp only [if_neg ha]
  | calibration calibrationJobId sampleId =>
    have hn := h
    simp only [validateOwner, except_bind_ok_iff, ensure_ok_iff, except_pure_ok_iff, exists_const] at hn
    obtain ⟨_, _, _, _, _, _, rfl⟩ := hn
    exact h

theorem validateInvocation_ok_iff {b : InvocationBody} {status : InvocationStatus}
    {owner : Option InvocationOwner} {normal : InvocationOwner} :
    validateInvocation b status owner = .ok normal ↔
      checkContract b status = .ok () ∧
      validateOwner b (owner.getD (.subject (some b.runId) none)) = .ok normal ∧
      (b.purpose = .judge → b.jobId ≠ none ∧ b.jobId ≠ some "") ∧
      (b.purpose ≠ .judge → b.jobId = none) := by
  simp only [validateInvocation, except_bind_ok_iff, ensure_ok_iff, except_pure_ok_iff, exists_const]
  constructor
  · rintro ⟨_, hc, o, ho, hj, hn, rfl⟩
    exact ⟨hc, ho, hj, hn⟩
  · rintro ⟨hc, ho, hj, hn⟩
    exact ⟨(), hc, normal, ho, hj, hn, rfl⟩

/-- An owner in normal form is validated to itself. -/
theorem validateInvocation_normal {b : InvocationBody} {status : InvocationStatus}
    {owner : Option InvocationOwner} {normal : InvocationOwner}
    (h : validateInvocation b status owner = .ok normal) :
    validateInvocation b status (some normal) = .ok normal := by
  obtain ⟨hc, ho, hj, hn⟩ := validateInvocation_ok_iff.1 h
  exact validateInvocation_ok_iff.2 ⟨hc, validateOwner_normal ho, hj, hn⟩

/-- Validate and pack: what `create` and `transition` both store. -/
def storeInvocation (b : InvocationBody) (status : InvocationStatus) (owner : Option InvocationOwner)
    (revision : Int) : Except Err StoredInvocation :=
  match h : validateInvocation b status owner with
  | .error e => .error e
  | .ok normal => .ok ⟨⟨b, status, normal, revision⟩, validateInvocation_normal h⟩

theorem storeInvocation_ok {b : InvocationBody} {status : InvocationStatus}
    {owner : Option InvocationOwner} {revision : Int} {i : StoredInvocation}
    (h : storeInvocation b status owner revision = .ok i) :
    i.1.toInvocationBody = b ∧ i.1.status = status ∧ i.1.revision = revision := by
  unfold storeInvocation at h
  split at h
  · cases h
  · cases h
    exact ⟨rfl, rfl, rfl⟩

theorem storeInvocation_of_valid {b : InvocationBody} {status : InvocationStatus}
    {owner : Option InvocationOwner} {normal : InvocationOwner}
    (h : validateInvocation b status owner = .ok normal) (revision : Int) :
    ∃ i, storeInvocation b status owner revision = .ok i := by
  unfold storeInvocation
  split
  · rename_i e he
    rw [h] at he
    cases he
  · exact ⟨_, rfl⟩

/-! ### The table -/

abbrev Invocations := Table String StoredInvocation

/-- `create_invocation_in_transaction` and `MemoryInvocations.create`: status and
revision default to `prepared` and 1; an id is used once. -/
def Invocations.create (t : Invocations) (r : InvocationRecord) :
    Except Err (StoredInvocation × Invocations) := do
  let stored ← storeInvocation r.toInvocationBody (r.status.getD .prepared) r.owner (r.revision.getD 1)
  ensure (t.get r.id = none) (.runConflict ("invocation already exists: " ++ r.id))
  return (stored, t.set r.id stored)

/-- What a transition writes besides status and revision. -/
structure InvocationChanges where
  outcome : Option CallOutcome := none
  settledAt : Option Timestamp := none
  resultSummary : Option Fields := none
  fields : Fields := ∅

def InvocationChanges.apply (c : InvocationChanges) (b : InvocationBody) : InvocationBody :=
  {b with
    outcome := c.outcome.or b.outcome
    settledAt := c.settledAt.or b.settledAt
    resultSummary := c.resultSummary.or b.resultSummary
    fields := b.fields.merge c.fields}

/-- `transition_invocation_in_transaction` and `MemoryInvocations.transition`:
compare revision and status, check the transition table, validate, and write. -/
def Invocations.transition (t : Invocations) (id : String) (expectedRevision : Int)
    (expectedStatus status : InvocationStatus) (changes : InvocationChanges) :
    Except Err (StoredInvocation × Invocations) := do
  match t.get id with
  | none => throw (.runConflict ("invocation missing: " ++ id))
  | some current =>
    ensure (current.1.revision = expectedRevision ∧ current.1.status = expectedStatus)
      (.runConflict ("invocation revision or status changed: " ++ id))
    ensure (status ∈ expectedStatus.transitions)
      (.value ("invalid invocation transition: " ++ expectedStatus.name ++ " -> " ++ status.name))
    let stored ← storeInvocation (changes.apply current.1.toInvocationBody) status
      (some current.1.owner) (expectedRevision + 1)
    return (stored, t.set id stored)

/-! ### What the two operations do -/

theorem Invocations.create_ok {t t' : Invocations} {r : InvocationRecord} {i : StoredInvocation}
    (h : t.create r = .ok (i, t')) :
    t.get r.id = none ∧ t' = t.set r.id i ∧ i.1.id = r.id ∧ i.1.status = r.status.getD .prepared ∧
      i.1.revision = r.revision.getD 1 := by
  simp only [create, except_bind_ok_iff, ensure_ok_iff, except_pure_ok_iff, exists_const,
    Prod.mk.injEq] at h
  obtain ⟨stored, hs, hnew, rfl, rfl⟩ := h
  obtain ⟨hb, hst, hrev⟩ := storeInvocation_ok hs
  exact ⟨hnew, rfl, by rw [hb], hst, hrev⟩

/-- A transition that succeeds found the revision and status it expected and
moves the row on by one. -/
theorem Invocations.transition_ok {t t' : Invocations} {id : String} {rev : Int}
    {st st' : InvocationStatus} {c : InvocationChanges} {i : StoredInvocation}
    (h : t.transition id rev st st' c = .ok (i, t')) :
    (∃ current, t.get id = some current ∧ current.1.revision = rev ∧ current.1.status = st ∧
        i.1.id = current.1.id) ∧
      i.1.status = st' ∧ i.1.revision = rev + 1 ∧ t' = t.set id i := by
  unfold transition at h
  split at h
  · cases h
  · rename_i current hget
    simp only [except_bind_ok_iff, ensure_ok_iff, except_pure_ok_iff, exists_const, Prod.mk.injEq] at h
    obtain ⟨⟨hrev, hst⟩, _, stored, hs, rfl, rfl⟩ := h
    obtain ⟨hb, hst', hrev'⟩ := storeInvocation_ok hs
    exact ⟨⟨current, hget, hrev, hst, by rw [hb]; rfl⟩, hst', hrev', rfl⟩

/-- What settling writes: the outcome, the result summary and the time. -/
def settledWith (outcome : CallOutcome) (summary : Fields) (now : Timestamp) : InvocationChanges :=
  {outcome := some outcome, settledAt := some now, resultSummary := some summary}

/-- Settling a stored invocation passes its contract again. -/
theorem Invocation.settle_valid {i : Invocation} (hv : i.Valid) (o : CallOutcome) (f : Fields)
    (now : Timestamp) :
    validateInvocation ((settledWith o f now).apply i.toInvocationBody) .settled (some i.owner) =
      .ok i.owner := by
  obtain ⟨hc, ho, hj, hn⟩ := validateInvocation_ok_iff.1 hv
  refine validateInvocation_ok_iff.2 ⟨?_, ?_, hj, hn⟩
  · simp only [checkContract, except_bind_ok_iff, ensure_ok_iff, exists_const] at hc ⊢
    obtain ⟨h1, h2, h3, h4, _, _, _, h8, h9⟩ := hc
    exact ⟨h1, h2, h3, h4, fun _ => by simp [InvocationChanges.apply, settledWith],
      fun _ => by simp [InvocationChanges.apply, settledWith], fun h => absurd rfl h, h8, h9⟩
  · -- the owner check reads none of the changed fields
    cases hi : i.owner <;> rw [hi] at ho <;> exact ho

/-- The compare-and-set is the only way settling can fail. -/
theorem Invocations.settle_of_match {t : Invocations} {id : String} {rev : Int} {st : InvocationStatus}
    {current : StoredInvocation} (hget : t.get id = some current) (hrev : current.1.revision = rev)
    (hst : current.1.status = st) (hopen : .settled ∈ st.transitions) (o : CallOutcome) (f : Fields)
    (now : Timestamp) :
    ∃ i, t.transition id rev st .settled (settledWith o f now) = .ok (i, t.set id i) := by
  obtain ⟨i, hi⟩ := storeInvocation_of_valid (Invocation.settle_valid current.2 o f now) (rev + 1)
  refine ⟨i, ?_⟩
  unfold transition
  rw [hget]
  simp only [except_bind_ok_iff, ensure_ok_iff, except_pure_ok_iff, exists_const]
  exact ⟨⟨hrev, hst⟩, hopen, i, hi, rfl⟩

end Motte.Storage
