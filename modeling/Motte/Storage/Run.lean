import Motte.Storage.Record

/-! Runs and their trace events as records.

A run is revised by compare-and-set: each operation names the revision it was
computed from, and the record it stores is at the next one. The functions here
are what the SQLite and the in-memory repository have in common; each reads the
stored run and gives the run to be stored, or raises. -/
namespace Motte.Storage
open Foundation

/-! ### Records -/

/-- A stored run. Members other than the four that are checked are in `fields`. -/
structure Run where
  id : String
  status : Option String
  revision : Int
  schemaVersion : Int
  fields : Fields := ∅
deriving DecidableEq

/-- A run as a caller hands it to `create` or `update`: revision and schema version may be absent. -/
structure RunInput where
  id : String
  status : Option String := none
  revision : Option Int := none
  schemaVersion : Option Int := none
  fields : Fields := ∅

/-- `stored_run` -/
def storedRun (r : Run) (revision : Int) : Run :=
  {r with revision, schemaVersion := if revision = 0 then 1 else 2}

/-- `stored_run` of a caller's record -/
def RunInput.stored (r : RunInput) (revision : Int) : Run :=
  storedRun ⟨r.id, r.status, revision, 2, r.fields⟩ revision

/-- `new_run` -/
def newRun (r : RunInput) : Except Err Run := do
  ensure (r.id ≠ "") (.value "run.id must be a nonempty string")
  ensure (r.status ≠ none ∧ r.status ≠ some "") (.value "run.status must be a nonempty string")
  ensure (r.revision.getD 1 = 1 ∧ r.schemaVersion.getD 2 = 2)
    (.value "new runs must use revision=1 and schema_version=2")
  return r.stored 1

/-- `next_run` -/
def nextRun (r : RunInput) (expectedRevision : Int) : Except Err Run := do
  ensure (0 ≤ expectedRevision) (.value "expected_revision must be a nonnegative integer")
  ensure (∀ revision ∈ r.revision, revision = expectedRevision)
    (.runConflict "run payload revision differs from expected_revision")
  return r.stored (expectedRevision + 1)

/-- A stored run as the argument of `next_run`. -/
def Run.input (r : Run) : RunInput :=
  ⟨r.id, r.status, some r.revision, some r.schemaVersion, r.fields⟩

/-- The members that `changes` may never name. -/
def protectedRunMembers : List String := ["id", "revision", "schema_version", "status"]

/-! ### Events -/

/-- A trace event as a caller hands it over; the run id may be absent. -/
structure Event where
  runId : Option String := none
  type : String
  fields : Fields := ∅
deriving DecidableEq

structure StoredEvent where
  runId : String
  seq : Int
  type : String
  fields : Fields := ∅
deriving DecidableEq

/-- `validate_event`: the event of an operation on one run is bound to it. -/
def validateEvent (event : Option Event) (runId : String) : Except Err (Option Event) :=
  match event with
  | none => return none
  | some e => do
    ensure ((e.runId.getD runId) = runId ∧ e.type ≠ "")
      (.value "event must have a type and match the run_id")
    return some {e with runId := some runId}

/-- The next sequence number of a run's events. -/
def nextSeq (events : List StoredEvent) (runId : String) : Int :=
  ((events.filter (fun e => e.runId = runId)).map (·.seq)).foldl max 0 + 1

/-- `_append_event` -/
def appendEvent (events : List StoredEvent) (e : Event) : Except Err (List StoredEvent) :=
  match e.runId with
  | none => throw (.key "run_id")
  | some runId => return events ++ [⟨runId, nextSeq events runId, e.type, e.fields⟩]

/-- `_append_event` of an event that is bound to a run. -/
def appendBound (events : List StoredEvent) (runId : String) : Option Event → List StoredEvent
  | none => events
  | some e => events ++ [⟨runId, nextSeq events runId, e.type, e.fields⟩]

/-- Append events one by one, as far as they carry a run id. -/
def appendEvents (events : List StoredEvent) : List Event → List StoredEvent × Except Err Unit
  | [] => (events, .ok ())
  | e :: rest =>
    match appendEvent events e with
    | .error err => (events, .error err)
    | .ok events' => appendEvents events' rest

/-! ### Operations on one run -/

structure RunUpdateRequest where
  run : RunInput
  expectedRevision : Int
  expectedStatus : Option String := none
  event : Option Event := none

structure RunTransitionRequest where
  runId : String
  expectedRevision : Int
  expectedStatus : String
  status : String
  changes : Fields := ∅
  event : Option Event := none

/-- `update`: a change of status has to be announced by the status it starts from. -/
def updateRun (r : RunUpdateRequest) (previous : Run) : Except Err Run := do
  ensure (previous.revision = r.expectedRevision) (.runConflict ("run revision changed: " ++ r.run.id))
  match r.expectedStatus with
  | some status =>
    ensure (previous.status = some status) (.runConflict ("run status changed: " ++ r.run.id))
  | none =>
    ensure (previous.status = r.run.status)
      (.value "state changes require expected_status; use transition")
  nextRun r.run r.expectedRevision

/-- `transition`, once `changes` is known to name no protected member. -/
def transitionRun (r : RunTransitionRequest) (previous : Run) : Except Err Run := do
  ensure (previous.revision = r.expectedRevision) (.runConflict ("run revision changed: " ++ r.runId))
  ensure (previous.status = some r.expectedStatus) (.runConflict ("run status changed: " ++ r.runId))
  nextRun {previous.input with status := some r.status, fields := previous.fields.merge r.changes}
    r.expectedRevision

/-- `claim` of a run that is there. -/
def claimRun (runId : String) (previous : Run) : Except Err Run := do
  ensure (previous.status = some "queued") (.runConflict ("run is not queued: " ++ runId))
  nextRun {previous.input with status := some "preparing"} previous.revision

/-- The event a claim records. -/
def preparingEvent (runId : String) : Event where
  runId := some runId
  type := "preparing"
  fields := (∅ : Fields).insert "status" (.str "preparing")

/-- `INTERRUPTED_STATES` -/
def interruptedStates : List String := ["preparing", "running", "collecting", "scoring"]

/-- The requeueing of one interrupted run. -/
def requeueRun (previous : Run) : Except Err Run :=
  nextRun {previous.input with status := some "queued"} previous.revision

/-- Whether `requeue_interrupted` touches a run. -/
def Run.interrupted (r : Run) : Bool := interruptedStates.any (fun s => r.status = some s)

/-! ### What is stored is one revision on -/

@[simp] theorem storedRun_revision (r : Run) (revision : Int) : (storedRun r revision).revision = revision := rfl

@[simp] theorem stored_revision (r : RunInput) (revision : Int) : (r.stored revision).revision = revision := rfl

@[simp] theorem stored_id (r : RunInput) (revision : Int) : (r.stored revision).id = r.id := rfl

theorem nextRun_ok {r : RunInput} {rev : Int} {u : Run} (h : nextRun r rev = .ok u) :
    0 ≤ rev ∧ u = r.stored (rev + 1) := by
  simp only [nextRun, except_bind_ok_iff, ensure_ok_iff, except_pure_ok_iff, exists_const] at h
  exact ⟨h.1, h.2.2.symm⟩

theorem newRun_ok {r : RunInput} {u : Run} (h : newRun r = .ok u) : r.id ≠ "" ∧ u = r.stored 1 := by
  simp only [newRun, except_bind_ok_iff, ensure_ok_iff, except_pure_ok_iff, exists_const] at h
  exact ⟨h.1, h.2.2.2.symm⟩

theorem updateRun_ok {r : RunUpdateRequest} {previous u : Run} (h : updateRun r previous = .ok u) :
    previous.revision = r.expectedRevision ∧ u = r.run.stored (r.expectedRevision + 1) := by
  simp only [updateRun, except_bind_ok_iff, ensure_ok_iff, exists_const] at h
  obtain ⟨hrev, h⟩ := h
  split at h
  · simp only [except_bind_ok_iff, ensure_ok_iff, exists_const] at h
    exact ⟨hrev, (nextRun_ok h.2).2⟩
  · simp only [except_bind_ok_iff, ensure_ok_iff, exists_const] at h
    exact ⟨hrev, (nextRun_ok h.2).2⟩

theorem transitionRun_ok {r : RunTransitionRequest} {previous u : Run}
    (h : transitionRun r previous = .ok u) :
    previous.revision = r.expectedRevision ∧ previous.status = some r.expectedStatus ∧
      u = storedRun {previous with status := some r.status, fields := previous.fields.merge r.changes}
        (r.expectedRevision + 1) := by
  simp only [transitionRun, except_bind_ok_iff, ensure_ok_iff, exists_const] at h
  obtain ⟨hrev, hst, h⟩ := h
  exact ⟨hrev, hst, (nextRun_ok h).2⟩

theorem claimRun_ok {runId : String} {previous u : Run} (h : claimRun runId previous = .ok u) :
    previous.status = some "queued" ∧
      u = storedRun {previous with status := some "preparing"} (previous.revision + 1) := by
  simp only [claimRun, except_bind_ok_iff, ensure_ok_iff, exists_const] at h
  exact ⟨h.1, (nextRun_ok h.2).2⟩

theorem requeueRun_ok {previous u : Run} (h : requeueRun previous = .ok u) :
    u = storedRun {previous with status := some "queued"} (previous.revision + 1) := (nextRun_ok h).2

end Motte.Storage
