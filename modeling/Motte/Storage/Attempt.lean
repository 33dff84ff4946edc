import Motte.Storage.Run

/-! Case attempts and case results as records.

An attempt is one try at one case of a run, possibly bound to a planned trial. It
is prepared, dispatched, and ends succeeded, failed or indeterminate; an
indeterminate attempt still blocks the next one. The result of a case is written
once. -/
namespace Motte.Storage
open Foundation

inductive AttemptStatus where
  | prepared | dispatching | succeeded | failed | indeterminate
deriving DecidableEq, Repr

namespace AttemptStatus

def name : AttemptStatus → String
  | prepared => "prepared"
  | dispatching => "dispatching"
  | succeeded => "succeeded"
  | failed => "failed"
  | indeterminate => "indeterminate"

/-- `ATTEMPT_TRANSITIONS` -/
def transitions : AttemptStatus → List AttemptStatus
  | prepared => [dispatching, failed]
  | dispatching => [succeeded, failed, indeterminate]
  | succeeded | failed | indeterminate => []

/-- The attempt blocks another one for the same case and trial. -/
def isOpen : AttemptStatus → Bool
  | prepared | dispatching | indeterminate => true
  | succeeded | failed => false

/-- No transition leaves the status. -/
def terminal (s : AttemptStatus) : Bool := s.transitions.isEmpty

end AttemptStatus

/-- A stored attempt. The trial id is empty when the attempt belongs to no trial. -/
structure Attempt where
  id : String
  runId : String
  caseId : String
  attemptNo : Int
  trialId : String
  status : AttemptStatus
  revision : Int
  fields : Fields := ∅
deriving DecidableEq

/-- The fields that say which attempt it is. -/
def Attempt.identity (a : Attempt) : String × String × String × Int × String :=
  (a.id, a.runId, a.caseId, a.attemptNo, a.trialId)

/-- The (run, case, trial) within which at most one attempt may be open. -/
def Attempt.scope (a : Attempt) : String × String × String := (a.runId, a.caseId, a.trialId)

/-- An attempt as a caller hands it to `begin`; `generatedId` is the id drawn if it has none. -/
structure AttemptInput where
  id : Option String := none
  generatedId : String
  runId : String
  caseId : String
  attemptNo : Option Int := none
  trialId : Option String := none
  status : Option AttemptStatus := none
  revision : Option Int := none
  fields : Fields := ∅

/-- `new_record` for attempts, with the checks `begin` adds -/
def newAttempt (r : AttemptInput) : Except Err Attempt := do
  let id := r.id.getD r.generatedId
  ensure (id ≠ "") (.value "id must be a nonempty string")
  ensure (r.runId ≠ "") (.value "run_id must be a nonempty string")
  ensure (r.status.getD .prepared = .prepared ∧ r.revision.getD 1 = 1)
    (.value "new attempt must start as prepared at revision 1")
  ensure (r.caseId ≠ "") (.value "attempt needs a nonempty case_id")
  ensure (1 ≤ r.attemptNo.getD 1) (.value "attempt_no must be a positive integer")
  return ⟨id, r.runId, r.caseId, r.attemptNo.getD 1, r.trialId.getD "", .prepared, 1, r.fields⟩

/-- The members of an attempt that `changes` may never name. -/
def protectedAttemptMembers : List String :=
  ["id", "run_id", "case_id", "attempt_no", "trial_id", "revision", "status"]

/-- `advance_record` for attempts -/
def advanceRecord (current : Attempt) (expectedRevision : Int) (expectedStatus status : AttemptStatus)
    (changes : Fields) : Except Err Attempt := do
  ensure (current.revision = expectedRevision ∧ current.status = expectedStatus)
    (.runConflict "record revision or status changed")
  ensure (status ∈ expectedStatus.transitions)
    (.value ("invalid transition: " ++ expectedStatus.name ++ " -> " ++ status.name))
  ensure (changes.names protectedAttemptMembers = false)
    (.value "transition changes cannot replace identity, revision or status")
  return {current with status, revision := expectedRevision + 1, fields := current.fields.merge changes}

theorem advanceRecord_ok {a u : Attempt} {rev : Int} {st st' : AttemptStatus} {changes : Fields}
    (h : advanceRecord a rev st st' changes = .ok u) :
    a.revision = rev ∧ a.status = st ∧ st' ∈ st.transitions ∧
      u = {a with status := st', revision := rev + 1, fields := a.fields.merge changes} := by
  simp only [advanceRecord, except_bind_ok_iff, ensure_ok_iff, except_pure_ok_iff, exists_const] at h
  obtain ⟨⟨hrev, hst⟩, hlegal, _, rfl⟩ := h
  exact ⟨hrev, hst, hlegal, rfl⟩

/-- Isolating an attempt that is under way never raises. -/
theorem advanceRecord_indeterminate {a : Attempt} (h : a.status = .dispatching) :
    advanceRecord a a.revision .dispatching .indeterminate ∅ =
      .ok {a with status := .indeterminate, revision := a.revision + 1, fields := a.fields.merge ∅} := by
  have names : (∅ : Fields).names protectedAttemptMembers = false := by decide
  simp [advanceRecord, h, names, ensure, AttemptStatus.transitions, bind, Except.bind, pure, Except.pure]

/-! ### Case results -/

structure CaseRow where
  runId : String
  caseId : String
  fields : Fields := ∅
deriving DecidableEq

/-- `case_runs`: results by run and case, each with its ordinal within the run. -/
abbrev CaseRuns := Table (String × String) (Int × CaseRow)

/-- The ordinal of the next result of a run. -/
def CaseRuns.nextOrdinal (t : CaseRuns) (runId : String) : Int :=
  ((t.rows.filter (fun r => r.1.1 = runId)).map (·.2.1)).foldl max 0 + 1

/-- Store the result of a case that has none. -/
def CaseRuns.insert (t : CaseRuns) (row : CaseRow) : CaseRuns :=
  t.set (row.runId, row.caseId) (t.nextOrdinal row.runId, row)

/-- `upsert`: the result that is there already stays. -/
def CaseRuns.upsert (t : CaseRuns) (row : CaseRow) : CaseRuns :=
  match t.get (row.runId, row.caseId) with
  | some _ => t
  | none => t.insert row

/-- `validate_case_rows` -/
def validateCaseRows (runId : String) : List CaseRow → List String → Except Err Unit
  | [], _ => return ()
  | row :: rest, seen => do
    ensure (row.runId = runId) (.value "case row must match the scoring pass run_id")
    ensure (row.caseId ≠ "") (.value "case row needs a nonempty case_id")
    ensure (row.caseId ∉ seen) (.value "case rows need distinct case_id values")
    validateCaseRows runId rest (row.caseId :: seen)

theorem validateCaseRows_ok {runId : String} {rows : List CaseRow} {seen : List String} {u : Unit}
    (h : validateCaseRows runId rows seen = .ok u) : (∀ row ∈ rows, row.caseId ∉ seen) ∧
      (rows.map (fun row => (row.runId, row.caseId))).Nodup := by
  induction rows generalizing seen with
  | nil => exact ⟨(fun _ hrow => nomatch hrow), List.nodup_nil⟩
  | cons row rest ih =>
    simp only [validateCaseRows, except_bind_ok_iff, ensure_ok_iff, exists_const] at h
    obtain ⟨_, _, hnew, h⟩ := h
    obtain ⟨unseen, distinct⟩ := ih h
    refine ⟨fun row' hrow => ?_, ?_⟩
    · rcases List.mem_cons.1 hrow with rfl | hrow
      · exact hnew
      · exact fun hseen => unseen row' hrow (List.mem_cons_of_mem _ hseen)
    · rw [List.map_cons, List.nodup_cons]
      refine ⟨fun hmem => ?_, distinct⟩
      obtain ⟨row', hrow, he⟩ := List.mem_map.1 hmem
      simp only [Prod.mk.injEq] at he
      exact unseen row' hrow (he.2 ▸ List.mem_cons_self ..)

/-! ### Requests -/

structure BeginAttemptRequest where
  record : AttemptInput
  expectedRunRevision : Option Int := none
  expectedRunStatus : Option String := none

structure DispatchRequest where
  attemptId : String
  expectedRevision : Int
  runId : String
  expectedRunRevision : Int
  expectedRunStatus : String
  now : Timestamp

structure AttemptTransitionRequest where
  attemptId : String
  expectedRevision : Int
  expectedStatus : AttemptStatus
  status : AttemptStatus
  changes : Fields := ∅

structure CompleteRequest where
  attemptId : String
  expectedRevision : Int
  expectedStatus : AttemptStatus := .dispatching
  status : AttemptStatus := .succeeded
  changes : Fields := ∅
  caseRun : Option CaseRow := none
  event : Option Event := none

structure QuarantineRequest where
  runId : String
  expectedRunRevision : Int
  expectedRunStatus : String
  changes : Fields
  event : Option Event

/-- What `dispatch` writes besides status and revision. -/
def dispatchChanges (r : DispatchRequest) : Fields := (∅ : Fields).insert "dispatched_at" (.str r.now)

/-- The checks `complete` makes on the stored attempt, and the attempt it stores. -/
def completeAttempt (r : CompleteRequest) (previous : Attempt) : Except Err (Option Event × Attempt) := do
  let pending ← validateEvent r.event previous.runId
  ensure (r.caseRun ≠ none → previous.trialId = "")
    (.runConflict "trial-scoped attempts must not write the task-level case result")
  ensure (∀ row ∈ r.caseRun, row.runId = previous.runId ∧ row.caseId = previous.caseId)
    (.value "case result must match the attempt run and case")
  let stored ← advanceRecord previous r.expectedRevision r.expectedStatus r.status r.changes
  return (pending, stored)

/-- The result a completion would write differs from none that is stored. -/
def checkCaseResult (t : CaseRuns) (row : Option CaseRow) : Except Err Unit :=
  match row with
  | none => return ()
  | some row =>
    ensure (∀ old ∈ t.get (row.runId, row.caseId), old.2 = row)
      (.runConflict "a different case result is already persisted")

theorem completeAttempt_ok {r : CompleteRequest} {a u : Attempt} {pending : Option Event}
    (h : completeAttempt r a = .ok (pending, u)) :
    (r.caseRun ≠ none → a.trialId = "") ∧
      (∀ row ∈ r.caseRun, row.runId = a.runId ∧ row.caseId = a.caseId) ∧
      advanceRecord a r.expectedRevision r.expectedStatus r.status r.changes = .ok u := by
  simp only [completeAttempt, except_bind_ok_iff, ensure_ok_iff, except_pure_ok_iff, exists_const,
    Prod.mk.injEq] at h
  obtain ⟨_, _, htrial, hrow, stored, hs, _, rfl⟩ := h
  exact ⟨htrial, hrow, hs⟩

end Motte.Storage
