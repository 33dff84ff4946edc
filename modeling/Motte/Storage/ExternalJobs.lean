import Motte.Foundation.Json
import Motte.Foundation.Op
import Motte.Foundation.Run
import Motte.Foundation.Table
import Motte.Storage.Record

/-! The external job store: job records, imported records, conflict ledger.

A record is imported under its job, its source key and the parser version. The same
content again is nothing new; other content under the same key goes to the conflict
ledger and the stored record stays. A new record raises the counter in the job's
checkpoint, in the same transaction. The database keeps the status of a job in a
column beside the record too; every statement writes both from one document. -/
namespace Motte.Storage
open Foundation

/-- The checkpoint of a job. Only an import writes the counter, so it is a number where it is there. -/
structure JobCheckpoint where
  recordsConsumed : Option Nat
  members : Fields
deriving DecidableEq

structure ExternalJob where
  jobId : String
  runId : String
  status : String
  launchToken : String
  spec : Json
  handle : Json
  checkpoint : JobCheckpoint
deriving DecidableEq

/-- The key of an imported record: job, source record, parser version. -/
abbrev RecordKey : Type := String × String × String

structure ImportedRecord where
  contentHash : String
  payload : Json
  importedAt : Timestamp
deriving DecidableEq

/-- An entry of the conflict ledger. -/
structure ImportConflict where
  key : RecordKey
  existingHash : String
  incomingHash : String
  incomingPayload : Json
  detectedAt : Timestamp
deriving DecidableEq

structure ExternalJobs where
  jobs : Table String ExternalJob
  records : Table RecordKey ImportedRecord
  conflicts : List ImportConflict

namespace ExternalJobs

def empty : ExternalJobs := ⟨∅, ∅, []⟩

def requireText (field value : String) : Except Err Unit :=
  ensure (value ≠ "") (.value ("job requires a nonempty string " ++ field))

/-- `begin_job`: a job is never started twice. -/
def beginJob (job : ExternalJob) : Op ExternalJobs Err ExternalJob := do
  Op.lift do
    requireText "job_id" job.jobId
    requireText "run_id" job.runId
    requireText "status" job.status
    requireText "launch_token" job.launchToken
  let found ← Op.gets (·.jobs.get job.jobId)
  match found with
  | some existing =>
    Op.lift (ensure (existing.launchToken = job.launchToken) (.runConflict ("job " ++ job.jobId ++
      " already exists with a different launch token; a job is never started twice")))
    pure existing
  | none =>
    Op.modify (fun s => { s with jobs := s.jobs.set job.jobId job })
    pure job

/-- The members of a job that an update replaces. -/
structure Changes where
  status : Option String := none
  handle : Option Json := none
  checkpoint : Option JobCheckpoint := none
deriving DecidableEq

def changedJob (job : ExternalJob) (c : Changes) : ExternalJob :=
  { job with
    status := c.status.getD job.status
    handle := c.handle.getD job.handle
    checkpoint := c.checkpoint.getD job.checkpoint }

/-- `update_job`: merges, unless the job has the status it is guarded against. -/
def updateJob (jobId : String) (c : Changes) (guardStatusNot : Option String) :
    Op ExternalJobs Err (Option ExternalJob) := do
  let found ← Op.gets (·.jobs.get jobId)
  match found with
  | none => Op.raise (.key jobId)
  | some job =>
    if guardStatusNot = some job.status then pure none
    else do
      Op.modify (fun s => { s with jobs := s.jobs.set jobId (changedJob job c) })
      pure (some (changedJob job c))

/-- A call of `import_record`. -/
structure Import where
  jobId : String
  sourceRecordKey : String
  parserVersion : String
  contentHash : String
  payload : Json
  now : Timestamp
deriving DecidableEq

def Import.key (r : Import) : RecordKey := (r.jobId, r.sourceRecordKey, r.parserVersion)

def Import.record (r : Import) : ImportedRecord := ⟨r.contentHash, r.payload, r.now⟩

def Import.conflict (r : Import) (existing : ImportedRecord) : ImportConflict :=
  ⟨r.key, existing.contentHash, r.contentHash, r.payload, r.now⟩

/-- An import that is refused whatever is stored. -/
def Import.Malformed (r : Import) : Prop :=
  r.jobId = "" ∨ r.sourceRecordKey = "" ∨ r.parserVersion = "" ∨ r.contentHash = ""

instance (r : Import) : Decidable r.Malformed := inferInstanceAs (Decidable (_ ∨ _))

inductive ImportAnswer where
  | noop (record : ImportedRecord)
  | conflict (existing : ImportedRecord) (incoming : String × Json)
  | imported (record : ImportedRecord)
deriving DecidableEq

def requireImport (name value : String) : Except Err Unit :=
  ensure (value ≠ "") (.value ("import requires a nonempty string " ++ name))

/-- `_validate_import_args` -/
def validateImport (r : Import) : Except Err Unit := do
  requireImport "job_id" r.jobId
  requireImport "source_record_key" r.sourceRecordKey
  requireImport "parser_version" r.parserVersion
  requireImport "content_hash" r.contentHash

/-- The job with one more record consumed. -/
def countRecord (job : ExternalJob) : ExternalJob :=
  { job with checkpoint := { job.checkpoint with
      recordsConsumed := some (job.checkpoint.recordsConsumed.getD 0 + 1) } }

/-- `import_record` -/
def importRecord (r : Import) : Op ExternalJobs Err ImportAnswer := do
  Op.lift (validateImport r)
  let found ← Op.gets (·.jobs.get r.jobId)
  match found with
  | none => Op.raise (.key r.jobId)
  | some job =>
    let stored ← Op.gets (·.records.get r.key)
    match stored with
    | some existing =>
      if existing.contentHash = r.contentHash then pure (.noop existing)
      else do
        Op.modify (fun s => { s with conflicts := s.conflicts ++ [r.conflict existing] })
        pure (.conflict existing (r.contentHash, r.payload))
    | none =>
      Op.modify (fun s => { s with records := s.records.set r.key r.record })
      Op.modify (fun s => { s with jobs := s.jobs.set r.jobId (countRecord job) })
      pure (.imported r.record)

/-- The number of records stored for a job. -/
def stored (s : ExternalJobs) (jobId : String) : Nat := (s.records.rows.filter (fun r => r.1.1 = jobId)).length

/-! ### What the calls do -/

variable {s : ExternalJobs}

/-- Every effect of an import that does not raise. -/
inductive Imports (r : Import) (s : ExternalJobs) : ImportAnswer → ExternalJobs → Prop
  | noop {existing} (found : s.records.get r.key = some existing) (same : existing.contentHash = r.contentHash) :
      Imports r s (.noop existing) s
  | conflict {existing} (found : s.records.get r.key = some existing) (other : existing.contentHash ≠ r.contentHash) :
      Imports r s (.conflict existing (r.contentHash, r.payload))
        { s with conflicts := s.conflicts ++ [r.conflict existing] }
  | imported {job} (well : ¬ r.Malformed) (job_found : s.jobs.get r.jobId = some job)
      (new : s.records.get r.key = none) :
      Imports r s (.imported r.record)
        { s with records := s.records.set r.key r.record, jobs := s.jobs.set r.jobId (countRecord job) }

theorem validateImport_ok_iff {r : Import} : validateImport r = .ok () ↔ ¬ r.Malformed := by
  unfold validateImport requireImport Import.Malformed
  simp only [except_bind_ok_iff, ensure_ok_iff, exists_const, not_or, ne_eq]

/-- An import raises only if it is malformed or its job is missing, and then nothing happened. -/
theorem importRecord_imports (r : Import) :
    Op.wp (importRecord r) s (fun a t => Imports r s a t)
      (fun _ t => t = s ∧ (r.Malformed ∨ s.jobs.get r.jobId = none)) := by
  unfold importRecord
  rw [Op.wp_bind, Op.wp_lift]
  refine ⟨fun _ hok => ?_, fun e he => ⟨rfl, .inl ?_⟩⟩
  · rw [Op.wp_bind, Op.wp_gets]
    cases hjob : s.jobs.get r.jobId with
    | none => exact ⟨rfl, .inr rfl⟩
    | some job =>
      rw [Op.wp_bind, Op.wp_gets]
      cases hrec : s.records.get r.key with
      | some existing =>
        dsimp only
        split
        · rename_i same
          exact .noop hrec same
        · rename_i other
          exact .conflict hrec other
      | none => exact .imported (validateImport_ok_iff.1 hok) hjob hrec
  · by_contra hwell
    rw [validateImport_ok_iff.2 hwell] at he
    cases he

/-- A job is begun under a new id, or nothing happens. -/
theorem beginJob_opens (job : ExternalJob) :
    Op.wp (beginJob job) s
      (fun _ t => t = s ∨ s.jobs.get job.jobId = none ∧ t = { s with jobs := s.jobs.set job.jobId job })
      (fun _ t => t = s) := by
  unfold beginJob
  rw [Op.wp_bind, Op.wp_lift]
  refine ⟨fun _ _ => ?_, fun _ _ => rfl⟩
  rw [Op.wp_bind, Op.wp_gets]
  cases hjob : s.jobs.get job.jobId with
  | none => exact .inr ⟨rfl, rfl⟩
  | some existing =>
    rw [Op.wp_bind, Op.wp_lift]
    exact ⟨fun _ _ => .inl rfl, fun _ _ => rfl⟩

/-- An update changes the stored job, unless there is none or the guard stops it. -/
theorem updateJob_changes (jobId : String) (c : Changes) (guardStatusNot : Option String) :
    Op.wp (updateJob jobId c guardStatusNot) s
      (fun _ t => t = s ∨ ∃ job, s.jobs.get jobId = some job ∧ guardStatusNot ≠ some job.status ∧
        t = { s with jobs := s.jobs.set jobId (changedJob job c) })
      (fun _ t => t = s) := by
  unfold updateJob
  rw [Op.wp_bind, Op.wp_gets]
  cases hjob : s.jobs.get jobId with
  | none => exact rfl
  | some job =>
    dsimp only
    split
    · exact .inl rfl
    · rename_i hguard
      exact .inr ⟨job, rfl, hguard, rfl⟩

/-! ### Counting -/

theorem stored_of_new {key : RecordKey} (record : ImportedRecord) (jobs : Table String ExternalJob)
    (new : s.records.get key = none) (id : String) :
    stored { s with records := s.records.set key record, jobs := jobs } id =
      stored s id + (if key.1 = id then 1 else 0) := by
  unfold stored
  rw [Table.rows_set_of_none record new, List.filter_append, List.length_append]
  by_cases hid : key.1 = id <;> simp [hid]

theorem stored_eq_zero (h : ∀ key record, s.records.get key = some record → s.jobs.get key.1 ≠ none) {id : String}
    (absent : s.jobs.get id = none) : stored s id = 0 := by
  unfold stored
  rw [List.length_eq_zero_iff, List.filter_eq_nil_iff]
  rintro ⟨key, record⟩ hmem
  have hjob := h key record (Table.get_of_mem hmem)
  simp only [decide_eq_true_eq]
  rintro rfl
  exact hjob absent

end ExternalJobs
end Motte.Storage
