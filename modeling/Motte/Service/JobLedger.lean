import Motte.Storage.ExternalJobs

/-! The store steps of the external job runner, and the import ledger.

A process that runs or settles a job reads its record and writes parts of it back
later: the status, the handle, or the whole checkpoint with some members replaced.
Meanwhile other processes read and write too. A step of the system is one call of
the store; what a process has read stays with it until it writes. -/
namespace Motte.Service
open Foundation Storage ExternalJobs

/-! ### What the runner writes -/

/-- What a checkpoint keeps of the collection cursor. -/
def cursorSummary (cursor : Json) : Json :=
  .obj [("ceval_diagnostic", cursor.get "ceval_diagnostic"), ("ceval_native", cursor.get "ceval_native"),
    ("parser_version", cursor.get "parser_version"), ("records_consumed", cursor.get "records_consumed")]

/-- What `_settle` knows of an outcome when it writes a checkpoint. -/
structure Settlement where
  cursor : Json
  evidence : Json
  status : String
  error : Json

def Settlement.members (o : Settlement) (importCompleted : Bool) : Fields :=
  (((((∅ : Fields).insert "cursor" (cursorSummary o.cursor)).insert "evidence" o.evidence).insert "outcome_status"
    (.str o.status)).insert "outcome_error" o.error).insert "import_completed" (.bool importCompleted)

/-- The checkpoint writes of `_settle`, in the order in which it may make them. -/
inductive CheckpointWrite where
  /-- the output files changed between parsing and freezing -/
  | inconsistent (evidence : Json)
  /-- the frozen evidence is over the budget -/
  | incomplete (evidence : Json) (status : String) (error : Json)
  | beforeImport (o : Settlement)
  /-- with the conflicts of the import, if there were any -/
  | afterImport (o : Settlement) (conflicts : List Json)
  /-- the conflicts once more, as the error of the outcome -/
  | conflicted (o : Settlement) (conflicts : List Json) (error : Json)

namespace CheckpointWrite

def importError (conflicts : List Json) : Json :=
  .obj [("code", .str "EXTERNAL_IMPORT_CONFLICT"), ("conflicts", .arr (conflicts.take 10))]

def afterMembers (o : Settlement) (conflicts : List Json) : Fields :=
  if conflicts.isEmpty then o.members true else (o.members true).insert "import_error" (importError conflicts)

/-- The members that are written over those of the checkpoint that was read. -/
def members : CheckpointWrite → Fields
  | inconsistent evidence => ((∅ : Fields).insert "import_completed" (.bool true)).insert "evidence" evidence
  | incomplete evidence status error =>
    ((((∅ : Fields).insert "import_completed" (.bool true)).insert "outcome_status" (.str status)).insert
      "outcome_error" error).insert "evidence" evidence
  | beforeImport o => o.members false
  | afterImport o conflicts => afterMembers o conflicts
  | conflicted o conflicts error => (afterMembers o conflicts).insert "outcome_error" error

/-- The two that end the settlement write the status as well. -/
def status : CheckpointWrite → Option String
  | inconsistent _ | incomplete .. => some "failed"
  | beforeImport _ | afterImport .. | conflicted .. => none

def guardStatusNot : CheckpointWrite → Option String
  | incomplete .. => some "cancelled"
  | inconsistent _ | beforeImport _ | afterImport .. | conflicted .. => none

/-- The checkpoint that is written: the one that was read, with members replaced. -/
def onto (w : CheckpointWrite) (read : JobCheckpoint) : JobCheckpoint :=
  { read with members := read.members.merge w.members }

end CheckpointWrite

/-! ### Steps -/

/-- What a process has read: a job, or that there is none. `records` is the number of records the
job had then. -/
structure Reading where
  jobId : String
  job : Option ExternalJob
  records : Nat

/-- `get_job` -/
def readJob (s : ExternalJobs) (jobId : String) : Reading := ⟨jobId, s.jobs.get jobId, s.stored jobId⟩

/-- `current.get("checkpoint") or {}` -/
def Reading.checkpoint (r : Reading) : JobCheckpoint := (r.job.map (·.checkpoint)).getD ⟨none, ∅⟩

/-- `_TERMINAL_JOB_STATUSES` -/
def terminalJobStatuses : List String := ["settled", "failed", "cancelled", "indeterminate"]

/-- `RECOVERABLE_STATUSES` -/
def recoverableStatuses : List String := ["launching", "active", "collecting"]

/-- The updates that the runner makes of a job it has read. -/
inductive RunnerWrite where
  /-- `_journal`, after the start -/
  | launchStarted (handle : Json)
  /-- `_settle` writes the checkpoint, and the status if that ends the settlement -/
  | checkpoint (w : CheckpointWrite) (handle : Json)
  /-- `_settle` writes the final status -/
  | finish (status : String) (handle : Json)
  /-- `_settle`, if the guard stopped the final status -/
  | keepHandle (handle : Json)
  /-- `interrupt_run` -/
  | interrupt (handle : Json)

/-- What is written, and the status that stops it. -/
def RunnerWrite.changes (r : Reading) : RunnerWrite → Option (Changes × Option String)
  | launchStarted handle =>
    -- A job that was read as cancelled is not revived.
    if r.job.any (·.status = "cancelled") then some ({ handle := some handle }, none)
    else some ({ status := some "active", handle := some handle }, none)
  | checkpoint w handle =>
    let written : Changes :=
      { status := w.status, handle := w.status.map (fun _ => handle), checkpoint := some (w.onto r.checkpoint) }
    some (written, w.guardStatusNot)
  | finish status handle =>
    if status ∈ terminalJobStatuses then
      some ({ status := some status, handle := some handle }, some "cancelled")
    else none
  | keepHandle handle => some ({ handle := some handle }, none)
  | interrupt handle =>
    if r.job.any (·.status ∈ recoverableStatuses) then
      some ({ status := some "cancelled", handle := some handle }, none)
    else none

/-- The store, and what each process has read. -/
structure JobLedger (ι : Type) where
  store : ExternalJobs
  reading : ι → Option Reading

def JobLedger.initial {ι : Type} : JobLedger ι := ⟨ExternalJobs.empty, fun _ => none⟩

/-- The calls of the store that the runner makes. -/
inductive RunnerStep (ι : Type) where
  /-- `_journal`, before the start -/
  | launchIntent (jobId runId launchToken : String) (spec handle : Json)
  /-- a read of a job, whichever method makes it -/
  | read (i : ι) (jobId : String)
  | write (i : ι) (w : RunnerWrite)
  /-- `_settle` or `import_late_results` imports a record -/
  | importRecord (r : Import)

/-- A job as `_journal` records it. -/
def intendedJob (jobId runId launchToken : String) (spec handle : Json) : ExternalJob :=
  ⟨jobId, runId, "launching", launchToken, spec, handle,
    ⟨none, (∅ : Fields).insert "import_completed" (.bool false)⟩⟩

section Steps
variable {ι : Type} [DecidableEq ι]

def jobStep (step : RunnerStep ι) (s : JobLedger ι) : JobLedger ι :=
  match step with
  | .launchIntent jobId runId launchToken spec handle =>
    { s with store := (beginJob (intendedJob jobId runId launchToken spec handle) s.store).2 }
  | .read i jobId =>
    { s with reading := Function.update s.reading i (some (readJob s.store jobId)) }
  | .write i w =>
    match s.reading i with
    | none => s
    | some r =>
      match w.changes r with
      | none => s
      | some (c, guardStatusNot) => { s with store := (updateJob r.jobId c guardStatusNot s.store).2 }
  | .importRecord r => { s with store := (ExternalJobs.importRecord r s.store).2 }

/-- The ledger after steps of any processes, in the order the store served them. -/
def ledgerAfter (steps : List (RunnerStep ι)) : JobLedger ι :=
  run jobStep JobLedger.initial steps

theorem ledgerAfter_append (a b : List (RunnerStep ι)) : ledgerAfter (a ++ b) = run jobStep (ledgerAfter a) b :=
  run_append jobStep JobLedger.initial a b

/-! ### What one step does -/

/-- Every effect of a step. -/
inductive LedgerMove (s : JobLedger ι) : RunnerStep ι → JobLedger ι → Prop
  | nothing {step} : LedgerMove s step s
  | began {jobId runId launchToken spec handle} (absent : s.store.jobs.get jobId = none) :
      LedgerMove s (.launchIntent jobId runId launchToken spec handle)
        { s with store := { s.store with
            jobs := s.store.jobs.set jobId (intendedJob jobId runId launchToken spec handle) } }
  | read {i jobId} :
      LedgerMove s (.read i jobId)
        { s with reading := Function.update s.reading i (some (readJob s.store jobId)) }
  | wrote {i w r c guardStatusNot job} (reading : s.reading i = some r)
      (changes : w.changes r = some (c, guardStatusNot)) (found : s.store.jobs.get r.jobId = some job)
      (unguarded : guardStatusNot ≠ some job.status) :
      LedgerMove s (.write i w)
        { s with store := { s.store with jobs := s.store.jobs.set r.jobId (changedJob job c) } }
  | conflict {r existing} (found : s.store.records.get r.key = some existing)
      (other : existing.contentHash ≠ r.contentHash) :
      LedgerMove s (.importRecord r)
        { s with store := { s.store with conflicts := s.store.conflicts ++ [r.conflict existing] } }
  | imported {r job} (well : ¬ r.Malformed) (job_found : s.store.jobs.get r.jobId = some job)
      (new : s.store.records.get r.key = none) :
      LedgerMove s (.importRecord r)
        { s with store := { s.store with
            records := s.store.records.set r.key r.record, jobs := s.store.jobs.set r.jobId (countRecord job) } }

theorem jobStep_moves (s : JobLedger ι) (step : RunnerStep ι) : LedgerMove s step (jobStep step s) := by
  cases step with
  | launchIntent jobId runId launchToken spec handle =>
    have spec := Op.wp_state (Op.wp_mono (beginJob_opens (s := s.store)
      (intendedJob jobId runId launchToken spec handle)) (fun _ _ h => h) (fun _ _ h => .inl h))
    rcases spec with h | ⟨absent, h⟩ <;> rw [jobStep, h]
    · exact .nothing
    · exact .began absent
  | read i jobId => exact .read
  | write i w =>
    rw [jobStep]
    cases hreading : s.reading i with
    | none => exact .nothing
    | some r =>
      dsimp only
      cases hchanges : w.changes r with
      | none => exact .nothing
      | some cg =>
        obtain ⟨c, guardStatusNot⟩ := cg
        dsimp only
        have spec := Op.wp_state (Op.wp_mono (updateJob_changes (s := s.store) r.jobId c guardStatusNot)
          (fun _ _ h => h) (fun _ _ h => .inl h))
        rcases spec with h | ⟨job, found, unguarded, h⟩ <;> rw [h]
        · exact .nothing
        · exact .wrote hreading hchanges found unguarded
  | importRecord r =>
    have spec := importRecord_imports (s := s.store) r
    rw [jobStep]
    revert spec
    unfold Op.wp
    rcases hrun : ExternalJobs.importRecord r s.store with ⟨answer, t⟩
    cases answer with
    | error e =>
      rintro ⟨rfl, -⟩
      exact .nothing
    | ok a =>
      intro h
      cases h with
      | noop found same => exact .nothing
      | conflict found other => exact .conflict found other
      | imported well found new => exact .imported well found new

/-! ### Records, conflicts and jobs only grow -/

variable {s t : JobLedger ι} {step : RunnerStep ι}

/-- A later ledger: no record changed, the conflicts in their order, no job gone. -/
structure Grows (s t : JobLedger ι) : Prop where
  records : ∀ key record, s.store.records.get key = some record → t.store.records.get key = some record
  conflicts : s.store.conflicts <+: t.store.conflicts
  jobs : ∀ id, s.store.jobs.get id ≠ none → t.store.jobs.get id ≠ none

omit [DecidableEq ι] in
theorem Grows.refl (s : JobLedger ι) : Grows s s := ⟨fun _ _ h => h, List.prefix_rfl, fun _ h => h⟩

omit [DecidableEq ι] in
theorem Grows.trans {u : JobLedger ι} (h : Grows s t) (h' : Grows t u) : Grows s u :=
  ⟨fun key record hrec => h'.records key record (h.records key record hrec), h.conflicts.trans h'.conflicts,
    fun id hid => h'.jobs id (h.jobs id hid)⟩

theorem set_ne_none {jobs : Table String ExternalJob} {id k : String} {job : ExternalJob} (h : jobs.get id ≠ none) :
    (jobs.set k job).get id ≠ none := by
  rw [Table.get_set]
  split
  · simp
  · exact h

theorem LedgerMove.grows (move : LedgerMove s step t) : Grows s t := by
  cases move with
  | nothing => exact .refl s
  | read => exact ⟨fun _ _ h => h, List.prefix_rfl, fun _ h => h⟩
  | began absent => exact ⟨fun _ _ h => h, List.prefix_rfl, fun _ h => set_ne_none h⟩
  | wrote reading changes found unguarded => exact ⟨fun _ _ h => h, List.prefix_rfl, fun _ h => set_ne_none h⟩
  | conflict found other => exact ⟨fun _ _ h => h, List.prefix_append _ _, fun _ h => h⟩
  | imported well job_found new =>
    refine ⟨fun key record h => ?_, List.prefix_rfl, fun _ h => set_ne_none h⟩
    have other : key ≠ _ := fun hkey => by
      rw [hkey, new] at h
      cases h
    exact (Table.get_set_ne _ _ other).trans h

theorem run_grows (s : JobLedger ι) (steps : List (RunnerStep ι)) : Grows s (run jobStep s steps) :=
  run_relates Grows.refl (fun _ _ _ => Grows.trans) (fun s step => (jobStep_moves s step).grows) s steps

/-! ### Records belong to jobs -/

/-- A record is stored under a well formed key, for a job that is there. -/
def Anchored (s : JobLedger ι) : Prop :=
  ∀ key record, s.store.records.get key = some record →
    s.store.jobs.get key.1 ≠ none ∧ key.1 ≠ "" ∧ key.2.1 ≠ "" ∧ key.2.2 ≠ ""

theorem LedgerMove.anchored (h : Anchored s) (move : LedgerMove s step t) : Anchored t := by
  have grows := move.grows
  intro key record hrec
  by_cases hold : ∃ record, s.store.records.get key = some record
  · obtain ⟨old, hold⟩ := hold
    obtain ⟨hjob, hkey⟩ := h key old hold
    exact ⟨grows.jobs _ hjob, hkey⟩
  · cases move with
    | nothing | read | began | wrote | conflict => exact absurd ⟨record, hrec⟩ hold
    | @imported r job well job_found new =>
      rw [Table.get_set] at hrec
      split at hrec
      · rename_i hkey
        subst hkey
        simp only [Import.Malformed, not_or] at well
        exact ⟨by simp [Import.key], well.1, well.2.1, well.2.2.1⟩
      · exact absurd ⟨record, hrec⟩ hold

theorem Anchored.run (h : Anchored s) (steps : List (RunnerStep ι)) : Anchored (run jobStep s steps) :=
  run_keeps (fun s step h => (jobStep_moves s step).anchored h) steps h

theorem ledgerAfter_anchored (steps : List (RunnerStep ι)) : Anchored (ledgerAfter steps) :=
  Anchored.run (fun key record h => by cases h) steps

/-- Other content under the key of a stored record goes to the conflict ledger. -/
theorem Anchored.conflict_kept (h : Anchored s) {r : Import} {existing : ImportedRecord}
    (found : s.store.records.get r.key = some existing) (other : existing.contentHash ≠ r.contentHash)
    (hashed : r.contentHash ≠ "") :
    (jobStep (.importRecord r) s).store.conflicts = s.store.conflicts ++ [r.conflict existing] := by
  obtain ⟨hjob, hid, hkey, hversion⟩ := h r.key existing found
  have spec := importRecord_imports (s := s.store) r
  rw [jobStep]
  rcases hrun : ExternalJobs.importRecord r s.store with ⟨e | a, t⟩
  · rw [Op.wp_of_error hrun] at spec
    rcases spec.2 with (h | h | h | h) | h
    · exact absurd h hid
    · exact absurd h hkey
    · exact absurd h hversion
    · exact absurd h hashed
    · exact absurd h hjob
  · rw [Op.wp_of_ok hrun] at spec
    cases spec with
    | noop found' same =>
      cases found.symm.trans found'
      exact absurd same other
    | conflict found' _ =>
      cases found.symm.trans found'
      rfl
    | imported _ _ new => cases found.symm.trans new

/-! ### Importing again -/

/-- An import that cannot add a record: refused, or one is stored. -/
def Idle (s : JobLedger ι) (r : Import) : Prop := r.Malformed ∨ s.store.records.get r.key ≠ none

omit [DecidableEq ι] in
theorem Idle.mono {r : Import} (h : Idle s r) (grows : Grows s t) : Idle t r := by
  refine h.imp_right (fun stored => ?_)
  obtain ⟨record, hrec⟩ := Option.ne_none_iff_exists'.1 stored
  rw [grows.records _ record hrec]
  simp

theorem Idle.records {r : Import} (h : Idle s r) :
    (jobStep (.importRecord r) s).store.records = s.store.records := by
  have move := jobStep_moves s (.importRecord r)
  generalize jobStep (.importRecord r) s = t at move
  cases move with
  | nothing | conflict => rfl
  | imported well job_found new => exact absurd (h.resolve_left well) (fun stored => stored new)

/-- After an import for a job that is there, the same import is idle. -/
theorem idle_of_import {r : Import} (job : s.store.jobs.get r.jobId ≠ none) : Idle (jobStep (.importRecord r) s) r := by
  have spec := importRecord_imports (s := s.store) r
  rw [jobStep]
  rcases hrun : ExternalJobs.importRecord r s.store with ⟨e | a, t⟩
  · rw [Op.wp_of_error hrun] at spec
    exact .inl (spec.2.resolve_right job)
  · rw [Op.wp_of_ok hrun] at spec
    refine .inr ?_
    cases spec with
    | noop found same => simp [found]
    | conflict found other => simp [found]
    | imported well job_found new => simp

theorem idle_of_imports {rs : List Import} (jobs : ∀ r ∈ rs, s.store.jobs.get r.jobId ≠ none) :
    ∀ r ∈ rs, Idle (run jobStep s (rs.map .importRecord)) r := by
  induction rs generalizing s with
  | nil => intro r hr; cases hr
  | cons first rest ih =>
    have grows := (jobStep_moves s (.importRecord first)).grows
    intro r hr
    rcases List.mem_cons.1 hr with rfl | hr
    · exact (idle_of_import (jobs r hr)).mono (run_grows _ _)
    · exact ih (fun r hr => grows.jobs _ (jobs r (List.mem_cons_of_mem first hr))) r hr

theorem records_of_idle {rs : List Import} (h : ∀ r ∈ rs, Idle s r) :
    (run jobStep s (rs.map .importRecord)).store.records = s.store.records := by
  induction rs generalizing s with
  | nil => rfl
  | cons first rest ih =>
    have grows := (jobStep_moves s (.importRecord first)).grows
    calc (run jobStep s ((first :: rest).map .importRecord)).store.records
        = (jobStep (.importRecord first) s).store.records :=
          ih (fun r hr => (h r (List.mem_cons_of_mem first hr)).mono grows)
      _ = s.store.records := (h first (List.mem_cons_self ..)).records

/-! ### The counter -/

/-- A checkpoint write comes while the job has the records it had when it was read. -/
def UpToDate (s : JobLedger ι) : RunnerStep ι → Prop
  | .write i (.checkpoint _ _) => ∀ r ∈ s.reading i, s.store.stored r.jobId = r.records
  | _ => True

instance (s : JobLedger ι) : (step : RunnerStep ι) → Decidable (UpToDate s step)
  | .write i (.checkpoint _ _) => inferInstanceAs (Decidable (∀ r ∈ s.reading i, s.store.stored r.jobId = r.records))
  | .write _ (.launchStarted _) | .write _ (.finish ..) | .write _ (.keepHandle _) | .write _ (.interrupt _)
  | .launchIntent .. | .read .. | .importRecord _ => .isTrue trivial

/-- `int(checkpoint.get("records_consumed", 0))` -/
def consumed (c : JobCheckpoint) : Nat := c.recordsConsumed.getD 0

/-- Every job counts its records, and so did every process when it read. -/
structure Counted (s : JobLedger ι) : Prop where
  anchored : Anchored s
  stored : ∀ id job, s.store.jobs.get id = some job → consumed job.checkpoint = s.store.stored id
  read : ∀ i r, s.reading i = some r → consumed r.checkpoint = r.records

/-- Only a checkpoint write replaces the checkpoint, and it keeps the counter that was read. -/
theorem changes_checkpoint {w : RunnerWrite} {r : Reading} {c : Changes} {guardStatusNot : Option String}
    (h : w.changes r = some (c, guardStatusNot)) :
    c.checkpoint = none ∨ ∃ cw handle, w = .checkpoint cw handle ∧ c.checkpoint = some (cw.onto r.checkpoint) := by
  cases w with
  | checkpoint cw handle =>
    cases h
    exact .inr ⟨cw, handle, rfl, rfl⟩
  | launchStarted handle =>
    simp only [RunnerWrite.changes] at h
    split at h <;> cases h <;> exact .inl rfl
  | keepHandle handle =>
    cases h
    exact .inl rfl
  | finish status handle =>
    simp only [RunnerWrite.changes] at h
    split at h <;> cases h
    exact .inl rfl
  | interrupt handle =>
    simp only [RunnerWrite.changes] at h
    split at h <;> cases h
    exact .inl rfl

omit [DecidableEq ι] in
theorem Counted.readJob (h : Counted s) (jobId : String) :
    consumed (readJob s.store jobId).checkpoint = s.store.stored jobId := by
  unfold Service.readJob Reading.checkpoint
  cases hjob : s.store.jobs.get jobId with
  | none => exact (stored_eq_zero (fun key record hrec => (h.anchored key record hrec).1) hjob).symm
  | some job => exact h.stored jobId job hjob

theorem LedgerMove.counted (h : Counted s) (rule : UpToDate s step) (move : LedgerMove s step t) : Counted t := by
  refine ⟨move.anchored h.anchored, fun id job hjob => ?_, fun i r hr => ?_⟩
  · cases move with
    | nothing | read | conflict => exact h.stored id job hjob
    | began absent =>
      rw [Table.get_set] at hjob
      split at hjob
      · rename_i hid
        cases hjob
        exact (stored_eq_zero (fun key record hrec => (h.anchored key record hrec).1) (hid ▸ absent)).symm
      · exact h.stored id job hjob
    | @wrote i w r c guardStatusNot old reading changes found unguarded =>
      rw [Table.get_set] at hjob
      split at hjob
      · rename_i hid
        cases hjob
        subst hid
        rcases changes_checkpoint changes with hc | ⟨cw, handle, rfl, hc⟩
        · rw [changedJob, hc]
          exact h.stored _ old found
        · -- The counter that is written back is the one that was read.
          rw [changedJob, hc]
          exact (h.read i r reading).trans (rule r reading).symm
      · exact h.stored id job hjob
    | @imported r old well job_found new =>
      rw [stored_of_new r.record _ new id]
      rw [Table.get_set] at hjob
      split at hjob
      · rename_i hid
        cases hjob
        subst hid
        have counted := h.stored _ old job_found
        simp only [Import.key, if_pos, ← counted]
        rfl
      · rename_i hid
        rw [if_neg (fun hkey => hid hkey.symm)]
        exact h.stored id job hjob
  · cases move with
    | nothing | began | wrote | conflict | imported => exact h.read i r hr
    | @read i' jobId =>
      by_cases hi : i = i'
      · subst hi
        dsimp only at hr
        rw [Function.update_self] at hr
        cases hr
        exact h.readJob jobId
      · dsimp only at hr
        rw [Function.update_of_ne hi] at hr
        exact h.read i r hr

omit [DecidableEq ι] in
theorem counted_initial : Counted (JobLedger.initial : JobLedger ι) where
  anchored _ _ h := by cases h
  stored _ _ h := by cases h
  read _ _ h := by cases h

theorem ledgerAfter_counted {steps : List (RunnerStep ι)} (h : Along jobStep UpToDate JobLedger.initial steps) :
    Counted (ledgerAfter steps) :=
  h.keeps (fun s step hs rule => (jobStep_moves s step).counted hs rule) counted_initial

/-- The import ledger. No record is overwritten, other content under a stored key is kept as a
conflict, and importing again adds nothing, in every run. The counter is right in every state of a
run in which a checkpoint is only written back while no record came since it was read. -/
theorem import_ledger_consistent (before after : List (RunnerStep ι)) :
    (∀ key record, (ledgerAfter before).store.records.get key = some record →
      (ledgerAfter (before ++ after)).store.records.get key = some record) ∧
    (∀ r existing, (ledgerAfter before).store.records.get r.key = some existing →
      existing.contentHash ≠ r.contentHash → r.contentHash ≠ "" →
      (ledgerAfter before).store.conflicts ++ [r.conflict existing] <+:
        (ledgerAfter (before ++ .importRecord r :: after)).store.conflicts) ∧
    (∀ rs : List Import, (∀ r ∈ rs, (ledgerAfter before).store.jobs.get r.jobId ≠ none) →
      (ledgerAfter (before ++ rs.map .importRecord ++ after ++ rs.map .importRecord)).store.records =
        (ledgerAfter (before ++ rs.map .importRecord ++ after)).store.records) ∧
    (Along jobStep UpToDate JobLedger.initial before → ∀ id job, (ledgerAfter before).store.jobs.get id = some job →
      consumed job.checkpoint = (ledgerAfter before).store.stored id) := by
  refine ⟨fun key record h => ?_, fun r existing found other hashed => ?_, fun rs jobs => ?_, fun rule id job hjob => ?_⟩
  · rw [ledgerAfter_append]
    exact (run_grows _ after).records key record h
  · rw [← (ledgerAfter_anchored before).conflict_kept found other hashed, ledgerAfter_append]
    exact (run_grows _ after).conflicts
  · have idle (r : Import) (hr : r ∈ rs) : Idle (ledgerAfter (before ++ rs.map .importRecord ++ after)) r := by
      rw [ledgerAfter_append, ledgerAfter_append]
      exact (idle_of_imports jobs r hr).mono (run_grows _ after)
    rw [ledgerAfter_append]
    exact records_of_idle idle
  · exact (ledgerAfter_counted rule).stored id job hjob

end Steps

/-! A process starts a job and settles it with one result; the checkpoint it writes after the import
is the one it read before. -/

def launchSteps : List (RunnerStep Unit) :=
  [.launchIntent "job" "run" "token" .null .null, .read () "job", .write () (.launchStarted .null), .read () "job"]

def settledOutcome : Settlement := ⟨.null, .null, "settled", .null⟩

def resultImport : Import := ⟨"job", "case-1", "process-generic@1", "sha256:00", .null, "t0"⟩

def settleSteps : List (RunnerStep Unit) :=
  launchSteps ++ [.write () (.checkpoint (.beforeImport settledOutcome) .null), .importRecord resultImport,
    .write () (.checkpoint (.afterImport settledOutcome []) .null), .write () (.finish "settled" .null)]

/-- After the settlement the job has one record and its checkpoint counts none. -/
theorem settled_job_counts_none :
    ¬ ∀ (steps : List (RunnerStep Unit)) id job, (ledgerAfter steps).store.jobs.get id = some job →
      consumed job.checkpoint = (ledgerAfter steps).store.stored id := by
  intro counted
  have hjob : ((ledgerAfter settleSteps).store.jobs.get "job").isSome := by decide +kernel
  obtain ⟨job, hjob⟩ := Option.isSome_iff_exists.1 hjob
  have hcount := counted settleSteps "job" job hjob
  have hconsumed : ((ledgerAfter settleSteps).store.jobs.get "job").map (fun j => consumed j.checkpoint) = some 0 := by
    decide +kernel
  have hstored : (ledgerAfter settleSteps).store.stored "job" = 1 := by decide +kernel
  rw [hjob, Option.map_some, hcount, hstored] at hconsumed
  cases hconsumed

/-- A settlement without results, and a record that is imported afterwards. -/
def lateSteps : List (RunnerStep Unit) :=
  launchSteps ++ [.write () (.checkpoint (.beforeImport settledOutcome) .null),
    .write () (.checkpoint (.afterImport settledOutcome []) .null), .write () (.finish "settled" .null),
    .importRecord resultImport]

theorem late_record_counted :
    (ledgerAfter lateSteps).store.stored "job" = 1 ∧ ∀ id job, (ledgerAfter lateSteps).store.jobs.get id = some job →
      consumed job.checkpoint = (ledgerAfter lateSteps).store.stored id :=
  ⟨by decide +kernel, (import_ledger_consistent lateSteps []).2.2.2 (by decide +kernel)⟩

section Terminal
variable {ι : Type} [DecidableEq ι] {s t : JobLedger ι} {step : RunnerStep ι}

/-! ### Terminal states -/

/-- A status is written only to a job that is not terminal, that has this status already, or that
has the status which stops the write. -/
def StatusInTime (s : JobLedger ι) : RunnerStep ι → Prop
  | .write i w => ∀ r ∈ s.reading i, ∀ p ∈ w.changes r, ∀ status ∈ p.1.status, ∀ job ∈ s.store.jobs.get r.jobId,
      job.status ∈ terminalJobStatuses → job.status = status ∨ p.2 = some job.status
  | _ => True

instance (s : JobLedger ι) : (step : RunnerStep ι) → Decidable (StatusInTime s step)
  | .write i w => inferInstanceAs (Decidable (∀ r ∈ s.reading i, ∀ p ∈ w.changes r, ∀ status ∈ p.1.status,
      ∀ job ∈ s.store.jobs.get r.jobId,
        job.status ∈ terminalJobStatuses → job.status = status ∨ p.2 = some job.status))
  | .launchIntent .. | .read .. | .importRecord _ => .isTrue trivial

/-- What is terminal keeps its status. -/
def KeepsTerminal (s t : JobLedger ι) : Prop :=
  ∀ id job, s.store.jobs.get id = some job → job.status ∈ terminalJobStatuses →
    ∃ job', t.store.jobs.get id = some job' ∧ job'.status = job.status

omit [DecidableEq ι] in
theorem KeepsTerminal.refl (s : JobLedger ι) : KeepsTerminal s s := fun _ job h _ => ⟨job, h, rfl⟩

omit [DecidableEq ι] in
theorem KeepsTerminal.trans {u : JobLedger ι} (h : KeepsTerminal s t) (h' : KeepsTerminal t u) :
    KeepsTerminal s u := by
  intro id job hjob terminal
  obtain ⟨job', hjob', same⟩ := h id job hjob terminal
  obtain ⟨job'', hjob'', same'⟩ := h' id job' hjob' (same ▸ terminal)
  exact ⟨job'', hjob'', same'.trans same⟩

/-- A job is replaced by one of the same status. -/
theorem keepsTerminal_set {jobs : Table String ExternalJob} {k : String} {old new : ExternalJob}
    (found : jobs.get k = some old) (same : old.status ∈ terminalJobStatuses → new.status = old.status) :
    ∀ id job, jobs.get id = some job → job.status ∈ terminalJobStatuses →
      ∃ job', (jobs.set k new).get id = some job' ∧ job'.status = job.status := by
  intro id job hjob terminal
  by_cases hid : id = k
  · subst hid
    cases found.symm.trans hjob
    exact ⟨new, Table.get_set_self .., same terminal⟩
  · exact ⟨job, (Table.get_set_ne _ _ hid).trans hjob, rfl⟩

theorem LedgerMove.keepsTerminal (rule : StatusInTime s step) (move : LedgerMove s step t) : KeepsTerminal s t := by
  cases move with
  | nothing => exact .refl s
  | read | conflict => exact fun _ job h _ => ⟨job, h, rfl⟩
  | began absent =>
    intro id job hjob terminal
    have other : id ≠ _ := fun hid => by
      rw [hid, absent] at hjob
      cases hjob
    exact ⟨job, (Table.get_set_ne _ _ other).trans hjob, rfl⟩
  | @wrote i w r c guardStatusNot old reading changes found unguarded =>
    refine keepsTerminal_set found (fun terminal => ?_)
    cases hstatus : c.status with
    | none => rw [changedJob, hstatus, Option.getD_none]
    | some status =>
      have hrule := rule r reading _ changes status hstatus old found terminal
      rw [changedJob, hstatus, Option.getD_some]
      exact (hrule.resolve_right unguarded).symm
  | imported well job_found new => exact keepsTerminal_set job_found (fun _ => rfl)

end Terminal

/-- An operator cancels while the start is being journalled: the journal has read the job before. -/
def revivedSteps : List (RunnerStep Bool) :=
  [.launchIntent "job" "run" "token" .null .null, .read false "job", .read true "job",
    .write true (.interrupt .null), .write false (.launchStarted .null)]

/-- A settlement, and an operator who comes too late. -/
def interruptedLate : List (RunnerStep Unit) := [.read () "job", .write () (.interrupt .null)]

end Motte.Service
