import Motte.Foundation.Op
import Motte.Migration.Source

/-! The store that a package is imported into, and what the import notes while it runs.

Every write is one step: the process can die before and after it, so the store after each
of them is kept (`World.trail`). When something was written is not kept, only that the
clock was read. -/
namespace Motte.Migration
open Foundation

/-! ### What is stored -/

/-- A time of the source, or that of the writing. -/
inductive Stamp where
  | recorded (v : Value)
  | clock
deriving DecidableEq

structure ImportSource where
  system : String
  recordId : String
  contentHash : String
  importId : String
deriving DecidableEq

structure ArtifactRef where
  artifactId : String
  sha256 : String
  available : Bool
deriving DecidableEq

/-- A stored run, with what the import reads and writes of it. -/
structure Run where
  id : String
  status : String
  revision : Nat := 1
  /-- `manifest.import_source` -/
  importSource : Option ImportSource := none
  /-- The other members of the manifest. -/
  manifest : Document := ∅
  caseIds : List String := []
  artifactRefs : List ArtifactRef := []
  legacySummary : Option Value := none
  legacyBaseline : Option Value := none
  createdAt : Stamp := .clock
  updatedAt : Stamp := .clock
  currentScoringPassId : Option String := none
  /-- The batch whose rollback has marked the run. -/
  rolledBackImport : Option String := none
  /-- The other members. -/
  fields : Document := ∅
deriving DecidableEq

/-- A case row. -/
structure CaseRow where
  outcome : String
  /-- `result.legacy` -/
  legacy : Option Document
deriving DecidableEq

/-- A score of an imported pass. -/
structure ScoreRow where
  caseId : String
  metricId : String := "legacy.score"
  evaluatorId : String := "legacy-import"
  evaluatorVersion : String
  metricStatus : String
  value : Option Double
  passed : Option Bool
  denominator : Bool
  reason : Option String
  legacyMetric : Value
deriving DecidableEq

/-- A scoring pass with its scores. -/
structure ScoringPass where
  id : String
  runId : String
  source : String
  sourceSystem : String
  recordCount : Nat
  scores : List ScoreRow
deriving DecidableEq

/-- `MappingRecord`, with what the audit adds. -/
structure Mapping where
  mappingKey : String
  importId : String
  sourceSystem : String
  recordType : String
  sourceId : String
  sourceVersion : String
  contentHash : String
  targetType : String
  targetId : String
  status : String := "created"
  operator : String
  artifactSha256 : Option String := none
  legacyPayload : Option Document := none
deriving DecidableEq

/-- A batch of the import ledger. -/
structure ImportBatch where
  manifestSha256 : String
  status : String
  operator : String
  sourceSystem : String
  contentSha256 : String
deriving DecidableEq

/-- The repositories that the import reads and writes. -/
structure Target where
  runs : Table String Run := ∅
  caseRuns : Table (String × String) CaseRow := ∅
  passes : Table String ScoringPass := ∅
  mappings : Table String Mapping := ∅
  imports : Table String ImportBatch := ∅
  files : Table String Bytes := ∅
  tombstones : List (String × String) := []

/-! ### What can be raised -/

inductive Fault where
  /-- `_UnitRejected` -/
  | rejected (diagnostic : String)
  /-- `_UnitConflict` -/
  | conflicted (diagnostic : String)
  /-- `MappingConflict` -/
  | mappingConflict (mappingKey : String)
  /-- `ImportConflict` -/
  | importConflict (importId : String)
  /-- `SourceChangedError` -/
  | sourceChanged (message : String)
  /-- `RunConflictError` -/
  | runConflict (message : String)
  /-- `RollbackNotConfirmed` -/
  | notConfirmed
  | key (name : String)
  | value (message : String)
  | attributeError
  | typeError
  | overflow
deriving DecidableEq

def Fault.ofAccess : AccessError → Fault
  | .attribute => .attributeError
  | .type => .typeError

/-! ### What is noted -/

/-- How a unit ends. -/
inductive Outcome where
  | created
  | reused
  | rejected
  | conflicted
deriving DecidableEq

structure Counts where
  created : Nat := 0
  reused : Nat := 0
  rejected : Nat := 0
  conflicted : Nat := 0
deriving DecidableEq

def Counts.add (c : Counts) : Outcome → Counts
  | .created => { c with created := c.created + 1 }
  | .reused => { c with reused := c.reused + 1 }
  | .rejected => { c with rejected := c.rejected + 1 }
  | .conflicted => { c with conflicted := c.conflicted + 1 }

/-- All that were counted. -/
def Counts.total (c : Counts) : Nat := c.created + c.reused + c.rejected + c.conflicted

/-- What a record of a score or an annotation was attached to. -/
structure Landing where
  runRef : String
  runId : String
deriving DecidableEq

/-- `_ApplySession` -/
structure Session where
  /-- The outcomes of the units that were to be created. -/
  counts : Counts := {}
  createUnits : Nat := 0
  /-- The outcomes of the units that were decided before. -/
  preDecided : Counts := {}
  diagnostics : List String := []
  warnings : List String := []
  missingArtifacts : List String := []
  committedArtifacts : Table String String := ∅
  createdRunIds : List String := []
  runIdsBySource : Table String String := ∅
  scoreRowsByRun : Table String (List ScoreRow) := ∅
  scoreRejects : Table String String := ∅

structure World where
  target : Target
  session : Session := {}
  /-- The store after each write so far. -/
  trail : List Target := []
  /-- The scores and annotations that were committed, with the run that each was attached to. -/
  landings : List Landing := []

abbrev Task (α : Type) := Op World Fault α

/-! ### Writing -/

/-- One write to the store. -/
def write (f : Target → Target) : Task Unit :=
  Op.modify (fun w => { w with target := f w.target, trail := w.trail ++ [f w.target] })

def onSession (f : Session → Session) : Task Unit := Op.modify (fun w => { w with session := f w.session })

def land (runRef runId : String) : Task Unit :=
  Op.modify (fun w => { w with landings := w.landings ++ [⟨runRef, runId⟩] })

def diagnose (diagnostic : String) : Task Unit :=
  onSession (fun s => { s with diagnostics := s.diagnostics ++ [diagnostic] })

def warn (warning : String) : Task Unit := onSession (fun s => { s with warnings := s.warnings ++ [warning] })

/-- `put_mapping` -/
def putMapping (m : Mapping) : Task Unit := do
  match ← Op.gets (·.target.mappings.get m.mappingKey) with
  | none => write (fun t => { t with mappings := t.mappings.set m.mappingKey m })
  | some existing => Op.lift (ensure (existing.contentHash = m.contentHash) (.mappingConflict m.mappingKey))

/-- `begin_import` -/
def beginImport (importId : String) (batch : ImportBatch) : Task Unit := do
  match ← Op.gets (·.target.imports.get importId) with
  | none => write (fun t => { t with imports := t.imports.set importId batch })
  | some existing => Op.lift (ensure (existing.manifestSha256 = batch.manifestSha256) (.importConflict importId))

/-- `set_status` -/
def setStatus (importId status : String) : Task Unit := do
  match ← Op.gets (·.target.imports.get importId) with
  | none => Op.raise (.key s!"import not found: {importId}")
  | some batch => write (fun t => { t with imports := t.imports.set importId { batch with status := status } })

/-- `runs.create` -/
def createRun (run : Run) : Task Unit := do
  match ← Op.gets (·.target.runs.get run.id) with
  | some _ => Op.raise (.runConflict s!"run already exists: {run.id}")
  | none => write (fun t => { t with runs := t.runs.set run.id run })

/-- An upsert of a case row, which leaves a row that is there. -/
def Target.upsertCase (t : Target) (runId caseId : String) (row : CaseRow) : Target :=
  match t.caseRuns.get (runId, caseId) with
  | some _ => t
  | none => { t with caseRuns := t.caseRuns.set (runId, caseId) row }

/-- `case_runs.upsert` -/
def upsertCase (runId caseId : String) (row : CaseRow) : Task Unit := write (·.upsertCase runId caseId row)

/-- The append of a pass moves the current pass of its run. -/
def Target.appendPass (t : Target) (pass : ScoringPass) (run : Run) : Target :=
  { t with
    passes := t.passes.set pass.id pass
    runs := t.runs.set pass.runId { run with revision := run.revision + 1, currentScoringPassId := some pass.id } }

/-- `scoring_passes.append`, with the run as it was read. -/
def appendPass (pass : ScoringPass) (run : Run) : Task Unit := do
  let taken ← Op.gets (·.target.passes.get pass.id)
  Op.lift (ensure (taken.isNone) (.runConflict s!"scoring pass already exists: {pass.id}"))
  match ← Op.gets (·.target.runs.get pass.runId) with
  | none => Op.raise (.runConflict "run revision or status changed during scoring")
  | some current =>
    Op.lift (ensure (current.revision = run.revision ∧ current.status = run.status)
      (.runConflict "run revision or status changed during scoring"))
    write (·.appendPass pass current)

/-- `put_bytes` -/
def putBytes (E : Setup) (artifactId : String) (content : Bytes) : Task Unit := do
  let path ← Op.lift ((E.place artifactId).mapError Fault.value)
  write (fun t => { t with files := t.files.set path content })

/-- `read_bytes`; nothing when there is no file. -/
def readBytes (E : Setup) (artifactId : String) : Task (Option Bytes) := do
  let path ← Op.lift ((E.place artifactId).mapError Fault.value)
  Op.gets (·.target.files.get path)

/-- `delete` -/
def deleteFile (E : Setup) (artifactId : String) : Task Unit := do
  let path ← Op.lift ((E.place artifactId).mapError Fault.value)
  write (fun t => { t with files := t.files.erase path })

end Motte.Migration
