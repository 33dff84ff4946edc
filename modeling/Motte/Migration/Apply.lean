import Motte.Migration.Plan

/-! The import of a package, unit by unit.

A unit writes what it imports first and its mapping row last; a later call skips the units
whose row is there. What a unit knows of the units before it is what the session noted. -/
namespace Motte.Migration
open Foundation

section
variable (E : Setup) (S : LoadedSource)

/-! ### The mapping row -/

/-- The mapping row of a record. -/
def mappingOf (r : SourceRecord) (targetType targetId : String) (sha : Option String) (payload : Option Document) :
    Mapping where
  mappingKey := r.mappingKey
  importId := S.manifest.importId
  sourceSystem := S.manifest.sourceSystem
  recordType := r.recordType
  sourceId := r.sourceId
  sourceVersion := r.sourceVersion
  contentHash := r.contentHash
  targetType := targetType
  targetId := targetId
  operator := E.operator
  artifactSha256 := sha
  legacyPayload := payload

/-- The fields that a mapping row must have. -/
def Mapping.valid (m : Mapping) : Bool :=
  m.mappingKey ≠ "" && m.importId ≠ "" && m.sourceSystem ≠ "" && m.recordType ≠ "" && m.sourceId ≠ "" &&
    m.contentHash ≠ ""

/-- A mapping row that is checked and put. -/
def commitRow (m : Mapping) : Task Unit := do
  Op.lift (ensure (m.valid = true) (.value "MappingRecord"))
  putMapping m

/-- `_commit` -/
def commit (r : SourceRecord) (targetType targetId : String) (sha : Option String) (payload : Option Document) :
    Task Unit :=
  commitRow (mappingOf E S r targetType targetId sha payload)

/-- `_resolve_run` -/
def resolveRun (runRef : String) : Task String :=
  Op.gets (fun w => ((w.session.runIdsBySource.get runRef).filter (· ≠ "")).getD (importedRunId runRef))

/-! ### References and artifacts -/

/-- `_apply_reference` -/
def applyReference (r : SourceRecord) : Task Outcome := do
  commit E S r r.recordType s!"{r.recordType}:{r.sourceId}" none (some r.data)
  return .created

/-- The hash of an artifact record. -/
def artifactSha (r : SourceRecord) : Except Fault String :=
  match declaredSha (r.data.getOrNull "sha256") with
  | none => .error (.rejected "artifact_sha_invalid")
  | some sha => if isSha256 sha then .ok sha else .error (.rejected "artifact_sha_invalid")

def noteMissing (entry : String) : Task Unit :=
  onSession (fun s => { s with
    missingArtifacts := if entry ∈ s.missingArtifacts then s.missingArtifacts else s.missingArtifacts ++ [entry] })

def artifactId (r : SourceRecord) : String := s!"imports/{S.manifest.importId}/{r.sourceId}"

/-- The content of an artifact is stored and read back. -/
def storeArtifact (r : SourceRecord) (sha : String) (content : Bytes) : Task Outcome := do
  putBytes E (artifactId S r) content
  match ← readBytes E (artifactId S r) with
  | none => Op.raise (.key (artifactId S r))
  | some readback =>
    if E.sha256 readback ≠ sha then do
      deleteFile E (artifactId S r)
      Op.raise (.rejected "artifact_readback_mismatch")
    else do
      onSession (fun s => { s with committedArtifacts := s.committedArtifacts.set sha (artifactId S r) })
      commit E S r "artifact" (artifactId S r) (some sha) none
      return .created

/-- `_apply_artifact` -/
def applyArtifact (r : SourceRecord) : Task Outcome := do
  let sha ← Op.lift (artifactSha r)
  match S.artifactFiles.get sha with
  | none => do
    noteMissing s!"{r.unitRef}:{sha}"
    Op.raise (.rejected "artifact_missing")
  | some content => do
    Op.lift (ensure (E.sha256 content = sha) (.rejected "artifact_hash_mismatch"))
    storeArtifact E S r sha content

/-! ### Runs -/

/-- The texts of a list that are not empty. -/
def textItems (items : List Value) : List String :=
  items.filterMap (fun
    | .str s => if s = "" then none else some s
    | _ => none)

/-- The cases of a run record. -/
def caseIdsOf (r : SourceRecord) : Except Fault (List String) :=
  ((r.data.getOrNull "case_ids").list.mapError Fault.ofAccess).map textItems

/-- The references to the artifacts of a run that this session has committed; of the others it warns. -/
def collectRefs (runId : String) : List String → Task (List ArtifactRef)
  | [] => return []
  | sha :: rest => do
    match ← Op.gets (·.session.committedArtifacts.get sha) with
    | none => do
      warn s!"run {runId}: artifact {sha} not imported; reference not committed"
      collectRefs runId rest
    | some artifactId => do
      let refs ← collectRefs runId rest
      return ⟨artifactId, sha, true⟩ :: refs

/-- `import_source` -/
def importSourceOf (r : SourceRecord) : ImportSource where
  system := S.manifest.sourceSystem
  recordId := r.sourceId
  contentHash := r.contentHash
  importId := S.manifest.importId

def modelOf (r : SourceRecord) : Value :=
  match r.data.getOrNull "reported_model" with
  | .str s => if s = "" then .str "unknown" else .str s
  | _ => .str "unknown"

/-- The members of the manifest beside `import_source`. -/
def importedManifest (r : SourceRecord) : Document :=
  document [
    ("schema_version", .int 2),
    ("execution", .obj [("backend_id", .str "legacy-import"), ("backend_version", .str S.manifest.transformVersion)]),
    ("origin", .str "imported"),
    ("distributable", .bool false),
    ("model", modelOf r),
    ("evaluation", .obj [("scorer_id", .str "unknown"), ("scorer_version", .str "unknown"),
      ("scoring_pass", .str "unknown")]),
    ("pricing", .str "unknown"),
    ("legacy", .obj r.data.rows)]

def sourceMember (r : SourceRecord) : Value :=
  .obj [("record_id", .str r.sourceId), ("content_hash", .str r.contentHash)]

/-- `legacy_summary` -/
def legacySummaryOf (runRef : String) : Option Value :=
  (S.summaryOf runRef).map (fun summary => .obj [
    ("score", summary.data.getOrNull "score"),
    ("metric", summary.data.getOrNull "metric"),
    ("aggregation", summary.data.getOrNull "aggregation"),
    ("per_case_scores_available", .bool (summary.data.getOrNull "per_case_scores_available").truthy),
    ("source", sourceMember summary)])

/-- `legacy_baseline` -/
def legacyBaselineOf (runRef : String) : Option Value :=
  match S.baselinesOf runRef with
  | [] => none
  | first :: rest =>
    let merged := if rest = [] then []
      else [("merged_records", Value.arr ((first :: rest).map (fun b => .str b.sourceId)))]
    some (.obj ([("source", sourceMember first)] ++ merged |>.foldl (fun d m => d.set m.1 m.2) first.data).rows)

def stampOf (v : Value) : Stamp := if v.truthy then .recorded v else .clock

/-- The run that a record is imported as. -/
def runOf (r : SourceRecord) (caseIds : List String) (refs : List ArtifactRef) : Run where
  id := importedRunId r.sourceId
  status := r.status E
  importSource := some (importSourceOf S r)
  manifest := importedManifest S r
  caseIds := caseIds
  artifactRefs := refs
  legacySummary := legacySummaryOf S r.sourceId
  legacyBaseline := legacyBaselineOf S r.sourceId
  createdAt := stampOf (r.data.getOrNull "created_at")
  updatedAt := stampOf (r.data.getOrNull "completed_at")
  fields := document [
    ("scenario_version", .str s!"legacy-{S.manifest.sourceSystem}@{S.manifest.sourceSchemaVersion}"),
    ("reported_model", modelOf r),
    ("gold", .str "unknown"),
    ("price", .str "unknown")]

/-- The row of a case, with the last record of that id. -/
def caseRowOf (caseId : String) : CaseRow where
  outcome := "imported"
  legacy := ((S.recordsOf "case").reverse.find? (·.sourceId = caseId)).map (·.data)

def upsertCases (runId : String) : List String → Task Unit
  | [] => return ()
  | caseId :: rest => do
    upsertCase runId caseId (caseRowOf S caseId)
    upsertCases runId rest

def noteRun (sourceId runId : String) : Task Unit :=
  onSession (fun s => { s with runIdsBySource := s.runIdsBySource.set sourceId runId })

/-- A run that is not there yet. -/
def createImported (r : SourceRecord) : Task Outcome := do
  let runId := importedRunId r.sourceId
  let caseIds ← Op.lift (caseIdsOf r)
  let refs ← collectRefs runId r.declaredShas
  createRun (runOf E S r caseIds refs)
  upsertCases S runId caseIds
  noteRun r.sourceId runId
  onSession (fun s => { s with createdRunIds := s.createdRunIds ++ [runId] })
  commit E S r "run" runId none none
  return .created

/-- `_apply_run` -/
def applyRun (r : SourceRecord) : Task Outcome := do
  Op.lift (ensure (r.status E ∉ inFlightRunStatuses) (.rejected "in_flight_job_not_importable"))
  Op.lift (ensure (r.status E ∈ terminalRunStatuses) (.rejected s!"unsupported_run_status:{r.status E}"))
  match ← Op.gets (·.target.runs.get (importedRunId r.sourceId)) with
  | none => createImported E S r
  | some run =>
    if run.contentHash = some r.contentHash then do
      noteRun r.sourceId (importedRunId r.sourceId)
      commit E S r "run" (importedRunId r.sourceId) none none
      return .reused
    else Op.raise (.conflicted "run_id_content_conflict")

/-! ### Annotations and scores -/

/-- The run carries the annotation of this type. -/
def Run.annotated (run : Run) (recordType : String) : Bool :=
  if recordType = "run_summary" then run.legacySummary.isSome else run.legacyBaseline.isSome

/-- `_apply_run_annotation` -/
def applyRunAnnotation (r : SourceRecord) : Task Outcome := do
  let runRef := E.str (r.data.getOrNull "run_id")
  let runId ← resolveRun runRef
  match ← Op.gets (·.target.runs.get runId) with
  | none => Op.raise (.rejected "orphan_reference")
  | some run => do
    Op.lift (ensure (run.annotated r.recordType = true) (.rejected "annotation_target_missing"))
    commit E S r r.recordType runId none none
    land runRef runId
    return .created

/-- A number that is finite, as a float. -/
def finiteNumber : Value → Except Fault (Option Double)
  | .int n =>
    match Double.ofInt n with
    | none => .error .overflow
    | some d => .ok (some d)
  | .float bits => .ok (if Double.isFinite ⟨bits⟩ then some ⟨bits⟩ else none)
  | _ => .ok none

def passedOf : Value → Option Bool
  | .bool b => some b
  | _ => none

/-- `_score_row` -/
def scoreRow (r : SourceRecord) : Except Fault ScoreRow :=
  match r.data.getOrNull "case_id" with
  | .str caseId =>
    if caseId = "" then .error (.rejected "score_case_id_missing")
    else
      (finiteNumber (r.data.getOrNull "value")).map (fun value =>
        let passed := passedOf (r.data.getOrNull "passed")
        { caseId := caseId
          evaluatorVersion := S.manifest.transformVersion
          metricStatus := if value.isSome then "scored" else "insufficient_evidence"
          value := value
          passed := passed
          denominator := value.isSome || passed.isSome
          reason := if value.isSome then none else some "legacy_score_not_numeric"
          legacyMetric := r.data.getOrNull "metric" })
  | _ => .error (.rejected "score_case_id_missing")

/-- The rows of the scores of a run with these cases, and why others are refused. -/
def prepareRows (caseIds : List String) : List SourceRecord → List ScoreRow → Table String String →
    Except Fault (List ScoreRow × Table String String)
  | [], rows, rejects => .ok (rows, rejects)
  | r :: rest, rows, rejects =>
    if (rejects.get r.sourceId).isSome then prepareRows caseIds rest rows rejects
    else
      match scoreRow S r with
      | .error (.rejected diagnostic) => prepareRows caseIds rest rows (rejects.set r.sourceId diagnostic)
      | .error e => .error e
      | .ok row =>
        if row.caseId ∉ caseIds then prepareRows caseIds rest rows (rejects.set r.sourceId "case_not_in_run")
        else if rows.any (·.caseId = row.caseId) then
          prepareRows caseIds rest rows (rejects.set r.sourceId "duplicate_legacy_score")
        else prepareRows caseIds rest (rows ++ [row]) rejects

/-- `_prepare_score_rows` -/
def prepareScoreRows (runRef : String) (run : Run) : Task (List ScoreRow) := do
  match ← Op.gets (·.session.scoreRowsByRun.get runRef) with
  | some rows => return rows
  | none => do
    let rejects ← Op.gets (·.session.scoreRejects)
    let prepared ← Op.lift (prepareRows S run.caseIds (S.scoresOf runRef) [] rejects)
    onSession (fun s => { s with
      scoreRowsByRun := s.scoreRowsByRun.set runRef prepared.1
      scoreRejects := prepared.2 })
    return prepared.1

def passIdOf (runId : String) : String := s!"pass-{runId}-legacy"

def passOf (runId : String) (rows : List ScoreRow) : ScoringPass where
  id := passIdOf runId
  runId := runId
  source := "legacy-import"
  sourceSystem := S.manifest.sourceSystem
  recordCount := rows.length
  scores := rows

/-- The pass of a run, when there is none yet and there are scores. -/
def ensurePass (runRef runId : String) (run : Run) (rows : List ScoreRow) : Task Unit := do
  let existing ← Op.gets (·.target.passes.get (passIdOf runId))
  if rows ≠ [] ∧ existing.isNone then do
    appendPass (passOf S runId rows) run
    land runRef runId
  else return ()

/-- `_apply_score` -/
def applyScore (r : SourceRecord) : Task Outcome := do
  let runRef := E.text (r.data.getOrNull "run_id")
  let runId ← resolveRun runRef
  match ← Op.gets (·.target.runs.get runId) with
  | none => Op.raise (.rejected "orphan_reference")
  | some run => do
    let rows ← prepareScoreRows S runRef run
    match ← Op.gets (·.session.scoreRejects.get r.sourceId) with
    | some diagnostic => Op.raise (.rejected diagnostic)
    | none => do
      ensurePass S runRef runId run rows
      commit E S r "score" s!"{passIdOf runId}:{r.sourceId}" none none
      land runRef runId
      return .created

/-! ### Units -/

/-- The unit, by its type. -/
def applyRecord (r : SourceRecord) : Task Outcome :=
  if r.recordType = "artifact" then applyArtifact E S r
  else if r.recordType = "run" then applyRun E S r
  else if r.recordType = "run_summary" ∨ r.recordType = "baseline" then applyRunAnnotation E S r
  else if r.recordType = "score" then applyScore E S r
  else applyReference E S r

def count (outcome : Outcome) : Task Unit := onSession (fun s => { s with counts := s.counts.add outcome })

/-- `apply_unit` -/
def applyUnit (r : SourceRecord) : Task Unit := do
  match ← Op.result (applyRecord E S r) with
  | .ok outcome => count outcome
  | .error (.rejected diagnostic) => do
    count .rejected
    diagnose s!"{diagnostic}:{r.unitRef}"
  | .error (.conflicted diagnostic) => do
    count .conflicted
    diagnose s!"{diagnostic}:{r.unitRef}"
  | .error (.mappingConflict _) => do
    count .conflicted
    diagnose s!"mapping_content_conflict:{r.unitRef}"
  | .error e => Op.raise e

/-- The row of a run that is there without it. -/
def restoreRow (r : SourceRecord) : Task Unit := do
  let mapping ← Op.gets (·.target.mappings.get r.mappingKey)
  if r.recordType = "run" ∧ mapping.isNone then commit E S r "run" (importedRunId r.sourceId) none none
  else return ()

def preDecide (outcome : Outcome) (diagnostic : Option String) : Task Unit := do
  onSession (fun s => { s with preDecided := s.preDecided.add outcome })
  match diagnostic with
  | none => return ()
  | some text => diagnose text

/-- One unit of the package. -/
def processUnit : ImportUnit → Task Unit
  | .loadReject rejected => preDecide .rejected (if rejected.diagnostic = "" then none else some rejected.diagnostic)
  | .planned unit =>
    match unit.decision with
    | .create => do
      onSession (fun s => { s with createUnits := s.createUnits + 1 })
      applyUnit E S unit.record
    | .reused => do
      restoreRow E S unit.record
      preDecide .reused unit.diagnostic
    | .conflicted => preDecide .conflicted unit.diagnostic
    | .rejected => preDecide .rejected unit.diagnostic

def processUnits : List ImportUnit → Task Unit
  | [] => return ()
  | u :: rest => do
    processUnit E S u
    processUnits rest

/-! ### The whole import -/

structure ImportVerification where
  countsMatch : Bool
  hashesMatch : Bool
  referencesOk : Bool
deriving DecidableEq

/-- What the import fills in of an `ImportReport`. -/
structure ImportReport where
  importId : String
  sourceSystem : String
  contentSha256 : String
  planned : Nat
  created : Nat
  reused : Nat
  rejected : Nat
  conflicted : Nat
  pending : Int
  missingArtifacts : List String
  warnings : List String
  diagnostics : List String
  checkpoint : Nat
  verification : ImportVerification

/-- The hashes of the artifacts that this session has committed. -/
def verifyHashes : List (String × String) → Task Bool
  | [] => return true
  | (sha, artifactId) :: rest => do
    match ← readBytes E artifactId with
    | none => do
      warn s!"artifact vanished after commit: {artifactId}"
      let _ ← verifyHashes rest
      return false
    | some readback =>
      if E.sha256 readback ≠ sha then do
        warn s!"artifact hash mismatch after commit: {artifactId}"
        let _ ← verifyHashes rest
        return false
      else verifyHashes rest

/-- The run is there, and so are its artifacts and its case rows. -/
def Target.referencesOk (t : Target) (runId : String) : Bool :=
  match t.runs.get runId with
  | none => false
  | some run => run.artifactRefs.all (·.available) && run.caseIds.all (fun c => (t.caseRuns.get (runId, c)).isSome)

/-- `verify` -/
def verify (planned : Nat) (pending : Int) (counts : Counts) : Task ImportVerification := do
  let committed ← Op.gets (·.session.committedArtifacts.rows)
  let hashesMatch ← verifyHashes E committed
  let referencesOk ← Op.gets (fun w => w.session.createdRunIds.all w.target.referencesOk)
  return {
    countsMatch := decide (pending = 0) && decide (counts.total = planned)
    hashesMatch := hashesMatch
    referencesOk := referencesOk }

def Counts.plus (a b : Counts) : Counts :=
  ⟨a.created + b.created, a.reused + b.reused, a.rejected + b.rejected, a.conflicted + b.conflicted⟩

/-- The checks that the package is the one that was planned. -/
def checkSource (diskHash : String) (plan : Option PlanReport) : Except Fault Unit := do
  ensure (∀ p ∈ plan, p.importId = S.manifest.importId) (.value "plan report belongs to a different import batch")
  ensure (diskHash = S.contentSha256)
    (.sourceChanged "source package changed on disk since it was loaded; reload and re-plan")
  ensure (∀ p ∈ plan, p.contentSha256 = diskHash)
    (.sourceChanged "source package changed since the dry-run plan; the plan is void, re-plan first")

/-- `apply_import`, of a package that has this hash on the disk -/
def applyImport (diskHash : String) (plan : Option PlanReport) : Task ImportReport := do
  Op.lift (checkSource S diskHash plan)
  let plan ← match plan with
    | none => planImport E S
    | some plan => pure plan
  let t ← Op.gets (·.target)
  let units := orderedUnits (unitDecisions E t S)
  processUnits E S units
  let session ← Op.gets (·.session)
  let pending : Int := session.createUnits - session.counts.total
  let counts := session.counts.plus session.preDecided
  let verification ← verify E units.length pending counts
  setStatus S.manifest.importId "applied"
  let session ← Op.gets (·.session)
  return {
    importId := S.manifest.importId
    sourceSystem := S.manifest.sourceSystem
    contentSha256 := diskHash
    planned := units.length
    created := counts.created
    reused := counts.reused
    rejected := counts.rejected
    conflicted := counts.conflicted
    pending := pending
    missingArtifacts := plan.missingArtifacts ++ session.missingArtifacts
    warnings := plan.warnings ++ session.warnings
    diagnostics := plan.diagnostics ++ session.diagnostics
    checkpoint := counts.created + counts.reused
    verification := verification }

/-- A call of `apply_import` on this store. -/
def importPackage (diskHash : String) (plan : Option PlanReport) (t : Target) : Except Fault ImportReport × World :=
  applyImport E S diskHash plan { target := t }

end

end Motte.Migration
