import Mathlib.Data.List.Sort
import Mathlib.Data.Prod.Lex
import Mathlib.Data.String.Basic
import Motte.Migration.Target

/-! What is planned for each unit of a package, before anything is imported. -/
namespace Motte.Migration
open Foundation

/-- What is to be done with a unit. -/
inductive Decision where
  | create
  | reused
  | conflicted
  | rejected
deriving DecidableEq

/-- `PlannedUnit` of a record. -/
structure PlannedUnit where
  record : SourceRecord
  decision : Decision := .create
  diagnostic : Option String := none

/-- A unit of the package: a record, or one that the loading has rejected. -/
inductive ImportUnit where
  | planned (unit : PlannedUnit)
  | loadReject (rejected : RejectedSourceRecord)

namespace ImportUnit

def recordType : ImportUnit → String
  | .planned unit => unit.record.recordType
  | .loadReject rejected => rejected.recordType

def unitRef : ImportUnit → String
  | .planned unit => unit.record.unitRef
  | .loadReject rejected => rejected.unitRef

end ImportUnit

section
variable (E : Setup)

/-- Why the state of a run record refuses it. -/
def statusRefusal (r : SourceRecord) : Option String :=
  let status := r.status E
  if status ∈ inFlightRunStatuses then some s!"in_flight_job_not_importable:{r.unitRef}"
  else if status ∉ terminalRunStatuses then some s!"unsupported_run_status:{r.unitRef}:{status}"
  else none

/-- The hash of the content that a run was imported from. -/
def Run.contentHash (run : Run) : Option String := run.importSource.map (·.contentHash)

/-- The decision on a record that its own state does not refuse. -/
def ledgerDecision (t : Target) (r : SourceRecord) : PlannedUnit :=
  match t.mappings.get r.mappingKey with
  | some mapping =>
    if mapping.contentHash = r.contentHash then { record := r, decision := .reused }
    else { record := r, decision := .conflicted, diagnostic := some s!"mapping_content_conflict:{r.unitRef}" }
  | none =>
    if r.recordType = "run" then
      match t.runs.get (importedRunId r.sourceId) with
      | none => { record := r }
      | some run =>
        if run.contentHash = some r.contentHash then { record := r, decision := .reused }
        else { record := r, decision := .conflicted, diagnostic := some s!"run_id_content_conflict:{r.unitRef}" }
    else { record := r }

/-- The decision on a record. -/
def unitDecision (t : Target) (r : SourceRecord) : PlannedUnit :=
  match if r.recordType = "run" then statusRefusal E r else none with
  | some diagnostic => { record := r, decision := .rejected, diagnostic := some diagnostic }
  | none => ledgerDecision t r

/-- `unit_decisions` -/
def unitDecisions (t : Target) (S : LoadedSource) : List ImportUnit :=
  S.rejected.map .loadReject ++ S.records.map (fun r => .planned (unitDecision E t r))

/-! ### The order of the import -/

/-- `IMPORT_ORDER` -/
def importOrder : List String :=
  ["provider_connection", "model_profile", "dataset", "case", "scenario", "artifact", "run", "run_summary", "score",
    "baseline"]

/-- The place of a type in the order; one that is not listed comes last. -/
def typeRank (recordType : String) : Nat := importOrder.idxOf recordType

/-- The key that units are ordered by. -/
def ImportUnit.sortKey (u : ImportUnit) : Nat ×ₗ String ×ₗ String :=
  toLex (typeRank u.recordType, toLex (u.recordType, u.unitRef))

/-- `_ordered_units` -/
def orderedUnits (units : List ImportUnit) : List ImportUnit :=
  units.insertionSort (fun a b => a.sortKey ≤ b.sortKey)

/-! ### The plan -/

/-- What the import reads of the `ImportReport` of a plan. -/
structure PlanReport where
  importId : String
  contentSha256 : String
  warnings : List String
  missingArtifacts : List String
  diagnostics : List String

/-- `declared_artifact_shas`, unit by unit -/
def declaredArtifacts (S : LoadedSource) : List (String × String) :=
  S.records.flatMap (fun r =>
    if r.recordType = "artifact" then
      ((declaredSha (r.data.getOrNull "sha256")).toList.filter (· ≠ "")).map (fun sha => (sha, r.unitRef))
    else if r.recordType = "run" then (r.declaredShas.filter (· ≠ "")).map (fun sha => (sha, r.unitRef))
    else [])

/-- `_missing_artifacts` -/
def missingArtifacts (S : LoadedSource) : List String :=
  let declared := declaredArtifacts S
  let shas := (declared.map Prod.fst).dedup.insertionSort (· ≤ ·)
  (shas.filter (fun sha => (S.artifactFiles.get sha).isNone)).flatMap (fun sha =>
    (declared.filter (·.1 = sha)).map (fun d => s!"{d.2}:{sha}"))

/-- `plan_import` -/
def planImport (S : LoadedSource) : Task PlanReport := do
  beginImport S.manifest.importId {
    manifestSha256 := S.manifest.manifestHash
    status := "planned"
    operator := E.operator
    sourceSystem := S.manifest.sourceSystem
    contentSha256 := S.contentSha256 }
  let t ← Op.gets (·.target)
  return {
    importId := S.manifest.importId
    contentSha256 := S.contentSha256
    warnings := S.warnings ++ (S.restricted.insertionSort (· ≤ ·)).map (fun ref => s!"license restricted: {ref}")
    missingArtifacts := missingArtifacts S
    diagnostics := (S.rejected.map (·.diagnostic)).filter (· ≠ "") ++
      S.records.filterMap (fun r => (unitDecision E t r).diagnostic) }

end

end Motte.Migration
