import Motte.Migration.Apply

/-! What a unit leaves of the store it finds.

The effect of a unit is a function of the store and of what the session has noted: the
artifacts it has committed, and the scores it has prepared. A unit that is refused leaves
the store it found, or what it had written before it was; one whose key is bound already
puts no row. -/
namespace Motte.Migration
open Foundation

/-! ### Writes -/

namespace Target
variable (t : Target)

/-- With the mapping row, unless its key is bound. -/
def withMapping (m : Mapping) : Target :=
  match t.mappings.get m.mappingKey with
  | none => { t with mappings := t.mappings.set m.mappingKey m }
  | some _ => t

def withFile (path : String) (content : Bytes) : Target := { t with files := t.files.set path content }

def withRun (run : Run) : Target := { t with runs := t.runs.set run.id run }

/-- With the rows of these cases. -/
def withCases (S : LoadedSource) (runId : String) (caseIds : List String) : Target :=
  caseIds.foldl (fun t caseId => t.upsertCase runId caseId (caseRowOf S caseId)) t

end Target

section
variable (E : Setup) (S : LoadedSource)

/-! ### The effect of a record -/

def commitEffect (m : Mapping) (t : Target) : Except Fault Target :=
  if m.valid then .ok (t.withMapping m) else .error (.value "MappingRecord")

/-- The content that an artifact record is imported with, if it is. -/
def importable (r : SourceRecord) : Option (String × Bytes) :=
  match artifactSha r with
  | .error _ => none
  | .ok sha =>
    match S.artifactFiles.get sha with
    | none => none
    | some content => if E.sha256 content = sha then some (sha, content) else none

def referenceEffect (r : SourceRecord) (t : Target) : Except Fault Target :=
  commitEffect (mappingOf E S r r.recordType s!"{r.recordType}:{r.sourceId}" none (some r.data)) t

def artifactEffect (r : SourceRecord) (t : Target) : Except Fault Target :=
  match importable E S r with
  | none => .ok t
  | some (sha, content) =>
    match E.place (artifactId S r) with
    | .error message => .error (.value message)
    | .ok path =>
      commitEffect (mappingOf E S r "artifact" (artifactId S r) (some sha) none) (t.withFile path content)

/-- The mapping row of a run record. -/
def runRow (r : SourceRecord) : Mapping := mappingOf E S r "run" (importedRunId r.sourceId) none none

def runEffect (refs : List ArtifactRef) (r : SourceRecord) (t : Target) : Except Fault Target :=
  if r.status E ∉ terminalRunStatuses then .ok t
  else
    match t.runs.get (importedRunId r.sourceId) with
    | some run => if run.contentHash = some r.contentHash then commitEffect (runRow E S r) t else .ok t
    | none =>
      match caseIdsOf r with
      | .error e => .error e
      | .ok caseIds =>
        commitEffect (runRow E S r)
          ((t.withRun (runOf E S r caseIds refs)).withCases S (importedRunId r.sourceId) caseIds)

/-- The run that an annotation names. -/
def annotationRef (r : SourceRecord) : String := E.str (r.data.getOrNull "run_id")

def annotationEffect (r : SourceRecord) (t : Target) : Except Fault Target :=
  match t.runs.get (importedRunId (annotationRef E r)) with
  | none => .ok t
  | some run =>
    if run.annotated r.recordType then
      commitEffect (mappingOf E S r r.recordType (importedRunId (annotationRef E r)) none none) t
    else .ok t

/-- The run that a score names. -/
def scoreRef (r : SourceRecord) : String := E.text (r.data.getOrNull "run_id")

/-- The scores that are to be in the pass of the run, unless the record is refused. -/
abbrev Verdict := Except Fault (Option (List ScoreRow))

def scoreEffect (verdict : Run → Verdict) (r : SourceRecord) (t : Target) : Except Fault Target :=
  let runId := importedRunId (scoreRef E r)
  match t.runs.get runId with
  | none => .ok t
  | some run =>
    match verdict run with
    | .error e => .error e
    | .ok none => .ok t
    | .ok (some rows) =>
      commitEffect (mappingOf E S r "score" s!"{passIdOf runId}:{r.sourceId}" none none)
        (if rows ≠ [] ∧ (t.passes.get (passIdOf runId)).isNone then t.appendPass (passOf S runId rows) run else t)

/-- The references that a run gets to the artifacts that are committed. -/
def refsOf (committed : Table String String) (r : SourceRecord) : List ArtifactRef :=
  r.declaredShas.filterMap (fun sha => (committed.get sha).map (fun artifactId => ⟨artifactId, sha, true⟩))

/-- The prepared scores and refusals, once the scores of the run are prepared. -/
def preparedFor (session : Session) (runRef : String) (run : Run) :
    Except Fault (List ScoreRow × Table String String) :=
  match session.scoreRowsByRun.get runRef with
  | some rows => .ok (rows, session.scoreRejects)
  | none => prepareRows S run.caseIds (S.scoresOf runRef) [] session.scoreRejects

def verdictOf (r : SourceRecord) (prepared : Except Fault (List ScoreRow × Table String String)) : Verdict :=
  prepared.map (fun p => if (p.2.get r.sourceId).isSome then none else some p.1)

/-- What a record does when it is to be created. -/
def recordEffect (session : Session) (r : SourceRecord) (t : Target) : Except Fault Target :=
  if r.recordType = "artifact" then artifactEffect E S r t
  else if r.recordType = "run" then runEffect E S (refsOf session.committedArtifacts r) r t
  else if r.recordType = "run_summary" ∨ r.recordType = "baseline" then annotationEffect E S r t
  else if r.recordType = "score" then
    scoreEffect E S (fun run => verdictOf r (preparedFor S session (scoreRef E r) run)) r t
  else referenceEffect E S r t

/-! ### What a record leaves half done -/

/-- What is left when the process dies in a record that is to be created, before its mapping row is put. -/
inductive Midway (session : Session) (r : SourceRecord) (t : Target) : Target → Prop
  | file {sha : String} {content : Bytes} {path : String} (artifact : r.recordType = "artifact")
      (imported : importable E S r = some (sha, content)) (placed : E.place (artifactId S r) = .ok path) :
      Midway session r t (t.withFile path content)
  | cases {caseIds upserted rest : List String} (isRun : r.recordType = "run") (status : r.status E ∈ terminalRunStatuses)
      (absent : t.runs.get (importedRunId r.sourceId) = none) (read : caseIdsOf r = .ok caseIds)
      (split : caseIds = upserted ++ rest) :
      Midway session r t ((t.withRun (runOf E S r caseIds (refsOf session.committedArtifacts r))).withCases S
        (importedRunId r.sourceId) upserted)
  | pass {run : Run} {rows : List ScoreRow} (isScore : r.recordType = "score")
      (found : t.runs.get (importedRunId (scoreRef E r)) = some run)
      (verdict : verdictOf r (preparedFor S session (scoreRef E r) run) = .ok (some rows)) (given : rows ≠ [])
      (absent : t.passes.get (passIdOf (importedRunId (scoreRef E r))) = none) :
      Midway session r t (t.appendPass (passOf S (importedRunId (scoreRef E r)) rows) run)

/-! ### What a record leaves in the session -/

/-- What `apply_unit` catches. -/
def Fault.isCaught : Fault → Bool
  | .rejected _ | .conflicted _ | .mappingConflict _ => true
  | _ => false

/-- The artifacts that are committed, after one more record. -/
def commitsAfter (r : SourceRecord) (committed : Table String String) : Table String String :=
  if r.recordType = "artifact" then
    match importable E S r with
    | none => committed
    | some (sha, _) => committed.set sha (artifactId S r)
  else committed

/-- The prepared scores, after one more record. -/
def preparedAfter (r : SourceRecord) (session : Session) (t : Target) :
    Table String (List ScoreRow) × Table String String :=
  if r.recordType = "score" then
    match t.runs.get (importedRunId (scoreRef E r)) with
    | none => (session.scoreRowsByRun, session.scoreRejects)
    | some run =>
      match session.scoreRowsByRun.get (scoreRef E r) with
      | some _ => (session.scoreRowsByRun, session.scoreRejects)
      | none =>
        match prepareRows S run.caseIds (S.scoresOf (scoreRef E r)) [] session.scoreRejects with
        | .error _ => (session.scoreRowsByRun, session.scoreRejects)
        | .ok prepared => (session.scoreRowsByRun.set (scoreRef E r) prepared.1, prepared.2)
  else (session.scoreRowsByRun, session.scoreRejects)

/-- Every run that the session has noted has the id of an imported run. -/
def Session.Resolves (session : Session) : Prop :=
  ∀ runRef runId, session.runIdsBySource.get runRef = some runId → runId = importedRunId runRef

/-- The reference by which an annotation or a score names its run. -/
def SourceRecord.runRef (r : SourceRecord) : String :=
  if r.recordType = "score" then scoreRef E r else annotationRef E r

/-- An annotation or a score. -/
def SourceRecord.attached (r : SourceRecord) : Bool :=
  r.recordType = "run_summary" || r.recordType = "baseline" || r.recordType = "score"

/-- How a record that is to be created ends, with what it does to the store. -/
structure Ended (r : SourceRecord) (w : World) (outcome : Except Fault Target) (w' : World) : Prop where
  effect : recordEffect E S w.session r w.target = outcome
  target : ∀ t, outcome = .ok t → w'.target = t
  committed : ∀ t, outcome = .ok t → w'.session.committedArtifacts = commitsAfter E S r w.session.committedArtifacts
  prepared : ∀ t, outcome = .ok t →
    (w'.session.scoreRowsByRun, w'.session.scoreRejects) = preparedAfter E S r w.session w.target
  resolves : w'.session.Resolves
  trail : ∀ t ∈ w'.trail, t ∈ w.trail ∨ outcome = .ok t ∨ Midway E S w.session r w.target t
  landings : ∃ ls, w'.landings = w.landings ++ ls ∧
    ∀ l ∈ ls, l = ⟨r.runRef E, importedRunId (r.runRef E)⟩ ∧ r.attached ∧ (w.target.runs.get l.runId).isSome

end

end Motte.Migration
