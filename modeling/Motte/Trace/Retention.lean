import Mathlib.Data.Int.Range
import Motte.Trace.References

/-! Trace retention: protection, plans, archives and the commit.

The events of a finished run may be archived from the front: the rows go to an
archive file, a receipt of it to the database, and only then are the rows deleted.
The receipt keeps the references of the archived rows. A plan names the ranges to
archive; the commit checks it against the store as it finds it. The other tables
are read as the records they give to the scans. -/
namespace Motte.Trace
open Foundation

/-! ### Receipts -/

/-- A `TraceArchiveReceipt` -/
structure TraceArchiveReceipt (τ : Type) where
  archiveId : String
  planId : String
  range : TracePrefix
  artifactId : String
  sha256 : String
  bytes : Int
  cutoff : τ
  artifactRefs : List (String × Value)
  artifactHashes : List String
  committedAt : Option τ
  referenceDocument : Option ReferenceDocument
deriving DecidableEq

/-- The checks of the model on a document. -/
def ReferenceDocument.valid (d : ReferenceDocument) : Bool :=
  d.runIds.all nonBlank ∧ d.eventSeqs.all (fun e => nonBlank e.1 ∧ 0 < e.2) ∧
    d.passReferences.all (fun p => (Edge.pass p).valid)

/-- The checks of the model on a receipt: validating it changes nothing. -/
def TraceArchiveReceipt.valid {τ : Type} (r : TraceArchiveReceipt τ) : Bool :=
  nonBlank r.archiveId ∧ digest? r.planId = some r.planId ∧ r.range.validate = some r.range ∧ nonBlank r.artifactId ∧
    digest? r.sha256 = some r.sha256 ∧ 0 < r.bytes ∧
    r.artifactRefs.all (fun ref => nonBlank ref.1 ∧ (ref.2 = .null ∨ (ref.2.str?.bind digest?).map .str = some ref.2)) ∧
    Value.sortMembers r.artifactRefs = r.artifactRefs ∧ r.artifactHashes.all (fun h => digest? h = some h) ∧
    ordered (· ≤ ·) r.artifactHashes = r.artifactHashes ∧ r.referenceDocument.all ReferenceDocument.valid

/-- `receipt_reference_record` -/
def receiptRecord {τ : Type} (getPass : String → Option Value) (traceProtection : Bool) (r : TraceArchiveReceipt τ) :
    Option Value := do
  let document ← r.referenceDocument
  let (runs, events) ← resolveReferenceDocument getPass document
  let passRefs : List (String × Value) := if traceProtection then [] else
    [("pass_refs", .arr (document.passReferences.map fun p => .obj [("source_pass_id", .str p.passId)]))]
  some (.obj ([("archive_id", .str r.archiveId), ("run_id", .str r.range.runId), ("artifact_id", .str r.artifactId),
    ("sha256", .str r.sha256),
    ("artifacts", .arr (r.artifactRefs.map (fun ref => .obj [("artifact_id", .str ref.1), ("sha256", ref.2)]) ++
      r.artifactHashes.map (fun h => .obj [("sha256", .str h)]))),
    ("referenced_run_ids", .arr ((ordered (· ≤ ·) runs).map .str)),
    ("event_refs", .arr ((ordered seqLe events).map fun e =>
      .obj [("kind", .str "event"), ("run_id", .str e.1), ("locator", .str (toString e.2))]))] ++ passRefs))

/-! ### The store -/

/-- The tables that retention reads and writes. -/
structure TraceStore (β τ : Type) where
  /-- `store.runs.list()` -/
  runs : List Value
  /-- the records of the other tables, as the scan for references yields them -/
  others : List ScanRecord
  /-- such a record belongs to a run or to an import, never to both -/
  single : ∀ r ∈ others, r.owner = none ∨ r.importId = none
  /-- policies, datasets and import conflicts, which only the scan for protection yields -/
  unowned : List Value
  /-- whether these tables pass the check that no row was left out -/
  covered : Bool
  /-- the calibration jobs, which own events without being runs -/
  calibrationRuns : List String
  /-- `store.scoring_passes.get` -/
  passes : String → Option Value
  imports : List Value
  tombstones : List Value
  /-- `trace_events` -/
  events : List (StoredTraceEvent τ)
  /-- `trace_archive_receipts` -/
  receipts : List (TraceArchiveReceipt τ)
  /-- the archive files -/
  files : Table String β

section Store
variable {β τ : Type}

/-- `_TERMINAL` -/
def terminalStatuses : List String := ["completed", "failed", "cancelled", "unsupported", "profile_stale"]

def runName (run : Value) : Option String := (run.get? "id").bind Value.str?

def isTerminal (run : Value) : Bool := ((run.get? "status").bind Value.str?).any (· ∈ terminalStatuses)

namespace TraceStore

def runIds (s : TraceStore β τ) : List String := s.runs.filterMap runName

/-- The rows of a run, `ORDER BY seq`. -/
def rowsOf (s : TraceStore β τ) (runId : String) : List (StoredTraceEvent τ) :=
  (s.events.filter (fun row => row.runId = runId)).insertionSort (fun a b => a.seq ≤ b.seq)

/-- What a scan yields; the members of a payload are taken in key order. Only the scan for protection
looks at the events of calibration jobs. -/
def scan (s : TraceStore β τ) (traceProtection : Bool) : Option (List ScanRecord) := do
  let archived ← s.receipts.mapM fun r =>
    (receiptRecord s.passes traceProtection r).map (fun v => (⟨v, some r.range.runId, none⟩ : ScanRecord))
  let owners := s.runIds ++ if traceProtection then s.calibrationRuns else []
  some (s.runs.map (fun run => ⟨run, runName run, none⟩) ++
    owners.flatMap (fun id => (s.rowsOf id).map (fun row => ⟨row.payload.canon, some id, none⟩)) ++ s.others ++ archived)

/-- `_TraceCoverage.verify`: every row belongs to an owner that was scanned, under its own number. -/
def coverage (s : TraceStore β τ) : Bool :=
  s.covered ∧ s.events.all fun row => row.runId ∈ s.runIds ++ s.calibrationRuns ∧
    ((row.payload.get? "run_id").getD (.str row.runId)) = .str row.runId ∧ row.payload.get? "seq" = some (.int row.seq)

end TraceStore

/-- `_stored_trace_event` -/
def storedTraceEvent (row : StoredTraceEvent τ) : Option (StoredTraceEvent τ) := do
  guard (row.payload.get? "run_id" = some (.str row.runId) ∧ row.payload.get? "seq" = some (.int row.seq))
  row.validate

/-- `stored_for_run` -/
def TraceStore.storedForRun (s : TraceStore β τ) (runId : String) : Option (List (StoredTraceEvent τ)) :=
  (s.rowsOf runId).mapM storedTraceEvent

/-! ### Protection -/

structure TraceProtection where
  runIds : List String
  eventSeqs : List (String × Nat)
deriving DecidableEq

/-- The run is kept for what it is: not finished, or imported. `none` if it is malformed. -/
def protectedRun (run : Value) : Option (List String) := do
  let id ← (run.get? "id").bind identity?
  match run.get? "manifest" with
  | none | some .null => some (if isTerminal run then [] else [id])
  | some (.obj manifest) =>
    some (if !isTerminal run ∨ (present? (.obj manifest) "import_source").isSome then [id] else [])
  | some _ => none

/-- The mentions of all records. -/
def allMentions (records : List Value) : List Mention := records.flatMap (mentions false)

/-- `collect_trace_protection` -/
def collectTraceProtection (s : TraceStore β τ) : Option TraceProtection := do
  let kept ← s.runs.mapM protectedRun
  let scanned ← s.scan true
  let records := scanned.map (fun r => (r.value, r.owner)) ++ s.unowned.map (fun v => (v, none))
  let _ ← (References.empty.recordAll (allMentions (records.map Prod.fst))).toOption
  let document ← extractReferenceDocument records
  guard s.coverage
  let (runs, events) ← resolveReferenceDocument s.passes document
  some ⟨ordered (· ≤ ·) (kept.flatten ++ runs), ordered seqLe events⟩

/-! ### Receipts against the store -/

/-- `_receipt_from_row` accepts the receipt. -/
def committedReceipt (r : TraceArchiveReceipt τ) : Bool :=
  r.valid ∧ r.committedAt.isSome ∧ r.archiveId = "trace-archive-" ++ bare r.sha256

def receiptLe (a b : TraceArchiveReceipt τ) : Prop :=
  a.range.runId < b.range.runId ∨ a.range.runId = b.range.runId ∧
    (a.range.firstSeq < b.range.firstSeq ∨ a.range.firstSeq = b.range.firstSeq ∧ a.archiveId ≤ b.archiveId)

instance : DecidableRel (receiptLe (τ := τ)) := fun _ _ => inferInstanceAs (Decidable (_ ∨ _))

/-- `checked_trace_receipts` -/
def checkedTraceReceipts (s : TraceStore β τ) : Option (List (TraceArchiveReceipt τ)) :=
  if s.receipts.all committedReceipt then some (s.receipts.insertionSort receiptLe) else none

/-- How far each run is archived, and the highest number that must be live. -/
def addBoundary (boundaries : Table String (Int × Int)) (r : TraceArchiveReceipt τ) : Option (Table String (Int × Int)) :=
  let last := (boundaries.get r.range.runId).getD (0, 0)
  if r.range.firstSeq = last.1 + 1 then
    some (boundaries.set r.range.runId (r.range.lastSeq, max last.2 r.range.keepSeq))
  else none

/-- The live rows of a run fit its receipts. -/
def retained (s : TraceStore β τ) (entry : String × Int × Int) : Bool :=
  entry.1 ∈ s.runIds ∧ (s.storedForRun entry.1).any fun rows =>
    rows.getLast?.any (fun row => entry.2.2 ≤ row.seq) ∧ rows.all (fun row => entry.2.1 < row.seq)

/-- `trace_receipt_boundaries` -/
def traceReceiptBoundaries (s : TraceStore β τ) (receipts : List (TraceArchiveReceipt τ)) : Option (String → Int) := do
  let boundaries ← receipts.foldlM addBoundary ∅
  guard (boundaries.rows.all (retained s))
  some (fun runId => ((boundaries.get runId).map Prod.fst).getD 0)

/-! ### Plans -/

structure RetentionConfig where
  enabled : Bool
  retentionDays : Option Int
deriving DecidableEq

/-- A `TraceRetentionPlan` with a cutoff. -/
structure TraceRetentionPlan (τ : Type) where
  planId : String
  storeIdentity : String
  config : RetentionConfig
  cutoff : τ
  protectionSha256 : String
  prefixes : List TracePrefix
deriving DecidableEq

variable [LinearOrder τ]

/-- The rows that may be archived: in sequence, old enough, not referred to, and not the last. -/
def selectRows (cutoff : τ) (protectedSeqs : List Nat) : Int → List (StoredTraceEvent τ) → List (StoredTraceEvent τ)
  | _, [] | _, [_] => []
  | expected, row :: next :: rest =>
    if row.seq ≠ expected ∨ ¬ row.storedAt.any (· < cutoff) ∨ protectedSeqs.any (fun n => (n : Int) = row.seq) then []
    else row :: selectRows cutoff protectedSeqs (expected + 1) (next :: rest)

variable (c : Codec β τ)

/-- The range of a run that may be archived, if there is one. `none` if the run or its rows are malformed. -/
def runPrefix (s : TraceStore β τ) (boundaries : String → Int) (protection : TraceProtection) (cutoff : τ) (run : Value) :
    Option (Option TracePrefix) := do
  let runId ← (run.get? "id").bind identity?
  if runId ∈ protection.runIds ∨ !isTerminal run then some none
  else do
    let rows ← s.storedForRun runId
    guard (rows.Pairwise (fun a b => a.seq < b.seq) ∧ rows.all (fun row => 0 < row.seq))
    let protectedSeqs := (protection.eventSeqs.filter (fun e => e.1 = runId)).map Prod.snd
    let selected := selectRows cutoff protectedSeqs (boundaries runId + 1) rows
    match selected, selected.getLast?, rows.getLast? with
    | first :: _, some last, some highest => do
      let revision ← (run.get? "revision").bind Value.int?
      let status ← (run.get? "status").bind Value.str?
      let digest ← c.canonicalSha256 (.arr (selected.map (StoredTraceEvent.dump c)))
      let range ← TracePrefix.validate
        ⟨runId, revision, status, first.seq, last.seq, highest.seq, selected.length, digest⟩
      some (some range)
    | _, _, _ => some none

def protectionBody (p : TraceProtection) : Value :=
  .obj [("run_ids", .arr (p.runIds.map .str)),
    ("event_seqs", .obj ((ordered (· ≤ ·) (p.eventSeqs.map Prod.fst)).map fun runId =>
      (runId, .arr ((p.eventSeqs.filter (fun e => e.1 = runId)).map (fun e => .int e.2)))))]

/-- What the plan's id is a digest of. -/
def planBody (storeIdentity : String) (config : RetentionConfig) (cutoff : τ) (protectionSha256 : String)
    (prefixes : List TracePrefix) : Value :=
  .obj [("schema_version", .int 1), ("store_identity_sha256", .str storeIdentity),
    ("config", .obj [("enabled", .bool config.enabled),
      ("retention_days", (config.retentionDays.map Value.int).getD .null)]),
    ("cutoff", .str (c.isoformat cutoff)), ("protection_sha256", .str protectionSha256),
    ("prefixes", .arr (prefixes.map (fun p => .obj p.dump)))]

/-- `_plan_at_cutoff` -/
def planAtCutoff (storeIdentity : String) (s : TraceStore β τ) (config : RetentionConfig) (cutoff : τ) :
    Option (TraceRetentionPlan τ) := do
  guard (config.enabled ∧ config.retentionDays.any (0 < ·))
  let receipts ← checkedTraceReceipts s
  let boundaries ← traceReceiptBoundaries s receipts
  guard (receipts.all (fun r => r.referenceDocument.isSome))
  let protection ← collectTraceProtection s
  guard s.runIds.Nodup
  let found ← s.runs.mapM (runPrefix c s boundaries protection cutoff)
  let prefixes := (found.filterMap fun p => p).insertionSort (fun a b => a.runId ≤ b.runId)
  let protectionSha256 ← c.canonicalSha256 (protectionBody protection)
  let planId ← c.canonicalSha256 (planBody c storeIdentity config cutoff protectionSha256 prefixes)
  some ⟨planId, storeIdentity, config, cutoff, protectionSha256, prefixes⟩

/-! ### Archive files -/

variable [DecidableEq β]

/-- `trace_archive_artifact_id` -/
def traceArchiveArtifactId (data : β) : String := "trace-archives/sha256/" ++ c.sha256 data ++ ".json"

/-- `verify_trace_archive` -/
def verifyTraceArchive (data : β) (r : TraceArchiveReceipt τ) : Bool :=
  match decodeTraceArchive c data with
  | none => false
  | some body =>
    match contents c body with
    | none => false
    | some archive =>
      c.size data = r.bytes ∧ "sha256:" ++ c.sha256 data = r.sha256 ∧ r.artifactId = traceArchiveArtifactId c data ∧
        buildTraceArchive c r.range archive.events = some data ∧ archive.artifactRefs = r.artifactRefs ∧
        archive.artifactHashes = r.artifactHashes ∧
        (r.referenceDocument.all fun document =>
          extractReferenceDocument (archive.events.map (fun row => (row.payload, some r.range.runId))) = some document) ∧
        archive.events.all (fun row => row.storedAt.any (· < r.cutoff))

/-- One receipt of `verify_trace_archives` -/
def verifyStored (s : TraceStore β τ) (r : TraceArchiveReceipt τ) : Bool :=
  r.referenceDocument.any (fun document => (resolveReferenceDocument s.passes document).isSome) ∧
    (s.files.get r.artifactId).any fun data => verifyTraceArchive c data r ∧
      ((decodeTraceArchive c data).bind (contents c)).any fun archive =>
        archive.events.all fun row =>
          row.payload.get? "run_id" = some (.str r.range.runId) ∧ row.payload.get? "seq" = some (.int row.seq)

/-- `verify_trace_archives` -/
def verifyTraceArchives (s : TraceStore β τ) : Bool :=
  match checkedTraceReceipts s with
  | none => false
  | some receipts => (traceReceiptBoundaries s receipts).isSome ∧ receipts.all (verifyStored c s)

/-- `put_trace_archive`: an archive is written once, under its digest. -/
def putTraceArchive (data : β) (s : TraceStore β τ) : Option (TraceStore β τ) := do
  let _ ← decodeTraceArchive c data
  match s.files.get (traceArchiveArtifactId c data) with
  | none => some { s with files := s.files.set (traceArchiveArtifactId c data) data }
  | some existing => if existing = data then some s else none

/-! ### The commit -/

/-- What a pending receipt must be. -/
def pendingReceipt (plan : TraceRetentionPlan τ) (r : TraceArchiveReceipt τ) : Bool :=
  r.valid ∧ r.planId = plan.planId ∧ r.cutoff = plan.cutoff ∧ r.committedAt = none ∧ r.referenceDocument.isSome ∧
    r.archiveId = "trace-archive-" ++ bare r.sha256

/-- The rows of the range of a receipt are there, as they were archived. -/
def unchangedRows (s : TraceStore β τ) (r : TraceArchiveReceipt τ) : Bool :=
  ((s.rowsOf r.range.runId).mapM StoredTraceEvent.validate).any fun rows =>
    let selected := rows.filter (fun row => r.range.firstSeq ≤ row.seq ∧ row.seq ≤ r.range.lastSeq)
    rows.getLast?.any (fun row => row.seq = r.range.keepSeq) ∧
      selected.map (·.seq) = Int.range r.range.firstSeq (r.range.lastSeq + 1) ∧
      c.canonicalSha256 (.arr (selected.map (StoredTraceEvent.dump c))) = some r.range.eventsSha256 ∧
      (buildTraceArchive c r.range selected).isSome ∧ buildTraceArchive c r.range selected = s.files.get r.artifactId

/-- The row is in the range of the receipt. -/
def inRange (r : TraceArchiveReceipt τ) (row : StoredTraceEvent τ) : Bool :=
  row.runId = r.range.runId ∧ r.range.firstSeq ≤ row.seq ∧ row.seq ≤ r.range.lastSeq

/-- Insert one receipt and delete the rows it covers. -/
def trim (stamp : τ) (s : TraceStore β τ) (r : TraceArchiveReceipt τ) : Option (TraceStore β τ) := do
  guard (r.archiveId ∉ s.receipts.map (·.archiveId))
  guard (((s.events.filter (inRange r)).length : Int) = r.range.eventCount)
  some { s with
    receipts := s.receipts ++ [{ r with committedAt := some stamp }]
    events := s.events.filter (fun row => !inRange r row) }

/-- `commit_trace_retention`: checks everything on the store as it is, then archives and trims in one
transaction. `latest` is the newest cutoff that the policy allows now. -/
def commitTraceRetention (storeIdentity : String) (plan : TraceRetentionPlan τ) (receipts : List (TraceArchiveReceipt τ))
    (latest stamp : τ) (s : TraceStore β τ) : Option (TraceStore β τ) := do
  guard (plan.config.enabled ∧ plan.storeIdentity = storeIdentity ∧ plan.cutoff ≤ latest)
  guard (receipts.map (·.range) = plan.prefixes ∧ receipts.all (pendingReceipt plan))
  let current ← planAtCutoff c storeIdentity s plan.config plan.cutoff
  guard (current = plan ∧ verifyTraceArchives c s)
  guard (receipts.all fun r => (s.files.get r.artifactId).any (fun data => verifyTraceArchive c data r))
  let existing ← checkedTraceReceipts s
  let boundaries ← traceReceiptBoundaries s existing
  guard (existing.all (fun r => r.planId ≠ plan.planId))
  guard (receipts.all (fun r => r.range.firstSeq = boundaries r.range.runId + 1))
  guard (receipts.all (unchangedRows c s))
  receipts.foldlM (trim stamp) s

end Store

end Motte.Trace
