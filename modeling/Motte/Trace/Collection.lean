import Motte.Foundation.Op
import Motte.Trace.ArtifactRefs

/-! Garbage collection of artifacts: which files a store still refers to.

Every record of the store is scanned, with the run or import that owns it. The
references of an import that was rolled back do not count for the files whose
deletion the rollback has recorded, unless some other record still refers to the
run. What is left protects its files and contents. -/
namespace Motte.Trace
open Foundation

/-- A record as the scan yields it. -/
structure ScanRecord where
  value : Value
  owner : Option String
  importId : Option String

/-- What the collector reads of a store. -/
structure ReferenceStore where
  runs : List Value
  records : List ScanRecord
  imports : List Value
  tombstones : List Value

/-! ### Owners -/

/-- `import_source.import_id` of a record -/
def importSource (record : Value) : Option Value := (record.get? "import_source").bind (·.get? "import_id")

/-- `_is_import_owned_record` -/
def isImportOwned (record : Value) (runId importId : String) : Bool :=
  (record.get? "id" = some (.str runId) ∧ (record.get? "manifest").bind importSource = some (.str importId)) ∨
  importSource record = some (.str importId) ∨
  record.get? "outcome" = some (.str "imported") ∨
  record.get? "source" = some (.str "legacy-import") ∨
  record.get? "type" = some (.str "legacy_scores_imported") ∨
  ((record.get? "details").bind (·.get? "source") = some (.str "legacy-import") ∧
    (record.get? "details").bind (·.get? "imported") = some (.bool true))

/-- The text ends in the given one. -/
def ends (tail text : String) : Bool := tail.toList.isSuffixOf text.toList

/-- The runs that a member names by its key. -/
def keyedRuns (key : String) (child : Value) : List String :=
  if key = "run_id" ∨ ends "_run_id" key then child.str?.toList
  else if key = "run_ids" ∨ ends "_run_ids" key then (child.items?.getD []).filterMap Value.str?
  else []

mutual
/-- `collect_referenced_run_ids` -/
def referencedRuns : Value → List String
  | .obj members =>
    (if (Value.obj members).get? "target_type" = some (.str "run") then
      (((Value.obj members).get? "target_id").bind Value.str?).toList else []) ++ memberRuns members
  | .arr items => itemRuns items
  | _ => []

def itemRuns : List Value → List String
  | [] => []
  | child :: rest => referencedRuns child ++ itemRuns rest

def memberRuns : List (String × Value) → List String
  | [] => []
  | (key, child) :: rest => keyedRuns key child ++ referencedRuns child ++ memberRuns rest
end

/-! ### Rolled back imports -/

namespace ReferenceStore

/-- The imports that were rolled back. -/
def retiredImports (s : ReferenceStore) : List String :=
  s.imports.filterMap fun batch =>
    if batch.get? "status" = some (.str "rolled_back") then (batch.get? "import_id").bind Value.str? else none

/-- The runs of these imports, before the references to them are looked at. -/
def rolledBackRuns (s : ReferenceStore) : List (String × String) :=
  s.runs.filterMap fun run => do
    let importId ← ((run.get? "rolled_back_import").bind (·.get? "import_id")).bind Value.str?
    guard (importId ∈ s.retiredImports ∧ (run.get? "manifest").bind importSource = some (.str importId))
    let id ← (run.get? "id").bind Value.str?
    some (id, importId)

/-- The import by which a record belongs to a run of the list. -/
def ownImport (runs : List (String × String)) (r : ScanRecord) : Option String := do
  let owner ← r.owner
  let importId ← runs.lookup owner
  guard (isImportOwned r.value owner importId)
  some importId

/-- The runs that a record refers to from outside. -/
def externalRuns (s : ReferenceStore) (r : ScanRecord) : List String :=
  if (ownImport s.rolledBackRuns r).isSome ∨ r.importId.any (· ∈ s.retiredImports) then []
  else r.owner.toList ++ referencedRuns r.value

/-- The rolled back runs that nothing outside refers to. -/
def retiredRuns (s : ReferenceStore) : List (String × String) :=
  s.rolledBackRuns.filter (fun run => run.1 ∉ s.records.flatMap s.externalRuns)

/-- A deletion that the rollback of an import has recorded: import, file, content. -/
def confirmedDeletion (s : ReferenceStore) (audit : Value) : Option (String × String × String) := do
  let importId ← (audit.get? "import_id").bind Value.str?
  guard (importId ∈ s.retiredImports ∧ audit.get? "gc_run_id" = some (.str ("import-rollback:" ++ importId)) ∧
    audit.get? "deletion_status" = some (.str "deleted"))
  let identifier ← (audit.get? "artifact_id").bind Value.str?
  let digest ← audit.textAt? "sha256"
  some (importId, identifier, bare digest)

def confirmedDeletions (s : ReferenceStore) : List (String × String × String) :=
  s.tombstones.filterMap s.confirmedDeletion

/-- The files of an import that are known to be deleted. -/
def confirmed (s : ReferenceStore) (importId : Option String) : Table String String :=
  (s.confirmedDeletions.filter (fun d => importId = some d.1)).foldl
    (fun t d => match canonicalArtifactId d.2.1 with
      | none => t
      | some id => t.set id d.2.2) ∅

/-- The deletions that count for a record. -/
def archived (s : ReferenceStore) (r : ScanRecord) : Table String String :=
  s.confirmed ((ownImport s.retiredRuns r).or r.importId)

end ReferenceStore

/-! ### Live references -/

/-- The references of a record without those that are archived. -/
def liveRefs (archived : Table String String) (found : References) : List (String × Option String) :=
  found.refs.rows.filter fun ref => match archived.get ref.1 with
    | none => true
    | some deleted => ref.2.any (fun digest => bare digest ≠ deleted)

/-- One record of the loop in `referenced_artifact_hashes`. -/
def addRecord (archived : Table String String) (value : Value) (r : References) : Except RefError References := do
  let found ← collectArtifactRefs value .empty
  let r ← r.recordAll ((liveRefs archived found).map (fun ref => ⟨some ref.1, ref.2⟩))
  .ok { r with hashes := r.hashes ++ found.hashes.filter (fun h => h ∉ archived.rows.map Prod.snd) }

def addRecords (s : ReferenceStore) : List ScanRecord → References → Except RefError References
  | [], r => .ok r
  | record :: rest, r => (addRecord (s.archived record) record.value r).bind (addRecords s rest)

/-- `referenced_artifact_hashes` -/
def referencedArtifactHashes (s : ReferenceStore) : Except RefError References :=
  match s.confirmedDeletions.find? (fun d => (canonicalArtifactId d.2.1).isNone) with
  | some deletion => .error (.path deletion.2.1)
  | none => addRecords s s.records .empty

/-! ### The plan -/

structure GcFile (τ : Type) where
  artifactId : String
  sha256 : String
  mtime : τ
deriving DecidableEq

inductive GcReason where
  | traceArchive | referenced | importAudit | youngerThanTtl | artifactTtlExpired
deriving DecidableEq

/-- The files below the root; `resolve` follows links inside it and leaves a listed file where it is. -/
structure ArtifactRoot (τ : Type) where
  files : List (GcFile τ)
  resolve : String → Option String
  resolve_file : ∀ f ∈ files, resolve f.artifactId = some f.artifactId

/-- `is_trace_archive_id`, for a path in canonical form -/
def isTraceArchiveId (id : String) : Bool := (id.toList.splitOn '/').head? = some "trace-archives".toList

/-- `resolve_artifact_refs` -/
def resolveArtifactRefs (resolve : String → Option String) :
    List (String × Option String) → References → Except RefError References
  | [], r => .ok r
  | (id, digest) :: rest, r =>
    match resolve id with
    | none => .error (.path id)
    | some resolved => (r.record ⟨some resolved, digest⟩).bind (resolveArtifactRefs resolve rest)

section Plan
variable {τ : Type} [LinearOrder τ]

/-- Why a file is kept or not. -/
def gcReason (refs : Table String (Option String)) (hashes : List String) (importAuditProtected : Bool) (cutoff : τ)
    (f : GcFile τ) : GcReason :=
  if isTraceArchiveId f.artifactId then .traceArchive
  else if (refs.get f.artifactId).isSome ∨ f.sha256 ∈ hashes then .referenced
  else if importAuditProtected ∧ starts "imports/" f.artifactId then .importAudit
  else if cutoff ≤ f.mtime then .youngerThanTtl
  else .artifactTtlExpired

/-- `plan_gc`: the files that may be deleted. `verified` is what `verify_trace_archives` finds. -/
def planGc (s : ReferenceStore) (verified : Except RefError Unit) (root : ArtifactRoot τ) (importAuditProtected : Bool)
    (cutoff : τ) : Except RefError (List (GcFile τ)) := do
  verified
  let found ← referencedArtifactHashes s
  let resolved ← resolveArtifactRefs root.resolve found.refs.rows .empty
  .ok (root.files.filter fun f =>
    gcReason resolved.refs found.hashes importAuditProtected cutoff f = .artifactTtlExpired)

end Plan

/-! ### What is found -/

theorem confirmed_none (s : ReferenceStore) : s.confirmed none = ∅ := by
  simp [ReferenceStore.confirmed]

/-- What a record that can be read refers to. -/
def foundRefs (value : Value) : References := ((collectArtifactRefs value .empty).toOption).getD .empty

/-- The live references of a record, as mentions. -/
def liveMentions (s : ReferenceStore) (r : ScanRecord) : List Mention :=
  (liveRefs (s.archived r) (foundRefs r.value)).map (fun ref => ⟨some ref.1, ref.2⟩)

/-- Every record can be read, and their live references agree. -/
structure Scannable (s : ReferenceStore) (ms : List Mention) (records : List ScanRecord) : Prop where
  readable : ∀ r ∈ records, Agree (mentions false r.value)
  agree : Agree (ms ++ records.flatMap (liveMentions s))

theorem foundRefs_represents {value : Value} (h : Agree (mentions false value)) :
    collectArtifactRefs value .empty = .ok (foundRefs value) ∧ Represents (foundRefs value).refs (mentions false value) := by
  rcases collectArtifactRefs_spec value with ⟨r, hr, represents, -⟩ | ⟨-, bad⟩
  · have hfound : foundRefs value = r := by
      rw [foundRefs, hr]
      rfl
    rw [hfound]
    exact ⟨hr, represents⟩
  · exact absurd h bad

theorem addRecord_spec {s : ReferenceStore} {record : ScanRecord} {r : References} {ms : List Mention}
    (h : Represents r.refs ms) (agree : Agree ms) :
    (∃ r', addRecord (s.archived record) record.value r = .ok r' ∧
      Represents r'.refs (ms ++ liveMentions s record) ∧ Agree (mentions false record.value) ∧
      Agree (ms ++ liveMentions s record)) ∨
    (∃ e, addRecord (s.archived record) record.value r = .error e) ∧
      ¬ (Agree (mentions false record.value) ∧ Agree (ms ++ liveMentions s record)) := by
  unfold addRecord
  rcases collectArtifactRefs_spec record.value with ⟨found, hfound, -, readable⟩ | ⟨⟨e, he⟩, bad⟩
  · have live : liveMentions s record = (liveRefs (s.archived record) found).map (fun ref => ⟨some ref.1, ref.2⟩) := by
      rw [liveMentions, foundRefs, hfound]
      rfl
    rw [hfound, live]
    rcases References.recordAll_spec h agree with ⟨r', hr', represents', agree'⟩ | ⟨⟨e, he⟩, bad⟩
    · refine .inl ⟨⟨r'.refs, r'.hashes ++ found.hashes.filter (fun h => h ∉ (s.archived record).rows.map Prod.snd)⟩, ?_,
        represents', readable, agree'⟩
      show (r.recordAll _ >>= _) = _
      rw [hr']
      rfl
    · refine .inr ⟨⟨e, ?_⟩, fun good => bad good.2⟩
      show (r.recordAll _ >>= _) = _
      rw [he]
      rfl
  · rw [he]
    exact .inr ⟨⟨e, rfl⟩, fun good => bad good.1⟩

/-- A content that a record keeps alive. -/
def LiveHash (s : ReferenceStore) (record : ScanRecord) (x : String) : Prop :=
  (∃ m ∈ liveMentions s record, ∃ d, m.digest = some d ∧ bare d = x) ∨
    x ∈ (foundRefs record.value).hashes ∧ x ∉ (s.archived record).rows.map Prod.snd

theorem addRecord_hashes {s : ReferenceStore} {record : ScanRecord} {r r' : References}
    (h : addRecord (s.archived record) record.value r = .ok r') (x : String) :
    x ∈ r'.hashes ↔ x ∈ r.hashes ∨ LiveHash s record x := by
  simp only [addRecord, except_bind_ok_iff] at h
  obtain ⟨found, hfound, r₁, hr₁, h⟩ := h
  have hfoundRefs : foundRefs record.value = found := by
    rw [foundRefs, hfound]
    rfl
  cases h
  rw [List.mem_append, References.recordAll_hashes hr₁, List.mem_filter, decide_eq_true_eq, LiveHash, liveMentions,
    hfoundRefs, or_assoc]

theorem addRecords_hashes {s : ReferenceStore} {records : List ScanRecord} {r r' : References}
    (h : addRecords s records r = .ok r') (x : String) :
    x ∈ r'.hashes ↔ x ∈ r.hashes ∨ ∃ record ∈ records, LiveHash s record x := by
  induction records generalizing r with
  | nil =>
    cases h
    simp
  | cons record rest ih =>
    rw [addRecords] at h
    cases hadd : addRecord (s.archived record) record.value r with
    | error e =>
      rw [hadd] at h
      cases h
    | ok r₁ =>
      rw [hadd] at h
      rw [ih h, addRecord_hashes hadd, List.exists_mem_cons_iff, or_assoc]

/-- The loop over the records succeeds on records that can be scanned, and then has their live references. -/
theorem addRecords_spec {s : ReferenceStore} {records : List ScanRecord} {r : References} {ms : List Mention}
    (h : Represents r.refs ms) (agree : Agree ms) :
    (∃ r', addRecords s records r = .ok r' ∧ Represents r'.refs (ms ++ records.flatMap (liveMentions s)) ∧
      Scannable s ms records) ∨ (∃ e, addRecords s records r = .error e) ∧ ¬ Scannable s ms records := by
  induction records generalizing r ms with
  | nil =>
    refine .inl ⟨r, rfl, by simpa using h, ⟨fun _ hr => absurd hr List.not_mem_nil, by simpa using agree⟩⟩
  | cons record rest ih =>
    have assoc : ms ++ (record :: rest).flatMap (liveMentions s) =
        ms ++ liveMentions s record ++ rest.flatMap (liveMentions s) := by simp
    rw [addRecords, assoc]
    rcases @addRecord_spec s record r ms h agree with ⟨r', hr', represents', readable, agree'⟩ | ⟨⟨e, he⟩, bad⟩
    · rw [hr']
      rcases ih represents' agree' with ⟨r'', hr'', represents'', scannable⟩ | ⟨herr, bad⟩
      · refine .inl ⟨r'', hr'', represents'', ⟨fun record' hmem => ?_, assoc ▸ scannable.agree⟩⟩
        rcases List.mem_cons.1 hmem with rfl | hmem
        · exact readable
        · exact scannable.readable record' hmem
      · refine .inr ⟨herr, fun good => bad ⟨fun record' hmem => ?_, assoc ▸ good.agree⟩⟩
        exact good.readable record' (List.mem_cons_of_mem record hmem)
    · rw [he]
      refine .inr ⟨⟨e, rfl⟩, fun good => bad ⟨good.readable record (List.mem_cons_self ..), ?_⟩⟩
      have hall := good.agree
      rw [assoc] at hall
      exact hall.of_subset (fun m hm => List.mem_append_left _ hm)

/-- What a successful scan has. -/
theorem referencedArtifactHashes_ok {s : ReferenceStore} {r : References} (h : referencedArtifactHashes s = .ok r) :
    Represents r.refs (s.records.flatMap (liveMentions s)) ∧ Scannable s [] s.records ∧
      ∀ x, x ∈ r.hashes ↔ ∃ record ∈ s.records, LiveHash s record x := by
  unfold referencedArtifactHashes at h
  split at h
  · cases h
  · rcases addRecords_spec (s := s) (r := .empty) represents_empty agree_nil with
      ⟨r', hr', represents, scannable⟩ | ⟨⟨e, he⟩, -⟩
    · cases hr'.symm.trans h
      refine ⟨represents, scannable, fun x => ?_⟩
      have hashes := addRecords_hashes h x
      simpa [References.empty] using hashes
    · cases he.symm.trans h

theorem mem_foundRefs {value : Value} (readable : Agree (mentions false value)) {m : Mention} {id : String}
    (hm : m ∈ mentions false value) (hid : m.id? = some id) :
    ∃ d, (id, d) ∈ (foundRefs value).refs.rows ∧ canonicalArtifactId id = some id := by
  have named := ((foundRefs_represents readable).2.named id).2 ⟨m, hm, hid⟩
  obtain ⟨d, hd⟩ := Option.ne_none_iff_exists'.1 named
  obtain ⟨i, -, hi⟩ := Option.bind_eq_some_iff.1 hid
  exact ⟨d, Table.mem_of_get hd, canonicalArtifactId_idem hi⟩

/-- A record none of whose references is archived keeps its files referenced. -/
theorem referenced_of_mention {s : ReferenceStore} {r : References} (h : referencedArtifactHashes s = .ok r)
    {record : ScanRecord} (hrecord : record ∈ s.records) (none_archived : s.archived record = ∅) {m : Mention}
    {id : String} (hm : m ∈ mentions false record.value) (hid : m.id? = some id) : r.refs.get id ≠ none := by
  obtain ⟨represents, scannable, -⟩ := referencedArtifactHashes_ok h
  obtain ⟨d, hrow, hcanon⟩ := mem_foundRefs (scannable.readable record hrecord) hm hid
  refine (represents.named id).2 ⟨⟨some id, d⟩, List.mem_flatMap.2 ⟨record, hrecord, ?_⟩, hcanon⟩
  refine List.mem_map.2 ⟨(id, d), List.mem_filter.2 ⟨hrow, ?_⟩, rfl⟩
  rw [none_archived]
  rfl

/-! ### What is deleted -/

theorem resolveArtifactRefs_get {resolve : String → Option String} {rows : List (String × Option String)}
    {r r' : References} (h : resolveArtifactRefs resolve rows r = .ok r') :
    ∃ ms, r.recordAll ms = .ok r' ∧ ∀ id d, (id, d) ∈ rows → ∃ resolved, resolve id = some resolved ∧
      (⟨some resolved, d⟩ : Mention) ∈ ms := by
  induction rows generalizing r with
  | nil => exact ⟨[], h, fun _ _ hmem => absurd hmem List.not_mem_nil⟩
  | cons row rest ih =>
    obtain ⟨id, digest⟩ := row
    rw [resolveArtifactRefs] at h
    cases hresolve : resolve id with
    | none =>
      rw [hresolve] at h
      cases h
    | some resolved =>
      rw [hresolve] at h
      dsimp only at h
      cases hrecord : r.record ⟨some resolved, digest⟩ with
      | error e =>
        rw [hrecord] at h
        cases h
      | ok r₁ =>
        rw [hrecord] at h
        obtain ⟨ms, hms, covers⟩ := ih h
        refine ⟨⟨some resolved, digest⟩ :: ms, ?_, fun id' d' hmem => ?_⟩
        · rw [References.recordAll, hrecord]
          exact hms
        · rcases List.mem_cons.1 hmem with heq | hmem
          · cases heq
            exact ⟨resolved, hresolve, List.mem_cons_self ..⟩
          · obtain ⟨resolved', hresolve', hin⟩ := covers id' d' hmem
            exact ⟨resolved', hresolve', List.mem_cons_of_mem _ hin⟩

/-- A file is only deleted if neither it nor its content is referenced. -/
theorem planGc_unreferenced {τ : Type} [LinearOrder τ] {s : ReferenceStore} {verified : Except RefError Unit}
    {root : ArtifactRoot τ} {importAuditProtected : Bool} {cutoff : τ} {deletable : List (GcFile τ)}
    (h : planGc s verified root importAuditProtected cutoff = .ok deletable) {f : GcFile τ} (hf : f ∈ deletable) :
    ∃ found, referencedArtifactHashes s = .ok found ∧ found.refs.get f.artifactId = none ∧ f.sha256 ∉ found.hashes := by
  simp only [planGc, except_bind_ok_iff] at h
  obtain ⟨-, -, found, hfound, resolved, hresolved, h⟩ := h
  cases h
  obtain ⟨hfile, hreason⟩ := List.mem_filter.1 hf
  rw [decide_eq_true_eq, gcReason] at hreason
  have unreferenced : ¬ ((resolved.refs.get f.artifactId).isSome ∨ f.sha256 ∈ found.hashes) := by
    intro referenced
    rw [if_pos referenced] at hreason
    split at hreason <;> cases hreason
  refine ⟨found, hfound, ?_, fun hhash => unreferenced (.inr hhash)⟩
  by_contra hget
  obtain ⟨d, hd⟩ := Option.ne_none_iff_exists'.1 hget
  obtain ⟨m, -, hid⟩ := ((referencedArtifactHashes_ok hfound).1.named f.artifactId).1 hget
  obtain ⟨i, -, hi⟩ := Option.bind_eq_some_iff.1 hid
  -- The file is listed, so its path resolves to itself.
  obtain ⟨ms, hms, covers⟩ := resolveArtifactRefs_get hresolved
  obtain ⟨resolved', hresolve, hmem⟩ := covers f.artifactId d (Table.mem_of_get hd)
  cases (root.resolve_file f hfile).symm.trans hresolve
  rcases References.recordAll_spec (r := .empty) represents_empty agree_nil with
    ⟨r', hr', represents, -⟩ | ⟨⟨e, he⟩, -⟩
  · cases hr'.symm.trans hms
    have named := (represents.named f.artifactId).2 ⟨_, hmem, canonicalArtifactId_idem hi⟩
    exact unreferenced (.inl (Option.isSome_iff_ne_none.2 named))
  · cases he.symm.trans hms

end Motte.Trace
