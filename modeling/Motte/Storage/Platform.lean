import Motte.Experiment.Mirror

/-! The platform stores: request keys, settings, the import ledger and tombstones.

Each is kept twice, in dictionaries and in tables. A request key is bound once, to
one hash and one run; an import is begun once, under one manifest; a mapping is
made once, from one content. What was bound first stands, and every later request
is answered from it. -/
namespace Motte.Storage
open Foundation Experiment

inductive PlatformError where
  /-- `REQUEST_KEY_CONFLICT` -/
  | requestConflict (requestKey : String)
  /-- `IMPORT_CONFLICT` -/
  | importConflict (importId : String)
  /-- `MAPPING_CONFLICT` -/
  | mappingConflict (mappingKey : String)
  /-- `import not found` -/
  | importNotFound (importId : String)
deriving DecidableEq

/-- A row of the request registry. -/
structure RequestBinding where
  requestKey : String
  canonicalHash : String
  runId : String
  createdAt : String
deriving DecidableEq

inductive BindOutcome where
  | created
  | replayed
deriving DecidableEq

structure BindReply where
  outcome : BindOutcome
  runId : String
  canonicalHash : String
  /-- The key and the time, which only the dictionaries give. -/
  binding : Option RequestBinding
deriving DecidableEq

/-- A record of an import: a document with an id and the hash of its manifest. -/
structure ImportRecord where
  document : Document
  importId : String
  manifestSha256 : String
  identified : document.get "import_id" = some (.str importId)
  hashed : document.get "manifest_sha256" = some (.str manifestSha256)

/-- A mapping of an import: a document with a key, and perhaps an import and a source. -/
structure ImportMapping where
  document : Document
  mappingKey : String
  importId : Option String
  source : Option Document
  keyed : document.get "mapping_key" = some (.str mappingKey)
  owned : document.get "import_id" = importId.map .str
  sourced : document.get "source" = source.map Document.value

/-- What is left of an artifact: a document with the collection and the artifact. -/
structure Tombstone where
  document : Document
  gcRunId : String
  artifactId : String
  collected : document.get "gc_run_id" = some (.str gcRunId)
  identified : document.get "artifact_id" = some (.str artifactId)

namespace ImportRecord

/-- The record with another status. -/
def withStatus (r : ImportRecord) (status : String) : ImportRecord where
  document := r.document.set "status" (.str status)
  importId := r.importId
  manifestSha256 := r.manifestSha256
  identified := by rw [Table.get_set_ne _ _ (by decide), r.identified]
  hashed := by rw [Table.get_set_ne _ _ (by decide), r.hashed]

end ImportRecord

/-- `mapping.get("source", {}).get("content_hash", "")` -/
def sourceHash (mapping : Document) : Value := ((mapping.getOrNull "source").get? "content_hash").getD (.str "")

def Tombstone.key (t : Tombstone) : String × String := (t.gcRunId, t.artifactId)

inductive PlatformRequest where
  | bind (requestKey canonicalHash runId now : String)
  | getRequest (requestKey : String)
  | getMeta (key : String)
  | setMeta (key value : String)
  | deleteMeta (key : String)
  | beginImport (record : ImportRecord)
  | getImport (importId : String)
  | listImports
  | setStatus (importId status : String)
  | putMapping (mapping : ImportMapping)
  | getMapping (mappingKey : String)
  | mappingsFor (importId : String)
  | appendTombstones (entries : List Tombstone)
  | listTombstones (limit : Int)

inductive PlatformReply where
  | done
  | bound (r : BindReply)
  | binding (b : Option RequestBinding)
  | text (t : Option String)
  | document (d : Document)
  | found (d : Option Document)
  | documents (ds : List Document)
  | tombstones (ds : List Document)

structure MemoryPlatform where
  requests : Table String RequestBinding := ∅
  metaRows : Table String String := ∅
  imports : Table String ImportRecord := ∅
  mappings : Table String ImportMapping := ∅
  tombstones : Table (String × String) Tombstone := ∅

/-- A row of `motte_imports`. -/
structure ImportRow where
  manifestSha256 : String
  payload : Document

/-- A row of `motte_import_mappings`. -/
structure MappingRow where
  importId : String
  payload : Document

/-- The tables, payloads as they are read back. -/
structure SqlitePlatform where
  requests : Table String RequestBinding := ∅
  metaRows : Table String String := ∅
  imports : Table String ImportRow := ∅
  mappings : Table String MappingRow := ∅
  tombstones : Table (String × String) Document := ∅

/-! ### The dictionaries -/

namespace MemoryPlatform

def bind (requestKey canonicalHash runId now : String) : Op MemoryPlatform PlatformError BindReply := do
  match ← Op.gets (fun s : MemoryPlatform => s.requests.get requestKey) with
  | some existing => do
    Op.lift (ensure (existing.canonicalHash = canonicalHash) (.requestConflict requestKey))
    pure ⟨.replayed, existing.runId, existing.canonicalHash, some existing⟩
  | none => do
    let record : RequestBinding := ⟨requestKey, canonicalHash, runId, now⟩
    Op.modify (fun s : MemoryPlatform => { s with requests := s.requests.set requestKey record })
    pure ⟨.created, runId, canonicalHash, some record⟩

def beginImport (record : ImportRecord) : Op MemoryPlatform PlatformError Document := do
  match ← Op.gets (fun s : MemoryPlatform => s.imports.get record.importId) with
  | some existing => do
    Op.lift (ensure (existing.manifestSha256 = record.manifestSha256) (.importConflict record.importId))
    pure existing.document
  | none => do
    Op.modify (fun s : MemoryPlatform => { s with imports := s.imports.set record.importId record })
    pure record.document

def setStatus (importId status : String) : Op MemoryPlatform PlatformError Unit := do
  match ← Op.gets (fun s : MemoryPlatform => s.imports.get importId) with
  | none => Op.raise (.importNotFound importId)
  | some record =>
    Op.modify (fun s : MemoryPlatform => { s with imports := s.imports.set importId (record.withStatus status) })

def putMapping (mapping : ImportMapping) : Op MemoryPlatform PlatformError Document := do
  match ← Op.gets (fun s : MemoryPlatform => s.mappings.get mapping.mappingKey) with
  | some existing => do
    Op.lift (ensure ((sourceHash existing.document).equals (sourceHash mapping.document))
      (.mappingConflict mapping.mappingKey))
    pure existing.document
  | none => do
    Op.modify (fun s : MemoryPlatform => { s with mappings := s.mappings.set mapping.mappingKey mapping })
    pure mapping.document

/-- The mappings whose import this is. -/
def mappingsFor (importId : String) (s : MemoryPlatform) : List Document :=
  (s.mappings.rows.filter (fun r => r.2.importId = some importId)).map (fun r => r.2.document)

def appendTombstones (entries : List Tombstone) (s : MemoryPlatform) : MemoryPlatform :=
  { s with tombstones := entries.foldl (fun t entry => t.set entry.key entry) s.tombstones }

/-- `list(self._rows.values())[:limit]` -/
def listTombstones (limit : Int) (s : MemoryPlatform) : List Document :=
  (s.tombstones.rows.take (if 0 ≤ limit then limit else s.tombstones.rows.length + limit).toNat).map (fun r => r.2.document)

def serve : PlatformRequest → Op MemoryPlatform PlatformError PlatformReply
  | .bind requestKey canonicalHash runId now => do pure (.bound (← bind requestKey canonicalHash runId now))
  | .getRequest requestKey => do pure (.binding (← Op.gets (fun s : MemoryPlatform => s.requests.get requestKey)))
  | .getMeta key => do pure (.text (← Op.gets (fun s : MemoryPlatform => s.metaRows.get key)))
  | .setMeta key value => do
    Op.modify (fun s : MemoryPlatform => { s with metaRows := s.metaRows.set key value })
    pure .done
  | .deleteMeta key => do
    Op.modify (fun s : MemoryPlatform => { s with metaRows := s.metaRows.erase key })
    pure .done
  | .beginImport record => do pure (.document (← beginImport record))
  | .getImport importId => do
    pure (.found (← Op.gets (fun s : MemoryPlatform => (s.imports.get importId).map (·.document))))
  | .listImports => do
    pure (.documents (← Op.gets (fun s : MemoryPlatform => s.imports.rows.map (fun r => r.2.document))))
  | .setStatus importId status => do
    setStatus importId status
    pure .done
  | .putMapping mapping => do pure (.document (← putMapping mapping))
  | .getMapping mappingKey => do
    pure (.found (← Op.gets (fun s : MemoryPlatform => (s.mappings.get mappingKey).map (·.document))))
  | .mappingsFor importId => do pure (.documents (← Op.gets (mappingsFor importId)))
  | .appendTombstones entries => do
    Op.modify (appendTombstones entries)
    pure .done
  | .listTombstones limit => do pure (.tombstones (← Op.gets (listTombstones limit)))

end MemoryPlatform

/-! ### The tables -/

/-- `INSERT OR REPLACE`: the row of the key, if there is one, goes, and the new one is last. -/
def replaceRow {κ α : Type} [DecidableEq κ] (t : Table κ α) (k : κ) (v : α) : Table κ α := (t.erase k).set k v

namespace SqlitePlatform

def bind (requestKey canonicalHash runId now : String) : Op SqlitePlatform PlatformError BindReply :=
  Op.atomically do
    match ← Op.gets (fun s : SqlitePlatform => s.requests.get requestKey) with
    | some row => do
      Op.lift (ensure (row.canonicalHash = canonicalHash) (.requestConflict requestKey))
      pure ⟨.replayed, row.runId, row.canonicalHash, none⟩
    | none => do
      Op.modify (fun s : SqlitePlatform =>
        { s with requests := s.requests.set requestKey ⟨requestKey, canonicalHash, runId, now⟩ })
      pure ⟨.created, runId, canonicalHash, none⟩

def beginImport (record : ImportRecord) : Op SqlitePlatform PlatformError Document :=
  Op.atomically do
    match ← Op.gets (fun s : SqlitePlatform => s.imports.get record.importId) with
    | some row => do
      Op.lift (ensure (row.manifestSha256 = record.manifestSha256) (.importConflict record.importId))
      pure row.payload
    | none => do
      Op.modify (fun s : SqlitePlatform =>
        { s with imports := s.imports.set record.importId ⟨record.manifestSha256, Document.canon record.document⟩ })
      pure record.document

def setStatus (importId status : String) : Op SqlitePlatform PlatformError Unit :=
  Op.atomically do
    match ← Op.gets (fun s : SqlitePlatform => s.imports.get importId) with
    | none => Op.raise (.importNotFound importId)
    | some row =>
      Op.modify (fun s : SqlitePlatform =>
        { s with imports := s.imports.set importId { row with payload := Document.canon (row.payload.set "status" (.str status)) } })

def putMapping (mapping : ImportMapping) : Op SqlitePlatform PlatformError Document :=
  Op.atomically do
    match ← Op.gets (fun s : SqlitePlatform => s.mappings.get mapping.mappingKey) with
    | some row => do
      Op.lift (ensure ((sourceHash row.payload).equals (sourceHash mapping.document)) (.mappingConflict mapping.mappingKey))
      pure row.payload
    | none => do
      Op.modify (fun s : SqlitePlatform =>
        { s with mappings := s.mappings.set mapping.mappingKey ⟨mapping.importId.getD "", Document.canon mapping.document⟩ })
      pure mapping.document

/-- `WHERE import_id = ? ORDER BY rowid` -/
def mappingsFor (importId : String) (s : SqlitePlatform) : List Document :=
  (s.mappings.rows.filter (fun r => r.2.importId = importId)).map (fun r => r.2.payload)

def appendTombstones (entries : List Tombstone) (s : SqlitePlatform) : SqlitePlatform :=
  { s with tombstones :=
      entries.foldl (fun t entry => replaceRow t entry.key (Document.canon entry.document)) s.tombstones }

/-- `ORDER BY rowid DESC LIMIT ?`: a negative limit is none. -/
def listTombstones (limit : Int) (s : SqlitePlatform) : List Document :=
  let newest := (s.tombstones.rows.map Prod.snd).reverse
  if 0 ≤ limit then newest.take limit.toNat else newest

def serve : PlatformRequest → Op SqlitePlatform PlatformError PlatformReply
  | .bind requestKey canonicalHash runId now => do pure (.bound (← bind requestKey canonicalHash runId now))
  | .getRequest requestKey => do pure (.binding (← Op.gets (fun s : SqlitePlatform => s.requests.get requestKey)))
  | .getMeta key => do pure (.text (← Op.gets (fun s : SqlitePlatform => s.metaRows.get key)))
  | .setMeta key value => do
    Op.modify (fun s : SqlitePlatform => { s with metaRows := s.metaRows.set key value })
    pure .done
  | .deleteMeta key => do
    Op.modify (fun s : SqlitePlatform => { s with metaRows := s.metaRows.erase key })
    pure .done
  | .beginImport record => do pure (.document (← beginImport record))
  | .getImport importId => do
    pure (.found (← Op.gets (fun s : SqlitePlatform => (s.imports.get importId).map (·.payload))))
  | .listImports => do
    pure (.documents (← Op.gets (fun s : SqlitePlatform => s.imports.rows.map (fun r => r.2.payload))))
  | .setStatus importId status => do
    setStatus importId status
    pure .done
  | .putMapping mapping => do pure (.document (← putMapping mapping))
  | .getMapping mappingKey => do
    pure (.found (← Op.gets (fun s : SqlitePlatform => (s.mappings.get mappingKey).map (·.payload))))
  | .mappingsFor importId => do pure (.documents (← Op.gets (mappingsFor importId)))
  | .appendTombstones entries => do
    Op.modify (appendTombstones entries)
    pure .done
  | .listTombstones limit => do pure (.tombstones (← Op.gets (listTombstones limit)))

end SqlitePlatform

/-! ### Side by side

Dictionaries and tables answer every request alike. Only tombstones are shown
differently: the dictionaries list them in the order they were first written and
cut the end, the tables list the last written first. A listing that shows them all
shows the same ones. -/

section Requests
variable {m : MemoryPlatform} {q : SqlitePlatform}

/-- The row of an import. -/
def importRow (r : ImportRecord) : ImportRow := ⟨r.manifestSha256, Document.canon r.document⟩

/-- The row of a mapping. -/
def mappingRow (p : ImportMapping) : MappingRow := ⟨p.importId.getD "", Document.canon p.document⟩

/-- The tables hold what the dictionaries hold; tombstones may stand in another order. -/
structure MirrorsPlatform (m : MemoryPlatform) (q : SqlitePlatform) : Prop where
  requests : q.requests = m.requests
  metaRows : q.metaRows = m.metaRows
  imports : q.imports = m.imports.map importRow
  mappings : q.mappings = m.mappings.map mappingRow
  tombstones : ∀ key, q.tombstones.get key = (m.tombstones.get key).map (fun t => Document.canon t.document)

theorem platform_mirrors_empty : MirrorsPlatform {} {} := ⟨rfl, rfl, rfl, rfl, fun _ => rfl⟩

def PlatformReply.Agree : PlatformReply → PlatformReply → Prop
  | .done, .done => True
  | .bound r, .bound r' => r.outcome = r'.outcome ∧ r.runId = r'.runId ∧ r.canonicalHash = r'.canonicalHash
  | .binding b, .binding b' => b = b'
  | .text t, .text t' => t = t'
  | .document d, .document e => Document.canon d = Document.canon e
  | .found d, .found e => d.map Document.canon = e.map Document.canon
  | .documents ds, .documents es => ds.map Document.canon = es.map Document.canon
  | .tombstones ds, .tombstones es => (ds.map Document.canon).Perm (es.map Document.canon)
  | _, _ => False

/-- A request that both stores answer alike: mappings are asked for by an import that has an id, or all have one, and
tombstones are listed in full. -/
def PlainRequest (m : MemoryPlatform) : PlatformRequest → Prop
  | .mappingsFor importId => importId ≠ "" ∨ ∀ r ∈ m.mappings.rows, r.2.importId ≠ none
  | .listTombstones limit => (m.tombstones.rows.length : Int) ≤ limit
  | _ => True

instance (m : MemoryPlatform) (r : PlatformRequest) : Decidable (PlainRequest m r) := by
  unfold PlainRequest
  split <;> infer_instance

/-! ### What is read back -/

/-- The hash of a source is read back as it was. -/
theorem sourceHash_canon (p : ImportMapping) : sourceHash (Document.canon p.document) = (sourceHash p.document).canon := by
  unfold sourceHash
  rw [Document.getOrNull_canon]
  have hsource : p.document.getOrNull "source" = (p.source.map Document.value).getD .null := by
    rw [Document.getOrNull, p.sourced]
  rw [hsource]
  cases p.source with
  | none => rfl
  | some source =>
    have hget : (Document.value source).canon.get? "content_hash" =
        ((Document.value source).get? "content_hash").map Value.canon := Value.get?_canon source.nodup _
    show ((Document.value source).canon.get? "content_hash").getD (.str "") =
      (((Document.value source).get? "content_hash").getD (.str "")).canon
    rw [hget]
    cases (Document.value source).get? "content_hash" <;> rfl

/-! ### One request -/

theorem sim_bind_request (h : MirrorsPlatform m q) (requestKey canonicalHash runId now : String) :
    Op.sim (SqlitePlatform.bind requestKey canonicalHash runId now) q (MemoryPlatform.bind requestKey canonicalHash runId now)
      m (fun r' q' r m' => (PlatformReply.bound r).Agree (.bound r') ∧ MirrorsPlatform m' q')
      (fun q' m' => MirrorsPlatform m' q') := by
  refine Op.sim_atomically (Op.sim_bind (Op.sim_gets ?_))
  rw [h.requests]
  cases m.requests.get requestKey with
  | some existing =>
    refine Op.sim_bind (Op.sim_ensure Iff.rfl (fun _ => ?_) (fun _ => h))
    exact Op.sim_pure ⟨⟨rfl, rfl, rfl⟩, h⟩
  | none =>
    refine Op.sim_returns rfl rfl ⟨⟨rfl, rfl, rfl⟩, ?_⟩
    exact { h with requests := congrArg (Table.set · requestKey _) h.requests }

theorem sim_beginImport (h : MirrorsPlatform m q) (record : ImportRecord) :
    Op.sim (SqlitePlatform.beginImport record) q (MemoryPlatform.beginImport record) m
      (fun d' q' d m' => Document.canon d = Document.canon d' ∧ MirrorsPlatform m' q')
      (fun q' m' => MirrorsPlatform m' q') := by
  refine Op.sim_atomically (Op.sim_bind (Op.sim_gets ?_))
  rw [h.imports, Table.get_map]
  cases m.imports.get record.importId with
  | some existing =>
    refine Op.sim_bind (Op.sim_ensure Iff.rfl (fun _ => ?_) (fun _ => h))
    exact Op.sim_pure ⟨(Document.canon_idem _).symm, h⟩
  | none =>
    refine Op.sim_returns rfl rfl ⟨rfl, ?_⟩
    refine { h with imports := ?_ }
    show q.imports.set record.importId (importRow record) = _
    rw [h.imports, Table.set_map]

theorem sim_setStatus (h : MirrorsPlatform m q) (importId status : String) :
    Op.sim (SqlitePlatform.setStatus importId status) q (MemoryPlatform.setStatus importId status) m
      (fun _ q' _ m' => MirrorsPlatform m' q') (fun q' m' => MirrorsPlatform m' q') := by
  refine Op.sim_atomically (Op.sim_bind (Op.sim_gets ?_))
  rw [h.imports, Table.get_map]
  cases m.imports.get importId with
  | none => exact Op.sim_raise h
  | some record =>
    refine Op.sim_modify { h with imports := ?_ }
    have hrow : (⟨record.manifestSha256, Document.canon ((Document.canon record.document).set "status" (.str status))⟩ :
        ImportRow) = importRow (record.withStatus status) := by
      rw [Document.canon_set]
      rfl
    show q.imports.set importId ⟨record.manifestSha256, _⟩ = _
    rw [h.imports, ← Table.set_map]
    exact congrArg _ hrow

theorem sim_putMapping (h : MirrorsPlatform m q) (mapping : ImportMapping) :
    Op.sim (SqlitePlatform.putMapping mapping) q (MemoryPlatform.putMapping mapping) m
      (fun d' q' d m' => Document.canon d = Document.canon d' ∧ MirrorsPlatform m' q')
      (fun q' m' => MirrorsPlatform m' q') := by
  refine Op.sim_atomically (Op.sim_bind (Op.sim_gets ?_))
  rw [h.mappings, Table.get_map]
  cases m.mappings.get mapping.mappingKey with
  | some existing =>
    have same : (sourceHash (mappingRow existing).payload).equals (sourceHash mapping.document) =
        (sourceHash existing.document).equals (sourceHash mapping.document) := by
      show (sourceHash (Document.canon existing.document)).equals _ = _
      rw [sourceHash_canon, Value.canon_equals]
    refine Op.sim_bind (Op.sim_ensure (Bool.coe_iff_coe.2 same) (fun _ => ?_) (fun _ => h))
    exact Op.sim_pure ⟨(Document.canon_idem _).symm, h⟩
  | none =>
    refine Op.sim_returns rfl rfl ⟨rfl, ?_⟩
    refine { h with mappings := ?_ }
    show q.mappings.set mapping.mappingKey (mappingRow mapping) = _
    rw [h.mappings, Table.set_map]

/-- Where every asked mapping has an import, both stores find the same. -/
theorem mappingsFor_alike (h : MirrorsPlatform m q) {importId : String} (plain : PlainRequest m (.mappingsFor importId)) :
    (m.mappingsFor importId).map Document.canon = (q.mappingsFor importId).map Document.canon := by
  have owner : ∀ r ∈ m.mappings.rows, r.2.importId.getD "" = importId ↔ r.2.importId = some importId := by
    intro r hr
    rcases plain with named | owned
    · cases r.2.importId with
      | none => exact ⟨fun he => absurd he.symm named, fun he => by cases he⟩
      | some id => exact ⟨fun he => congrArg some he, fun he => Option.some.inj he⟩
    · obtain ⟨id, hid⟩ := Option.ne_none_iff_exists'.1 (owned r hr)
      rw [hid]
      exact ⟨fun he => congrArg some he, fun he => Option.some.inj he⟩
  have kept : m.mappings.rows.filter (fun r => r.2.importId.getD "" = importId) =
      m.mappings.rows.filter (fun r => r.2.importId = some importId) :=
    List.filter_congr (fun r hr => by simp only [owner r hr])
  unfold MemoryPlatform.mappingsFor SqlitePlatform.mappingsFor
  rw [h.mappings, Table.map_rows, List.filter_map, List.map_map, List.map_map]
  rw [← kept, List.map_map]
  exact List.map_congr_left (fun r _ => (Document.canon_idem r.2.document).symm)

/-! ### Tombstones -/

section Rows
variable {κ α : Type} [DecidableEq κ]

theorem get_replaceRow (t : Table κ α) (k k' : κ) (v : α) :
    (replaceRow t k v).get k' = if k' = k then some v else t.get k' := by
  rw [replaceRow, Table.get_set]
  split
  · rfl
  · rename_i hne
    refine Option.ext (fun w => ?_)
    rw [Table.get_eq_some_iff, Table.get_eq_some_iff, Table.mem_erase]
    exact ⟨fun hw => hw.1, fun hw => ⟨hw, hne⟩⟩

/-- Tables that find the same under every key hold the same rows. -/
theorem rows_perm {t u : Table κ α} (same : ∀ k, t.get k = u.get k) : t.rows.Perm u.rows := by
  refine (List.perm_ext_iff_of_nodup (List.Nodup.of_map _ t.nodup) (List.Nodup.of_map _ u.nodup)).2 (fun r => ?_)
  rw [← Table.get_eq_some_iff, ← Table.get_eq_some_iff, same]

end Rows

/-- Entries are appended one after the other, in place or as the last row. -/
theorem tombstones_appended {t : Table (String × String) Tombstone} {u : Table (String × String) Document}
    (same : ∀ key, u.get key = (t.get key).map (fun e => Document.canon e.document)) (entries : List Tombstone)
    (key : String × String) :
    (entries.foldl (fun u entry => replaceRow u entry.key (Document.canon entry.document)) u).get key =
      ((entries.foldl (fun t entry => t.set entry.key entry) t).get key).map (fun e => Document.canon e.document) := by
  induction entries generalizing t u with
  | nil => exact same key
  | cons entry rest ih =>
    rw [List.foldl_cons, List.foldl_cons]
    refine ih (fun key => ?_)
    rw [get_replaceRow, Table.get_set]
    split
    · rfl
    · exact same key

theorem mirrors_appendTombstones (h : MirrorsPlatform m q) (entries : List Tombstone) :
    MirrorsPlatform (m.appendTombstones entries) (q.appendTombstones entries) :=
  { h with tombstones := tombstones_appended h.tombstones entries }

/-- A listing of all tombstones shows the same ones in both stores. -/
theorem listTombstones_alike (h : MirrorsPlatform m q) {limit : Int} (whole : PlainRequest m (.listTombstones limit)) :
    ((m.listTombstones limit).map Document.canon).Perm ((q.listTombstones limit).map Document.canon) := by
  have hrows : q.tombstones.rows.Perm (m.tombstones.map (fun t => Document.canon t.document)).rows :=
    rows_perm (fun key => by rw [h.tombstones, Table.get_map])
  have hlength : q.tombstones.rows.length = m.tombstones.rows.length := by
    rw [hrows.length_eq, Table.map_rows, List.length_map]
  have hwhole : (m.tombstones.rows.length : Int) ≤ limit := whole
  have hpos : 0 ≤ limit := by omega
  have first : m.listTombstones limit = m.tombstones.rows.map (fun r => r.2.document) := by
    unfold MemoryPlatform.listTombstones
    rw [if_pos hpos, List.take_of_length_le (by omega)]
  have last : q.listTombstones limit = (q.tombstones.rows.map Prod.snd).reverse := by
    unfold SqlitePlatform.listTombstones
    rw [if_pos hpos, List.take_of_length_le (by rw [List.length_reverse, List.length_map]; omega)]
  rw [first, last]
  refine List.Perm.symm (((List.reverse_perm _).map Document.canon).trans ?_)
  refine ((hrows.map Prod.snd).map Document.canon).trans (List.Perm.of_eq ?_)
  rw [Table.map_rows, List.map_map, List.map_map, List.map_map]
  exact List.map_congr_left (fun r _ => Document.canon_idem r.2.document)

/-! ### Every run -/

theorem platform_served_alike (h : MirrorsPlatform m q) {r : PlatformRequest} (plain : PlainRequest m r) :
    Op.sim (SqlitePlatform.serve r) q (MemoryPlatform.serve r) m
      (fun b q' a m' => a.Agree b ∧ MirrorsPlatform m' q') (fun q' m' => MirrorsPlatform m' q') := by
  cases r with
  | bind requestKey canonicalHash runId now =>
    exact sim_wrapped (sim_bind_request h requestKey canonicalHash runId now) (fun _ _ _ _ h => h)
  | getRequest requestKey => exact Op.sim_returns rfl rfl ⟨congrArg (Table.get · requestKey) h.requests.symm, h⟩
  | getMeta key => exact Op.sim_returns rfl rfl ⟨congrArg (Table.get · key) h.metaRows.symm, h⟩
  | setMeta key value => exact Op.sim_returns rfl rfl ⟨trivial, { h with metaRows := congrArg (Table.set · key value) h.metaRows }⟩
  | deleteMeta key => exact Op.sim_returns rfl rfl ⟨trivial, { h with metaRows := congrArg (Table.erase · key) h.metaRows }⟩
  | beginImport record => exact sim_wrapped (sim_beginImport h record) (fun _ _ _ _ h => h)
  | getImport importId =>
    refine Op.sim_returns rfl rfl ⟨?_, h⟩
    show ((m.imports.get importId).map _).map Document.canon = ((q.imports.get importId).map _).map Document.canon
    rw [h.imports, Table.get_map]
    cases m.imports.get importId with
    | none => rfl
    | some r => exact congrArg some (Document.canon_idem r.document).symm
  | listImports =>
    refine Op.sim_returns rfl rfl ⟨?_, h⟩
    show (m.imports.rows.map _).map Document.canon = (q.imports.rows.map _).map Document.canon
    rw [h.imports, Table.map_rows, List.map_map, List.map_map, List.map_map]
    exact List.map_congr_left (fun r _ => (Document.canon_idem r.2.document).symm)
  | setStatus importId status =>
    refine Op.sim_bind (Op.sim_mono (sim_setStatus h importId status) (fun _ _ _ _ h => ?_) (fun _ _ h => h))
    exact Op.sim_pure ⟨trivial, h⟩
  | putMapping mapping => exact sim_wrapped (sim_putMapping h mapping) (fun _ _ _ _ h => h)
  | getMapping mappingKey =>
    refine Op.sim_returns rfl rfl ⟨?_, h⟩
    show ((m.mappings.get mappingKey).map _).map Document.canon = ((q.mappings.get mappingKey).map _).map Document.canon
    rw [h.mappings, Table.get_map]
    cases m.mappings.get mappingKey with
    | none => rfl
    | some p => exact congrArg some (Document.canon_idem p.document).symm
  | mappingsFor importId => exact Op.sim_returns rfl rfl ⟨mappingsFor_alike h plain, h⟩
  | appendTombstones entries => exact Op.sim_returns rfl rfl ⟨trivial, mirrors_appendTombstones h entries⟩
  | listTombstones limit => exact Op.sim_returns rfl rfl ⟨listTombstones_alike h plain, h⟩

end Requests

def sampleImport (importId manifestSha256 : String) : ImportRecord where
  document := document [("import_id", .str importId), ("manifest_sha256", .str manifestSha256)]
  importId := importId
  manifestSha256 := manifestSha256
  identified := rfl
  hashed := rfl

def sampleMapping (mappingKey importId : String) : ImportMapping where
  document := document [("mapping_key", .str mappingKey), ("import_id", .str importId)]
  mappingKey := mappingKey
  importId := some importId
  source := none
  keyed := rfl
  owned := rfl
  sourced := rfl

def sampleTombstone (gcRunId artifactId : String) : Tombstone where
  document := document [("gc_run_id", .str gcRunId), ("artifact_id", .str artifactId)]
  gcRunId := gcRunId
  artifactId := artifactId
  collected := rfl
  identified := rfl

def sampleRequests : List PlatformRequest :=
  [.bind "k" "h" "r" "t", .bind "k" "x" "s" "u", .beginImport (sampleImport "i" "m"), .setStatus "i" "done", .listImports,
    .putMapping (sampleMapping "p" "i"), .mappingsFor "i", .appendTombstones [sampleTombstone "g" "a", sampleTombstone "g" "b"],
    .listTombstones 2]

end Motte.Storage
