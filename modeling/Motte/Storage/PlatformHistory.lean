import Motte.Storage.Platform

/-! What the platform stores answer, told from the requests before.

The request registry answers from the first binding of a key, whoever made it. What is
imported stands as it was begun but for its status, and a mapping as it was made. -/
namespace Motte.Storage
open Foundation Experiment

namespace PlatformRequest

/-- What a request binds a key to, if the key is free. -/
def binds (requestKey : String) : PlatformRequest → Option RequestBinding
  | .bind key canonicalHash runId now => if key = requestKey then some ⟨key, canonicalHash, runId, now⟩ else none
  | _ => none

/-- The status a request gives to an import. -/
def statusOf (importId : String) : PlatformRequest → Option String
  | .setStatus id status => if id = importId then some status else none
  | _ => none

end PlatformRequest

/-- The first binding of a key among the requests. -/
def firstBinding (requestKey : String) (requests : List PlatformRequest) : Option RequestBinding :=
  requests.findSome? (PlatformRequest.binds requestKey)

/-- The last status an import is given. -/
def lastStatus (importId : String) (requests : List PlatformRequest) : Option String :=
  (requests.filterMap (PlatformRequest.statusOf importId)).getLast?

/-- What the registry answers to a binding when this was bound first. -/
def bindingAnswer (first : Option RequestBinding) (requestKey canonicalHash runId : String) :
    Except PlatformError (BindOutcome × String × String) :=
  match first with
  | none => .ok (.created, runId, canonicalHash)
  | some b =>
    if b.canonicalHash = canonicalHash then .ok (.replayed, b.runId, b.canonicalHash)
    else .error (.requestConflict requestKey)

/-- The part of an answer that both stores give. -/
def BindReply.core (r : BindReply) : BindOutcome × String × String := (r.outcome, r.runId, r.canonicalHash)

/-- The state after a request. -/
def MemoryPlatform.step (r : PlatformRequest) (m : MemoryPlatform) : MemoryPlatform := (MemoryPlatform.serve r m).2

def SqlitePlatform.step (r : PlatformRequest) (q : SqlitePlatform) : SqlitePlatform := (SqlitePlatform.serve r q).2

section Steps
variable {m : MemoryPlatform} {q : SqlitePlatform} {requestKey importId mappingKey : String}

/-- Both stores go on side by side, whatever is asked. -/
theorem platform_mirrors_step (h : MirrorsPlatform m q) (r : PlatformRequest) : MirrorsPlatform (m.step r) (q.step r) := by
  have kept (plain : PlainRequest m r) : MirrorsPlatform (m.step r) (q.step r) := by
    unfold MemoryPlatform.step SqlitePlatform.step
    rcases (platform_served_alike h plain).cases with ⟨b, q', a, m', hq, hm, -, next⟩ | ⟨e, q', e', m', hq, hm, next⟩
    · rw [hq, hm]
      exact next
    · rw [hq, hm]
      exact next
  cases r with
  | mappingsFor importId => exact h
  | listTombstones limit => exact h
  | _ => exact kept trivial

theorem platform_mirrors_run (h : MirrorsPlatform m q) (requests : List PlatformRequest) :
    MirrorsPlatform (run MemoryPlatform.step m requests) (run SqlitePlatform.step q requests) := by
  induction requests generalizing m q with
  | nil => exact h
  | cons r rest ih => exact ih (platform_mirrors_step h r)

/-! ### What one request does -/

theorem bind_apply (requestKey canonicalHash runId now : String) (m : MemoryPlatform) :
    MemoryPlatform.bind requestKey canonicalHash runId now m =
      (m.requests.get requestKey).elim
        (.ok ⟨.created, runId, canonicalHash, some ⟨requestKey, canonicalHash, runId, now⟩⟩,
          { m with requests := m.requests.set requestKey ⟨requestKey, canonicalHash, runId, now⟩ })
        (fun b => (if b.canonicalHash = canonicalHash then .ok ⟨.replayed, b.runId, b.canonicalHash, some b⟩
          else .error (.requestConflict requestKey), m)) := by
  unfold MemoryPlatform.bind
  rw [Op.bind_of_ok (Op.gets_apply _)]
  cases m.requests.get requestKey with
  | none => rfl
  | some existing =>
    dsimp only [Option.elim]
    by_cases same : existing.canonicalHash = canonicalHash
    · rw [Op.bind_of_ok (Op.lift_ensure_of same), if_pos same]
      rfl
    · rw [Op.bind_of_error (Op.lift_ensure_of_not same), if_neg same]

theorem beginImport_apply (record : ImportRecord) (m : MemoryPlatform) :
    MemoryPlatform.beginImport record m =
      (m.imports.get record.importId).elim
        (.ok record.document, { m with imports := m.imports.set record.importId record })
        (fun e => (if e.manifestSha256 = record.manifestSha256 then .ok e.document
          else .error (.importConflict record.importId), m)) := by
  unfold MemoryPlatform.beginImport
  rw [Op.bind_of_ok (Op.gets_apply _)]
  cases m.imports.get record.importId with
  | none => rfl
  | some existing =>
    dsimp only [Option.elim]
    by_cases same : existing.manifestSha256 = record.manifestSha256
    · rw [Op.bind_of_ok (Op.lift_ensure_of same), if_pos same]
      rfl
    · rw [Op.bind_of_error (Op.lift_ensure_of_not same), if_neg same]

theorem setStatus_apply (importId status : String) (m : MemoryPlatform) :
    MemoryPlatform.setStatus importId status m =
      (m.imports.get importId).elim (.error (.importNotFound importId), m)
        (fun record => (.ok (), { m with imports := m.imports.set importId (record.withStatus status) })) := by
  unfold MemoryPlatform.setStatus
  rw [Op.bind_of_ok (Op.gets_apply _)]
  cases m.imports.get importId <;> rfl

theorem putMapping_apply (mapping : ImportMapping) (m : MemoryPlatform) :
    MemoryPlatform.putMapping mapping m =
      (m.mappings.get mapping.mappingKey).elim
        (.ok mapping.document, { m with mappings := m.mappings.set mapping.mappingKey mapping })
        (fun e => (if (sourceHash e.document).equals (sourceHash mapping.document) then .ok e.document
          else .error (.mappingConflict mapping.mappingKey), m)) := by
  unfold MemoryPlatform.putMapping
  rw [Op.bind_of_ok (Op.gets_apply _)]
  cases m.mappings.get mapping.mappingKey with
  | none => rfl
  | some existing =>
    dsimp only [Option.elim]
    by_cases same : (sourceHash existing.document).equals (sourceHash mapping.document) = true
    · rw [Op.bind_of_ok (Op.lift_ensure_of same), if_pos same]
      rfl
    · rw [Op.bind_of_error (Op.lift_ensure_of_not same), if_neg same]

/-- The four requests that may change something, and the rest. -/
theorem step_cases (r : PlatformRequest) (m : MemoryPlatform) :
    (∃ requestKey canonicalHash runId now, r = .bind requestKey canonicalHash runId now ∧ m.requests.get requestKey = none ∧
        m.step r = { m with requests := m.requests.set requestKey ⟨requestKey, canonicalHash, runId, now⟩ }) ∨
      (∃ record, r = .beginImport record ∧ m.imports.get record.importId = none ∧
        m.step r = { m with imports := m.imports.set record.importId record }) ∨
      (∃ importId status record, r = .setStatus importId status ∧ m.imports.get importId = some record ∧
        m.step r = { m with imports := m.imports.set importId (record.withStatus status) }) ∨
      (∃ mapping, r = .putMapping mapping ∧ m.mappings.get mapping.mappingKey = none ∧
        m.step r = { m with mappings := m.mappings.set mapping.mappingKey mapping }) ∨
      ((m.step r).requests = m.requests ∧ (m.step r).imports = m.imports ∧ (m.step r).mappings = m.mappings ∧
        (∀ requestKey b, r.binds requestKey = some b → m.requests.get requestKey ≠ none) ∧
        ∀ importId status, r.statusOf importId = some status → m.imports.get importId = none) := by
  unfold MemoryPlatform.step
  cases r with
  | bind requestKey canonicalHash runId now =>
    unfold MemoryPlatform.serve
    rw [Op.bind_pure_state, bind_apply]
    cases hget : m.requests.get requestKey with
    | none => exact .inl ⟨requestKey, canonicalHash, runId, now, rfl, hget, rfl⟩
    | some b =>
      refine .inr (.inr (.inr (.inr ⟨rfl, rfl, rfl, fun key b' hb => ?_, fun _ _ hs => by cases hs⟩)))
      have hkey : requestKey = key := by
        by_contra hne
        have hnone : (PlatformRequest.bind requestKey canonicalHash runId now).binds key = none := if_neg hne
        rw [hnone] at hb
        cases hb
      rw [← hkey, hget]
      exact Option.some_ne_none b
  | beginImport record =>
    unfold MemoryPlatform.serve
    rw [Op.bind_pure_state, beginImport_apply]
    cases hget : m.imports.get record.importId with
    | none => exact .inr (.inl ⟨record, rfl, hget, rfl⟩)
    | some e =>
      exact .inr (.inr (.inr (.inr ⟨rfl, rfl, rfl, fun _ _ hb => (by cases hb), fun _ _ hs => by cases hs⟩)))
  | setStatus importId status =>
    unfold MemoryPlatform.serve
    rw [Op.bind_pure_state (g := fun _ => PlatformReply.done), setStatus_apply]
    cases hget : m.imports.get importId with
    | some record => exact .inr (.inr (.inl ⟨importId, status, record, rfl, hget, rfl⟩))
    | none =>
      refine .inr (.inr (.inr (.inr ⟨rfl, rfl, rfl, fun _ _ hb => (by cases hb), fun id status' hs => ?_⟩)))
      have hid : importId = id := by
        by_contra hne
        have hnone : (PlatformRequest.setStatus importId status).statusOf id = none := if_neg hne
        rw [hnone] at hs
        cases hs
      exact hid ▸ hget
  | putMapping mapping =>
    unfold MemoryPlatform.serve
    rw [Op.bind_pure_state, putMapping_apply]
    cases hget : m.mappings.get mapping.mappingKey with
    | none => exact .inr (.inr (.inr (.inl ⟨mapping, rfl, hget, rfl⟩)))
    | some e =>
      exact .inr (.inr (.inr (.inr ⟨rfl, rfl, rfl, fun _ _ hb => (by cases hb), fun _ _ hs => by cases hs⟩)))
  | _ => exact .inr (.inr (.inr (.inr ⟨rfl, rfl, rfl, fun _ _ hb => (by cases hb), fun _ _ hs => by cases hs⟩)))

/-- A key is bound by the request that finds it free. -/
theorem requests_step (r : PlatformRequest) :
    (m.step r).requests.get requestKey = (m.requests.get requestKey).or (r.binds requestKey) := by
  obtain ⟨key, canonicalHash, runId, now, rfl, free, hstep⟩ | ⟨record, rfl, -, hstep⟩ | ⟨id, status, record, rfl, -, hstep⟩ |
    ⟨mapping, rfl, -, hstep⟩ | ⟨hsame, -, -, taken, -⟩ := step_cases r m
  · rw [hstep]
    have hbinds : (PlatformRequest.bind key canonicalHash runId now).binds requestKey =
        if key = requestKey then some ⟨key, canonicalHash, runId, now⟩ else none := rfl
    rw [hbinds]
    by_cases hkey : key = requestKey
    · rw [if_pos hkey, ← hkey, free]
      exact Table.get_set_self ..
    · rw [if_neg hkey, Option.or_none]
      exact Table.get_set_ne _ _ (fun he => hkey he.symm)
  · rw [hstep]
    exact Option.or_none.symm
  · rw [hstep]
    exact Option.or_none.symm
  · rw [hstep]
    exact Option.or_none.symm
  · rw [hsame]
    cases hbinds : r.binds requestKey with
    | none => exact Option.or_none.symm
    | some b =>
      obtain ⟨b', hb'⟩ := Option.ne_none_iff_exists'.1 (taken requestKey b hbinds)
      rw [hb']
      rfl

/-- An import that was begun changes in its status only. -/
theorem imports_step {record : ImportRecord} (h : m.imports.get importId = some record) (r : PlatformRequest) :
    (m.step r).imports.get importId = some ((r.statusOf importId).elim record record.withStatus) := by
  obtain ⟨key, canonicalHash, runId, now, rfl, -, hstep⟩ | ⟨other, rfl, free, hstep⟩ | ⟨id, status, other, rfl, hget, hstep⟩ |
    ⟨mapping, rfl, -, hstep⟩ | ⟨-, hsame, -, -, missing⟩ := step_cases r m
  · rw [hstep]
    exact h
  · rw [hstep]
    have hne : importId ≠ other.importId := by
      intro he
      rw [← he, h] at free
      cases free
    exact (Table.get_set_ne _ _ hne).trans h
  · rw [hstep]
    have hgives : (PlatformRequest.setStatus id status).statusOf importId = if id = importId then some status else none := rfl
    rw [hgives]
    by_cases hid : id = importId
    · rw [hid, h] at hget
      cases hget
      rw [if_pos hid, hid]
      exact Table.get_set_self ..
    · rw [if_neg hid]
      exact (Table.get_set_ne _ _ (fun he => hid he.symm)).trans h
  · rw [hstep]
    exact h
  · rw [hsame, h]
    cases hgives : r.statusOf importId with
    | none => rfl
    | some status =>
      rw [missing importId status hgives] at h
      cases h

/-- A mapping that was made does not change. -/
theorem mappings_step {mapping : ImportMapping} (h : m.mappings.get mappingKey = some mapping) (r : PlatformRequest) :
    (m.step r).mappings.get mappingKey = some mapping := by
  obtain ⟨key, canonicalHash, runId, now, rfl, -, hstep⟩ | ⟨other, rfl, -, hstep⟩ | ⟨id, status, other, rfl, -, hstep⟩ |
    ⟨other, rfl, free, hstep⟩ | ⟨-, -, hsame, -⟩ := step_cases r m
  · rw [hstep]
    exact h
  · rw [hstep]
    exact h
  · rw [hstep]
    exact h
  · rw [hstep]
    have hne : mappingKey ≠ other.mappingKey := by
      intro he
      rw [← he, h] at free
      cases free
    exact (Table.get_set_ne _ _ hne).trans h
  · rw [hsame, h]

end Steps

/-! ### Whole runs -/

section Runs
variable {m : MemoryPlatform} {q : SqlitePlatform} {importId mappingKey : String}

theorem requests_run (requestKey : String) (m : MemoryPlatform) (requests : List PlatformRequest) :
    (run MemoryPlatform.step m requests).requests.get requestKey =
      (m.requests.get requestKey).or (firstBinding requestKey requests) := by
  induction requests generalizing m with
  | nil => exact Option.or_none.symm
  | cons r rest ih =>
    show (run MemoryPlatform.step (m.step r) rest).requests.get requestKey = _
    rw [ih, requests_step, Option.or_assoc]
    congr 1
    unfold firstBinding
    rw [List.findSome?_cons]
    cases PlatformRequest.binds requestKey r <;> rfl

/-- The last of two statuses stands. -/
theorem withStatus_withStatus (record : ImportRecord) (a b : String) :
    (record.withStatus a).withStatus b = record.withStatus b := by
  unfold ImportRecord.withStatus
  congr 1
  exact Table.set_set ..

theorem imports_run {record : ImportRecord} (h : m.imports.get importId = some record) (requests : List PlatformRequest) :
    (run MemoryPlatform.step m requests).imports.get importId =
      some ((lastStatus importId requests).elim record record.withStatus) := by
  induction requests generalizing m record with
  | nil => exact h
  | cons r rest ih =>
    show (run MemoryPlatform.step (m.step r) rest).imports.get importId = _
    rw [ih (imports_step h r)]
    congr 1
    unfold lastStatus
    rw [List.filterMap_cons]
    cases PlatformRequest.statusOf importId r with
    | none => rfl
    | some status =>
      dsimp only [Option.elim]
      rw [List.getLast?_cons]
      cases (rest.filterMap (PlatformRequest.statusOf importId)).getLast? with
      | none => rfl
      | some later => exact withStatus_withStatus ..

theorem mappings_run {mapping : ImportMapping} (h : m.mappings.get mappingKey = some mapping)
    (requests : List PlatformRequest) :
    (run MemoryPlatform.step m requests).mappings.get mappingKey = some mapping :=
  run_keeps (I := fun m : MemoryPlatform => m.mappings.get mappingKey = some mapping) (fun _ r h => mappings_step h r)
    requests h

/-- The tables answer a binding as the dictionaries do. -/
theorem bind_alike (h : MirrorsPlatform m q) (requestKey canonicalHash runId now : String) :
    (SqlitePlatform.bind requestKey canonicalHash runId now q).1.map BindReply.core =
      (MemoryPlatform.bind requestKey canonicalHash runId now m).1.map BindReply.core := by
  have hmemory := bind_apply requestKey canonicalHash runId now m
  unfold SqlitePlatform.bind
  cases hget : m.requests.get requestKey with
  | none =>
    rw [hget] at hmemory
    rw [hmemory, Op.atomically_of_ok ((Op.bind_of_ok (Op.gets_apply _)).trans (by rw [h.requests, hget]; rfl))]
    rfl
  | some row =>
    rw [hget] at hmemory
    rw [hmemory]
    dsimp only [Option.elim]
    by_cases same : row.canonicalHash = canonicalHash
    · rw [if_pos same, Op.atomically_of_ok ((Op.bind_of_ok (Op.gets_apply _)).trans
        (by rw [h.requests, hget]; exact Op.bind_of_ok (Op.lift_ensure_of same)))]
      rfl
    · rw [if_neg same, Op.atomically_of_error ((Op.bind_of_ok (Op.gets_apply _)).trans
        (by rw [h.requests, hget]; exact Op.bind_of_error (Op.lift_ensure_of_not same)))]

/-- Whatever was asked before, by whomever, both stores answer a binding from the first binding of its key: without one
the run is created; with one of the same hash its run is replayed; with one of another hash the binding is refused. -/
theorem bind_answered (requests : List PlatformRequest) (requestKey canonicalHash runId now : String) :
    (MemoryPlatform.bind requestKey canonicalHash runId now (run MemoryPlatform.step {} requests)).1.map BindReply.core =
        bindingAnswer (firstBinding requestKey requests) requestKey canonicalHash runId ∧
      (SqlitePlatform.bind requestKey canonicalHash runId now (run SqlitePlatform.step {} requests)).1.map BindReply.core =
        bindingAnswer (firstBinding requestKey requests) requestKey canonicalHash runId := by
  have first : (run MemoryPlatform.step {} requests).requests.get requestKey = firstBinding requestKey requests :=
    requests_run requestKey {} requests
  have answer : (MemoryPlatform.bind requestKey canonicalHash runId now (run MemoryPlatform.step {} requests)).1.map
      BindReply.core = bindingAnswer (firstBinding requestKey requests) requestKey canonicalHash runId := by
    rw [bind_apply, first]
    cases firstBinding requestKey requests with
    | none => rfl
    | some b =>
      dsimp only [Option.elim, bindingAnswer]
      split <;> rfl
  exact ⟨answer, (bind_alike (platform_mirrors_run platform_mirrors_empty requests) requestKey canonicalHash runId now).trans answer⟩

/-! ### The ledger -/

/-- What a ledger answers to an import that was begun. -/
def importAnswer (stored again : ImportRecord) (document : Document) : Except PlatformError Document :=
  if stored.manifestSha256 = again.manifestSha256 then .ok document else .error (.importConflict again.importId)

/-- What a ledger answers to a mapping that was made. -/
def mappingAnswer (stored again : ImportMapping) (document : Document) : Except PlatformError Document :=
  if (sourceHash stored.document).equals (sourceHash again.document) then .ok document
  else .error (.mappingConflict again.mappingKey)

theorem withStatus_manifest (record : ImportRecord) (status : Option String) :
    (status.elim record record.withStatus).manifestSha256 = record.manifestSha256 := by
  cases status <;> rfl

theorem import_stands {record : ImportRecord} (h : MirrorsPlatform m q) (again : ImportRecord)
    (begun : m.imports.get again.importId = some record) :
    MemoryPlatform.beginImport again m = (importAnswer record again record.document, m) ∧
      SqlitePlatform.beginImport again q = (importAnswer record again (Document.canon record.document), q) := by
  have row : q.imports.get again.importId = some (importRow record) := by rw [h.imports, Table.get_map, begun]; rfl
  constructor
  · rw [beginImport_apply, begun]
    rfl
  · unfold SqlitePlatform.beginImport importAnswer
    by_cases same : record.manifestSha256 = again.manifestSha256
    · rw [if_pos same, Op.atomically_of_ok ((Op.bind_of_ok (Op.gets_apply _)).trans
        (by rw [row]; exact Op.bind_of_ok (Op.lift_ensure_of same)))]
      rfl
    · rw [if_neg same, Op.atomically_of_error ((Op.bind_of_ok (Op.gets_apply _)).trans
        (by rw [row]; exact Op.bind_of_error (Op.lift_ensure_of_not same)))]

theorem mapping_stands {mapping : ImportMapping} (h : MirrorsPlatform m q) (again : ImportMapping)
    (made : m.mappings.get again.mappingKey = some mapping) :
    MemoryPlatform.putMapping again m = (mappingAnswer mapping again mapping.document, m) ∧
      SqlitePlatform.putMapping again q = (mappingAnswer mapping again (Document.canon mapping.document), q) := by
  have row : q.mappings.get again.mappingKey = some (mappingRow mapping) := by rw [h.mappings, Table.get_map, made]; rfl
  have read : (sourceHash (mappingRow mapping).payload).equals (sourceHash again.document) =
      (sourceHash mapping.document).equals (sourceHash again.document) := by
    show (sourceHash (Document.canon mapping.document)).equals _ = _
    rw [sourceHash_canon, Value.canon_equals]
  constructor
  · rw [putMapping_apply, made]
    rfl
  · unfold SqlitePlatform.putMapping mappingAnswer
    by_cases same : (sourceHash mapping.document).equals (sourceHash again.document) = true
    · rw [if_pos same, Op.atomically_of_ok ((Op.bind_of_ok (Op.gets_apply _)).trans
        (by rw [row]; exact Op.bind_of_ok (Op.lift_ensure_of (read.trans same))))]
      rfl
    · rw [if_neg same, Op.atomically_of_error ((Op.bind_of_ok (Op.gets_apply _)).trans
        (by rw [row]; exact Op.bind_of_error (Op.lift_ensure_of_not (fun h => same (read.symm.trans h)))))]

end Runs

end Motte.Storage
