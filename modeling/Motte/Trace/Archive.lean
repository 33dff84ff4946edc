import Motte.Foundation.Op
import Motte.Trace.ArtifactRefs

/-! The archive format of trimmed trace events.

An archive is one canonical JSON document: the range it covers, the complete
stored rows, and the artifacts they refer to. The reader parses it, validates
the range and the rows again, encodes them anew and compares the bytes. How JSON
is written and read, what a digest is and how a time is written are parameters,
with the two laws that the format rests on. -/
namespace Motte.Trace
open Foundation

/-! ### Checked fields -/

def isHex64 (text : List Char) : Bool := text.length = 64 ∧ text.all (· ∈ "0123456789abcdef".toList)

/-- `_digest`: a lowercase SHA-256 digest, with its name in front. -/
def digest? (s : String) : Option String :=
  if isHex64 s.toList then some ("sha256:" ++ s)
  else if starts "sha256:" s ∧ isHex64 (bare s).toList then some s
  else none

theorem starts_append (start text : String) : starts start (start ++ text) = true := by
  simp [starts, List.isPrefixOf_iff_prefix]

theorem bare_named (s : String) : bare ("sha256:" ++ s) = s := by
  have drop : ("sha256:".toList ++ s.toList).drop 7 = s.toList := rfl
  rw [bare, if_pos (starts_append _ _), String.toList_append, drop, String.ofList_toList]

theorem digest?_idem {s d : String} (h : digest? s = some d) : digest? d = some d := by
  unfold digest? at h
  split at h
  · rename_i hex
    cases h
    have long : isHex64 ("sha256:" ++ s).toList = false := by
      have length : s.toList.length = 64 := (of_decide_eq_true hex).1
      simp [isHex64, length]
    rw [digest?, long, bare_named, starts_append]
    simp [hex]
  · split at h
    · rename_i hex named
      cases h
      rw [digest?, if_neg hex, if_pos named]
    · cases h

/-! ### Ranges and rows -/

/-- A `TracePrefix`: the first events of a run that are not archived yet. -/
structure TracePrefix where
  runId : String
  runRevision : Int
  status : String
  firstSeq : Int
  lastSeq : Int
  keepSeq : Int
  eventCount : Int
  eventsSha256 : String
deriving DecidableEq

namespace TracePrefix

/-- The checks of the model, with the digest named. -/
def validate (p : TracePrefix) : Option TracePrefix := do
  guard (nonBlank p.runId ∧ 0 ≤ p.runRevision ∧ nonBlank p.status)
  guard (0 < p.firstSeq ∧ 0 < p.lastSeq ∧ 0 < p.keepSeq ∧ 0 < p.eventCount)
  let digest ← digest? p.eventsSha256
  guard (p.firstSeq ≤ p.lastSeq ∧ p.lastSeq < p.keepSeq)
  guard (p.eventCount = p.lastSeq - p.firstSeq + 1)
  some { p with eventsSha256 := digest }

/-- `model_dump` -/
def dump (p : TracePrefix) : List (String × Value) :=
  [("run_id", .str p.runId), ("run_revision", .int p.runRevision), ("status", .str p.status),
    ("first_seq", .int p.firstSeq), ("last_seq", .int p.lastSeq), ("keep_seq", .int p.keepSeq),
    ("event_count", .int p.eventCount), ("events_sha256", .str p.eventsSha256)]

/-- `model_validate` of the members of a document; integers and texts are not converted. -/
def parse (body : Value) : Option TracePrefix := do
  let runId ← (body.get? "run_id").bind Value.str?
  let runRevision ← (body.get? "run_revision").bind Value.int?
  let status ← (body.get? "status").bind Value.str?
  let firstSeq ← (body.get? "first_seq").bind Value.int?
  let lastSeq ← (body.get? "last_seq").bind Value.int?
  let keepSeq ← (body.get? "keep_seq").bind Value.int?
  let eventCount ← (body.get? "event_count").bind Value.int?
  let eventsSha256 ← (body.get? "events_sha256").bind Value.str?
  validate ⟨runId, runRevision, status, firstSeq, lastSeq, keepSeq, eventCount, eventsSha256⟩

end TracePrefix

/-- A stored row of the trace; the time is unknown for rows from before times were stored. -/
structure StoredTraceEvent (τ : Type) where
  runId : String
  seq : Int
  payload : Value
  storedAt : Option τ
deriving DecidableEq

/-- What the archive relies on: canonical JSON bytes and their parser, SHA-256, and UTC times as text. -/
structure Codec (β τ : Type) where
  /-- `canonical_json_bytes`, none where it raises -/
  dumps : Value → Option β
  /-- `json.loads`, none where it raises -/
  loads : β → Option Value
  /-- `hashlib.sha256(data).hexdigest()` -/
  sha256 : β → String
  /-- the length in bytes -/
  size : β → Int
  /-- a UTC time as a model writes it -/
  isoformat : τ → String
  /-- `_utc_datetime` of a text, none where it raises -/
  fromisoformat : String → Option τ
  /-- Parsing gives back what was written, with sorted keys. -/
  loads_dumps : ∀ v b, dumps v = some b → loads b = some v.canon
  fromisoformat_isoformat : ∀ t, fromisoformat (isoformat t) = some t

/-- `canonical_sha256` -/
def Codec.canonicalSha256 {β τ : Type} (c : Codec β τ) (v : Value) : Option String :=
  (c.dumps v).map (fun data => "sha256:" ++ c.sha256 data)

section Format
variable {β τ : Type}

namespace StoredTraceEvent

/-- The checks of the model; the payload is a finite JSON object. -/
def validate (e : StoredTraceEvent τ) : Option (StoredTraceEvent τ) := do
  guard (nonBlank e.runId ∧ 0 < e.seq)
  match e.payload with
  | .obj _ =>
    let payload ← e.payload.snapshot
    some { e with payload := payload }
  | _ => none

/-- The members that are written. -/
def members (c : Codec β τ) (e : StoredTraceEvent τ) : List (String × Value) :=
  [("run_id", .str e.runId), ("seq", .int e.seq), ("payload", e.payload),
    ("stored_at", (e.storedAt.map (fun t => Value.str (c.isoformat t))).getD .null)]

/-- `model_dump(mode="json")` -/
def dump (c : Codec β τ) (e : StoredTraceEvent τ) : Value := .obj (e.members c)

/-- `stored_at: UtcDateTime | None` -/
def parseTime (c : Codec β τ) : Value → Option (Option τ)
  | .null => some none
  | .str s => (c.fromisoformat s).map some
  | _ => none

/-- `model_validate` of an object: every field is there, and no other. -/
def parse (c : Codec β τ) (v : Value) : Option (StoredTraceEvent τ) :=
  match v with
  | .obj members => do
    guard (members.all (fun m => m.1 ∈ ["run_id", "seq", "payload", "stored_at"]))
    let runId ← (v.get? "run_id").bind Value.str?
    let seq ← (v.get? "seq").bind Value.int?
    let payload ← v.get? "payload"
    let storedAt ← (v.get? "stored_at").bind (parseTime c)
    validate ⟨runId, seq, payload, storedAt⟩
  | _ => none

end StoredTraceEvent

/-! ### Encoding -/

/-- The rows are those of the range, in order, each with its time. -/
def completePrefix (p : TracePrefix) : Int → List (StoredTraceEvent τ) → Bool
  | _, [] => true
  | seq, row :: rest => row.runId = p.runId ∧ row.seq = seq ∧ row.storedAt.isSome ∧ completePrefix p (seq + 1) rest

/-- What an archive holds. -/
structure TraceArchive (τ : Type) where
  range : TracePrefix
  events : List (StoredTraceEvent τ)
  artifactRefs : List (String × Value)
  artifactHashes : List String
deriving DecidableEq

/-- The files the rows refer to, in order, with named digests. -/
def namedRefs (found : References) : Option (List (String × Value)) := do
  let named ← found.refs.rows.mapM fun (id, digest) => match digest with
    | none => some (id, Value.null)
    | some digest => (digest? digest).map (fun d => (id, Value.str d))
  some (Value.sortMembers named)

/-- The contents they refer to, in order. -/
def namedHashes (found : References) : Option (List String) := do
  let named ← found.hashes.mapM digest?
  some (named.dedup.insertionSort (· ≤ ·))

variable (c : Codec β τ)

/-- The archive of validated rows, if they are what the range says. -/
def archiveRows (p : TracePrefix) (rows : List (StoredTraceEvent τ)) : Option (TraceArchive τ) := do
  guard ((rows.length : Int) = p.eventCount ∧ completePrefix p p.firstSeq rows)
  let encoded := Value.arr (rows.map (StoredTraceEvent.dump c))
  let digest ← c.canonicalSha256 encoded
  guard (digest = p.eventsSha256)
  let found ← (collectArtifactRefs encoded .empty).toOption
  let refs ← namedRefs found
  let hashes ← namedHashes found
  some ⟨p, rows, refs, hashes⟩

def TraceArchive.members (a : TraceArchive τ) : List (String × Value) :=
  [("schema_version", .int 1)] ++ a.range.dump ++
    [("events", .arr (a.events.map (StoredTraceEvent.dump c))), ("artifact_refs", .obj a.artifactRefs),
      ("artifact_hashes", .arr (a.artifactHashes.map .str))]

/-- The document that is written. -/
def TraceArchive.document (a : TraceArchive τ) : Value := .obj (a.members c)

/-- The archive that `build_trace_archive` encodes. -/
def archiveOf (p : TracePrefix) (events : List (StoredTraceEvent τ)) : Option (TraceArchive τ) := do
  let p ← p.validate
  let rows ← events.mapM StoredTraceEvent.validate
  archiveRows c p rows

/-- `build_trace_archive` -/
def buildTraceArchive (p : TracePrefix) (events : List (StoredTraceEvent τ)) : Option β := do
  let archive ← archiveOf c p events
  c.dumps (archive.document c)

/-- `build_trace_archive`, called with the events of a parsed document. -/
def rebuildTraceArchive (p : TracePrefix) (events : Value) : Option β := do
  let p ← p.validate
  let items ← events.items?
  let rows ← items.mapM (StoredTraceEvent.parse c)
  let archive ← archiveRows c p rows
  c.dumps (archive.document c)

/-! ### Decoding -/

/-- `_decode_trace_archive` -/
def decodeTraceArchive [DecidableEq β] (data : β) : Option Value := do
  let body ← c.loads data
  guard (body.get? "schema_version" = some (.int 1))
  let p ← TracePrefix.parse body
  let events ← body.get? "events"
  let rebuilt ← rebuildTraceArchive c p events
  guard (rebuilt = data)
  some body

/-- The archive that a document describes. -/
def contents (body : Value) : Option (TraceArchive τ) := do
  let p ← TracePrefix.parse body
  let items ← (body.get? "events").bind Value.items?
  let rows ← items.mapM (StoredTraceEvent.parse c)
  match body.get? "artifact_refs", body.get? "artifact_hashes" with
  | some (.obj refs), some (.arr hashes) => do
    let hashes ← hashes.mapM Value.str?
    some ⟨p, rows, refs, hashes⟩
  | _, _ => none

/-! ### Validating again changes nothing -/

theorem TracePrefix.validate_eq_some {p q : TracePrefix} :
    p.validate = some q ↔ (nonBlank p.runId ∧ 0 ≤ p.runRevision ∧ nonBlank p.status) ∧
      (0 < p.firstSeq ∧ 0 < p.lastSeq ∧ 0 < p.keepSeq ∧ 0 < p.eventCount) ∧
      ∃ digest, digest? p.eventsSha256 = some digest ∧ (p.firstSeq ≤ p.lastSeq ∧ p.lastSeq < p.keepSeq) ∧
        p.eventCount = p.lastSeq - p.firstSeq + 1 ∧ { p with eventsSha256 := digest } = q := by
  unfold validate
  simp only [Option.bind_eq_bind, Option.bind_eq_some_iff, guard_eq_some_iff, exists_const, Option.some.injEq]

theorem TracePrefix.validate_idem {p q : TracePrefix} (h : p.validate = some q) : q.validate = some q := by
  obtain ⟨texts, positive, digest, hdigest, order, count, rfl⟩ := validate_eq_some.1 h
  exact validate_eq_some.2 ⟨texts, positive, digest, digest?_idem hdigest, order, count, rfl⟩

theorem TracePrefix.parse_eq {body : Value} {p : TracePrefix} (h : ∀ m ∈ p.dump, body.get? m.1 = some m.2) :
    parse body = p.validate := by
  simp only [dump, List.forall_mem_cons] at h
  obtain ⟨h₁, h₂, h₃, h₄, h₅, h₆, h₇, h₈, -⟩ := h
  simp only [parse, h₁, h₂, h₃, h₄, h₅, h₆, h₇, h₈, Option.bind_some, Value.str?, Value.int?]
  rfl

theorem StoredTraceEvent.validate_eq_some {e f : StoredTraceEvent τ} :
    e.validate = some f ↔ (nonBlank e.runId ∧ 0 < e.seq) ∧
      ∃ members, e.payload = .obj members ∧ ∃ payload, e.payload.snapshot = some payload ∧
        { e with payload := payload } = f := by
  unfold validate
  simp only [Option.bind_eq_bind, Option.bind_eq_some_iff, guard_eq_some_iff, exists_const]
  refine and_congr_right (fun _ => ?_)
  cases e.payload <;> simp [Option.bind_eq_some_iff]

theorem snapshot_obj {members : List (String × Value)} {v : Value} (h : (Value.obj members).snapshot = some v) :
    ∃ members', v = .obj members' := by
  unfold Value.snapshot at h
  split at h
  · cases h
    exact ⟨_, rfl⟩
  · cases h

theorem StoredTraceEvent.validate_idem {e f : StoredTraceEvent τ} (h : e.validate = some f) : f.validate = some f := by
  obtain ⟨fields, members, hobj, payload, hsnap, rfl⟩ := validate_eq_some.1 h
  obtain ⟨members', hobj'⟩ := snapshot_obj (hobj ▸ hsnap)
  exact validate_eq_some.2 ⟨fields, members', hobj', payload, Value.snapshot_canon hsnap, rfl⟩

/-- The payload of a validated row is in canonical form. -/
theorem StoredTraceEvent.canon_payload {e f : StoredTraceEvent τ} (h : e.validate = some f) :
    f.payload.canon = f.payload := by
  obtain ⟨fields, members, hobj, payload, hsnap, rfl⟩ := validate_eq_some.1 h
  unfold Value.snapshot at hsnap
  split at hsnap
  · cases hsnap
    exact Value.canon_idem _
  · cases hsnap

theorem StoredTraceEvent.parseTime_dump (t : Option τ) :
    parseTime c ((t.map (fun t => Value.str (c.isoformat t))).getD .null) = some t := by
  cases t with
  | none => rfl
  | some t => exact congrArg (Option.map some) (c.fromisoformat_isoformat t)

theorem StoredTraceEvent.parse_eq {e : StoredTraceEvent τ} {members : List (String × Value)}
    (keys : ∀ m ∈ members, m.1 ∈ ["run_id", "seq", "payload", "stored_at"])
    (h : ∀ m ∈ e.members c, (Value.obj members).get? m.1 = some m.2) : parse c (.obj members) = e.validate := by
  simp only [StoredTraceEvent.members, List.forall_mem_cons] at h
  obtain ⟨hrun, hseq, hpayload, htime, -⟩ := h
  have hkeys : members.all (fun m => m.1 ∈ ["run_id", "seq", "payload", "stored_at"]) = true :=
    List.all_eq_true.2 (fun m hm => decide_eq_true (keys m hm))
  simp only [parse, hkeys, hrun, hseq, hpayload, htime, Option.bind_some, parseTime_dump, Value.str?, Value.int?]
  rfl

theorem StoredTraceEvent.canon_member {e f : StoredTraceEvent τ} (h : e.validate = some f) :
    ∀ m ∈ f.members c, m.2.canon = m.2 := by
  simp only [StoredTraceEvent.members, List.forall_mem_cons]
  refine ⟨rfl, rfl, canon_payload h, ?_, fun _ h => by cases h⟩
  cases f.storedAt <;> rfl

/-- A validated row is read back from its canonical form. -/
theorem StoredTraceEvent.parse_dump {e f : StoredTraceEvent τ} (h : e.validate = some f) :
    parse c (f.dump c).canon = some f := by
  have nodup : ((f.members c).map Prod.fst).Nodup := by
    show ["run_id", "seq", "payload", "stored_at"].Nodup
    decide
  rw [← validate_idem h]
  refine parse_eq c (fun m hm => ?_) (fun m hm => ?_)
  · rw [(Value.sortMembers_perm _).mem_iff, Value.canonMembers_eq, List.mem_map] at hm
    obtain ⟨m', hm', rfl⟩ := hm
    exact List.mem_map_of_mem (f := Prod.fst) hm'
  · obtain ⟨key, v⟩ := m
    have hget : (Value.canon (.obj (f.members c))).get? key = some v.canon := Value.get?_canon_of_mem nodup hm
    rwa [canon_member c h _ hm] at hget

/-- So is a list of them. -/
theorem parse_rows {events rows : List (StoredTraceEvent τ)} (h : events.mapM StoredTraceEvent.validate = some rows) :
    (Value.canonItems (rows.map (StoredTraceEvent.dump c))).mapM (StoredTraceEvent.parse c) = some rows := by
  induction events generalizing rows with
  | nil =>
    cases h
    rfl
  | cons e rest ih =>
    simp only [List.mapM_cons, Option.bind_eq_bind, Option.bind_eq_some_iff, Option.pure_def, Option.some.injEq] at h
    obtain ⟨row, hrow, rows', hrows', rfl⟩ := h
    rw [List.map_cons, Value.canonItems, List.mapM_cons, StoredTraceEvent.parse_dump c hrow, ih hrows']
    rfl

/-! ### The document -/

/-- A member of the document, in the canonical form of the document. -/
theorem get?_document {a : TraceArchive τ} {key : String} {v : Value} (h : (key, v) ∈ a.members c) :
    (a.document c).canon.get? key = some v.canon := by
  have nodup : ((a.members c).map Prod.fst).Nodup := by
    show ["schema_version", "run_id", "run_revision", "status", "first_seq", "last_seq", "keep_seq", "event_count",
      "events_sha256", "events", "artifact_refs", "artifact_hashes"].Nodup
    decide
  exact Value.get?_canon_of_mem nodup h

theorem TracePrefix.canon_dump (p : TracePrefix) : ∀ m ∈ p.dump, m.2.canon = m.2 := by
  simp only [dump, List.forall_mem_cons]
  exact ⟨rfl, rfl, rfl, rfl, rfl, rfl, rfl, rfl, fun _ h => by cases h⟩

theorem parse_document {a : TraceArchive τ} (h : a.range.validate = some a.range) :
    TracePrefix.parse (a.document c).canon = some a.range := by
  rw [← h]
  refine TracePrefix.parse_eq (fun m hm => ?_)
  obtain ⟨key, v⟩ := m
  have mem : (key, v) ∈ a.members c := List.mem_append_left _ (List.mem_append_right _ hm)
  have hget : (a.document c).canon.get? key = some v.canon := get?_document c mem
  rwa [a.range.canon_dump _ hm] at hget

theorem get?_events (a : TraceArchive τ) :
    (a.document c).canon.get? "events" =
      some (.arr (Value.canonItems (a.events.map (StoredTraceEvent.dump c)))) :=
  get?_document c (List.mem_append_right _ (List.mem_cons_self ..))

/-- What is written of the references is in canonical form. -/
theorem canon_namedRefs {found : References} {refs : List (String × Value)} (h : namedRefs found = some refs) :
    Value.sortMembers (Value.canonMembers refs) = refs := by
  simp only [namedRefs, Option.bind_eq_bind, Option.bind_eq_some_iff, Option.some.injEq] at h
  obtain ⟨named, hnamed, rfl⟩ := h
  have scalar : ∀ m ∈ Value.sortMembers named, (m.1, m.2.canon) = m := by
    intro m hm
    rw [(Value.sortMembers_perm named).mem_iff] at hm
    obtain ⟨⟨id, digest⟩, -, hrow⟩ := source_of_mapM hnamed hm
    cases digest with
    | none =>
      cases hrow
      rfl
    | some digest =>
      obtain ⟨d, -, rfl⟩ := Option.map_eq_some_iff.1 hrow
      rfl
  rw [Value.canonMembers_eq, List.map_congr_left scalar, List.map_id', Value.sortMembers_idem]

theorem canonItems_str (texts : List String) : Value.canonItems (texts.map .str) = texts.map .str := by
  rw [Value.canonItems_eq, List.map_map]
  rfl

theorem mapM_str? (texts : List String) : (texts.map Value.str).mapM Value.str? = some texts := by
  rw [mapM_eq_some_iff, List.forall₂_map_left_iff]
  exact List.forall₂_same.2 (fun _ _ => rfl)

/-- What validated rows are archived as. -/
theorem archiveRows_eq_some {p : TracePrefix} {rows : List (StoredTraceEvent τ)} {a : TraceArchive τ}
    (h : archiveRows c p rows = some a) :
    a.range = p ∧ a.events = rows ∧ ∃ found, collectArtifactRefs (.arr (rows.map (StoredTraceEvent.dump c))) .empty =
      .ok found ∧ namedRefs found = some a.artifactRefs ∧ namedHashes found = some a.artifactHashes := by
  simp only [archiveRows, Option.bind_eq_bind, Option.bind_eq_some_iff, guard_eq_some_iff, exists_const,
    Option.some.injEq] at h
  obtain ⟨-, -, -, -, found, hfound, refs, hrefs, hashes, hhashes, rfl⟩ := h
  refine ⟨rfl, rfl, found, ?_, hrefs, hhashes⟩
  cases hcollect : collectArtifactRefs (.arr (rows.map (StoredTraceEvent.dump c))) .empty with
  | error e =>
    rw [hcollect] at hfound
    cases hfound
  | ok r =>
    rw [hcollect] at hfound
    cases hfound
    rfl

/-- An archive of validated rows is read back from its canonical document. -/
theorem contents_document {p : TracePrefix} {events : List (StoredTraceEvent τ)} {a : TraceArchive τ}
    (h : archiveOf c p events = some a) : contents c (a.document c).canon = some a := by
  simp only [archiveOf, Option.bind_eq_bind, Option.bind_eq_some_iff] at h
  obtain ⟨q, hq, rows, hrows, ha⟩ := h
  obtain ⟨hrange, hevents, found, -, hrefs, hhashes⟩ := archiveRows_eq_some c ha
  have hparse := parse_document c (a := a) (hrange ▸ TracePrefix.validate_idem hq)
  have hread := parse_rows c hrows
  have hget : (a.document c).canon.get? "artifact_refs" = some (.obj a.artifactRefs) := by
    rw [get?_document c (List.mem_append_right _ (List.mem_cons_of_mem _ (List.mem_cons_self ..)))]
    exact congrArg (fun m => some (Value.obj m)) (canon_namedRefs hrefs)
  have hget' : (a.document c).canon.get? "artifact_hashes" = some (.arr (a.artifactHashes.map .str)) := by
    rw [get?_document c (List.mem_append_right _ (List.mem_cons_of_mem _ (List.mem_cons_of_mem _ (List.mem_cons_self ..))))]
    exact congrArg (fun m => some (Value.arr m)) (canonItems_str a.artifactHashes)
  rw [← hevents] at hread
  simp only [contents, hparse, get?_events, hget, hget', Value.items?, hread, mapM_str?, Option.bind_eq_bind,
    Option.bind_some]

/-- The bytes of an archive are decoded to its canonical document. -/
theorem decode_document [DecidableEq β] {p : TracePrefix} {events : List (StoredTraceEvent τ)} {a : TraceArchive τ}
    {data : β} (h : archiveOf c p events = some a) (hdata : c.dumps (a.document c) = some data) :
    decodeTraceArchive c data = some (a.document c).canon := by
  simp only [archiveOf, Option.bind_eq_bind, Option.bind_eq_some_iff] at h
  obtain ⟨q, hq, rows, hrows, ha⟩ := h
  obtain ⟨hrange, hevents, -⟩ := archiveRows_eq_some c ha
  have hvalid : a.range.validate = some a.range := hrange ▸ TracePrefix.validate_idem hq
  have hversion : (a.document c).canon.get? "schema_version" = some (.int 1) :=
    get?_document c (List.mem_append_left _ (List.mem_append_left _ (List.mem_cons_self ..)))
  have hread := parse_rows c hrows
  rw [← hevents] at hread
  rw [← hrange, ← hevents] at ha
  have hrebuilt : rebuildTraceArchive c a.range (.arr (Value.canonItems (a.events.map (StoredTraceEvent.dump c)))) =
      some data := by
    simp only [rebuildTraceArchive, hvalid, Value.items?, hread, ha, hdata, Option.bind_eq_bind, Option.bind_some]
  simp only [decodeTraceArchive, c.loads_dumps _ _ hdata, hversion, parse_document c hvalid, get?_events, hrebuilt,
    Option.bind_eq_bind, Option.bind_some]
  rfl

/-- What the parser accepts as a row is validated. -/
theorem StoredTraceEvent.validate_of_parse {v : Value} {e : StoredTraceEvent τ} (h : parse c v = some e) :
    e.validate = some e := by
  unfold parse at h
  split at h
  · simp only [Option.bind_eq_bind, Option.bind_eq_some_iff] at h
    obtain ⟨_, _, _, _, _, _, _, _, _, _, h⟩ := h
    exact validate_idem h
  · cases h

/-- Bytes that are accepted are the encoding of what they hold. -/
theorem build_of_decode [DecidableEq β] {data : β} {body : Value} (h : decodeTraceArchive c data = some body) :
    ∃ a, contents c body = some a ∧ buildTraceArchive c a.range a.events = some data := by
  simp only [decodeTraceArchive, rebuildTraceArchive, Option.bind_eq_bind, Option.bind_eq_some_iff, guard_eq_some_iff,
    exists_const, Option.some.injEq] at h
  obtain ⟨body', hloads, -, p, -, events, -, rebuilt, ⟨q, hq, items, -, rows, hrows, a, ha, hdumps⟩, rfl, rfl⟩ := h
  obtain ⟨hrange, hevents, -⟩ := archiveRows_eq_some c ha
  have hvalid : rows.mapM StoredTraceEvent.validate = some rows := by
    rw [mapM_eq_some_iff, List.forall₂_same]
    intro row hrow
    obtain ⟨v, -, hv⟩ := source_of_mapM hrows hrow
    exact StoredTraceEvent.validate_of_parse c hv
  have harchive : archiveOf c a.range a.events = some a := by
    simp only [archiveOf, hrange, hevents, TracePrefix.validate_idem hq, hvalid, ha, Option.bind_eq_bind, Option.bind_some]
  have hbody : body' = (a.document c).canon := Option.some_inj.1 (hloads.symm.trans (c.loads_dumps _ _ hdumps))
  refine ⟨a, hbody ▸ contents_document c harchive, ?_⟩
  simp only [buildTraceArchive, harchive, hdumps, Option.bind_eq_bind, Option.bind_some]

/-- What is built is decoded to the validated rows. -/
theorem decode_of_build [DecidableEq β] {p : TracePrefix} {events : List (StoredTraceEvent τ)} {data : β}
    (h : buildTraceArchive c p events = some data) :
    ∃ a body, archiveOf c p events = some a ∧ p.validate = some a.range ∧
      events.mapM StoredTraceEvent.validate = some a.events ∧
      decodeTraceArchive c data = some body ∧ contents c body = some a := by
  simp only [buildTraceArchive, Option.bind_eq_bind, Option.bind_eq_some_iff] at h
  obtain ⟨a, ha, hdata⟩ := h
  have hfields := ha
  simp only [archiveOf, Option.bind_eq_bind, Option.bind_eq_some_iff] at hfields
  obtain ⟨q, hq, rows, hrows, harchive⟩ := hfields
  obtain ⟨hrange, hevents, -⟩ := archiveRows_eq_some c harchive
  exact ⟨a, _, ha, hrange ▸ hq, hevents ▸ hrows, decode_document c ha hdata, contents_document c ha⟩

end Format

/-- What is archived is read back; what is accepted is, byte for byte, the archive of what it
holds, so two different byte strings never hold the same archive. -/
theorem archive_round_trip {β τ : Type} [DecidableEq β] (c : Codec β τ) :
    (∀ p events data, buildTraceArchive c p events = some data →
      ∃ a body, archiveOf c p events = some a ∧ p.validate = some a.range ∧
        events.mapM StoredTraceEvent.validate = some a.events ∧
        decodeTraceArchive c data = some body ∧ contents c body = some a) ∧
    (∀ data body, decodeTraceArchive c data = some body →
      ∃ a, contents c body = some a ∧ buildTraceArchive c a.range a.events = some data) ∧
    (∀ data data' body body', decodeTraceArchive c data = some body → decodeTraceArchive c data' = some body' →
      contents c body = contents c body' → data = data') := by
  refine ⟨fun p events data h => decode_of_build c h, fun data body h => build_of_decode c h,
    fun data data' body body' h h' same => ?_⟩
  obtain ⟨a, ha, hdata⟩ := build_of_decode c h
  obtain ⟨a', ha', hdata'⟩ := build_of_decode c h'
  rw [ha, ha'] at same
  cases same
  exact Option.some_inj.1 (hdata.symm.trans hdata')

/-! ### A codec to run the format with

Canonical bytes are given by the value they encode, digests by a list, and there are three times. -/

def sampleTimes : List String := ["2024-01-01T00:00:00Z", "2024-02-01T00:00:00Z", "2024-03-01T00:00:00Z"]

def sampleCodec (digests : List (Value × String)) : Codec Value (Fin 3) where
  dumps v := if v.finite then some v.canon else none
  loads b := some b
  sha256 b := ((digests.find? (fun d => d.1 = b)).map (·.2)).getD ""
  size _ := 1
  isoformat t := sampleTimes.getD t ""
  fromisoformat s := [0, 1, 2].find? (fun t : Fin 3 => sampleTimes.getD t "" = s)
  loads_dumps v b h := by
    split at h
    · cases h
      rfl
    · cases h
  fromisoformat_isoformat := by decide

/-- The row of an event. -/
def noteEvent : StoredTraceEvent (Fin 3) :=
  ⟨"r1", 1, .obj [("run_id", .str "r1"), ("seq", .int 1), ("type", .str "note")], some 0⟩

def noteRange : TracePrefix :=
  ⟨"r1", 1, "completed", 1, 1, 2, 1, "sha256:95830e2741164a104878a4c1ccfbd0890a1013f59837d8b725c9203a671edf17"⟩

def noteCodec : Codec Value (Fin 3) :=
  sampleCodec [(.arr [.obj [("payload", noteEvent.payload), ("run_id", .str "r1"), ("seq", .int 1),
    ("stored_at", .str "2024-01-01T00:00:00Z")]], "95830e2741164a104878a4c1ccfbd0890a1013f59837d8b725c9203a671edf17")]

end Motte.Trace
