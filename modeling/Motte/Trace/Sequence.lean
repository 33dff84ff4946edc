import Motte.Foundation.Run
import Motte.Trace.Commit

/-! The numbers of the events of a run.

An event gets the number after the highest live one. Retention deletes rows from the
front and leaves the last one, so a number is never given out twice: the ranges of
the receipts and the live rows together are the numbers given out so far, in order,
and an archive holds the rows that were appended under its numbers. A log beside the
store keeps what was appended; no operation reads it. -/
namespace Motte.Trace
open Foundation

section Log
variable {β τ : Type}

/-! ### Appending and reading -/

/-- `{**event, "seq": seq}`, written with sorted keys and read back -/
def storedPayload (event : List (String × Value)) (seq : Int) : Value :=
  Value.canon (.obj (event.filter (fun m => m.1 ≠ "seq") ++ [("seq", .int seq)]))

/-- `SELECT COALESCE(MAX(seq), 0) + 1 FROM trace_events WHERE run_id = ?` -/
def nextSeq (s : TraceStore β τ) (runId : String) : Int :=
  (((s.events.filter (fun row => row.runId = runId)).map (·.seq)).max?).getD 0 + 1

/-- The row that `_append_event` inserts; an event without a run is refused. -/
def appendedRow (event : List (String × Value)) (now : τ) (s : TraceStore β τ) : Option (StoredTraceEvent τ) := do
  let runId ← ((Value.obj event).get? "run_id").bind Value.str?
  some ⟨runId, nextSeq s runId, storedPayload event (nextSeq s runId), some now⟩

/-- The receipts of a run, in the order of the table. -/
def TraceStore.receiptsOf (s : TraceStore β τ) (runId : String) : List (TraceArchiveReceipt τ) :=
  s.receipts.filter (fun r => r.range.runId = runId)

/-- `SELECT COALESCE(MAX(last_seq), 0) FROM trace_archive_receipts WHERE run_id = ?` -/
def trimmedThrough (s : TraceStore β τ) (runId : String) : Int :=
  (((s.receiptsOf runId).map (·.range.lastSeq)).max?).getD 0

/-- The integers that SQLite takes as a parameter. -/
def fitsInt64 (n : Int) : Bool := -2 ^ 63 ≤ n ∧ n < 2 ^ 63

/-- An item of `events: list[dict[str, Any]]` -/
def windowEvent (v : Value) : Option Value :=
  match v with
  | .obj _ => v.snapshot
  | _ => none

/-- `visible_sequences_follow_trim_boundary` -/
def follows : Int → List Value → Bool
  | _, [] => true
  | previous, event :: rest =>
    match event.get? "seq" with
    | some (.int seq) => previous < seq ∧ follows seq rest
    | _ => false

structure TraceEventWindow where
  events : List Value
  trimmedThrough : Int

/-- `read_window`; none where it raises. -/
def readWindow (s : TraceStore β τ) (runId : String) (after : Int) : Option TraceEventWindow := do
  guard (fitsInt64 after)
  let events ← ((s.rowsOf runId).filter (fun row => after < row.seq)).mapM (fun row => windowEvent row.payload)
  guard (0 ≤ trimmedThrough s runId ∧ follows (trimmedThrough s runId) events)
  some ⟨events, trimmedThrough s runId⟩

/-! ### Applying a plan -/

/-- A value, or an exception. -/
def orRaise {σ α : Type} (x : Option α) : Op σ Unit α := Op.lift (x.elim (.error ()) .ok)

variable [LinearOrder τ] [DecidableEq β] (c : Codec β τ)

/-- The receipt of an archive that was written. -/
def receiptOf (plan : TraceRetentionPlan τ) (range : TracePrefix) (rows : List (StoredTraceEvent τ)) (data : β) :
    Option (TraceArchiveReceipt τ) := do
  let archive ← (c.loads data).bind (contents c)
  let document ← extractReferenceDocument (rows.map (fun row => (row.payload, some range.runId)))
  let receipt : TraceArchiveReceipt τ := ⟨"trace-archive-" ++ c.sha256 data, plan.planId, range,
    traceArchiveArtifactId c data, "sha256:" ++ c.sha256 data, c.size data, plan.cutoff, archive.artifactRefs,
    archive.artifactHashes, none, some document⟩
  guard receipt.valid
  some receipt

/-- One range of the loop in `apply_trace_retention`: the archive is written, its receipt is checked. -/
def stageArchive (plan : TraceRetentionPlan τ) (range : TracePrefix) : Op (TraceStore β τ) Unit (TraceArchiveReceipt τ) := do
  let stored ← Op.gets (·.storedForRun range.runId)
  let rows ← orRaise (stored.map (·.filter (fun row => range.firstSeq ≤ row.seq ∧ row.seq ≤ range.lastSeq)))
  let data ← orRaise (buildTraceArchive c range rows)
  let written ← Op.gets (putTraceArchive c data)
  let written ← orRaise written
  Op.modify (fun _ => written)
  let receipt ← orRaise (receiptOf c plan range rows data)
  orRaise (guard (verifyTraceArchive c data receipt))
  pure receipt

def stageArchives (plan : TraceRetentionPlan τ) :
    List TracePrefix → Op (TraceStore β τ) Unit (List (TraceArchiveReceipt τ))
  | [] => pure []
  | range :: rest => do
    let receipt ← stageArchive c plan range
    let receipts ← stageArchives plan rest
    pure (receipt :: receipts)

/-- `_replay_receipts`: a plan that was committed before is only checked. -/
def replayReceipts (plan : TraceRetentionPlan τ) (s : TraceStore β τ) (receipts : List (TraceArchiveReceipt τ)) : Bool :=
  receipts.map (·.range) = plan.prefixes ∧ receipts.all fun r => r.cutoff = plan.cutoff ∧
    (s.files.get r.artifactId).any (fun data => verifyTraceArchive c data r) ∧
    (s.storedForRun r.range.runId).any fun rows =>
      rows.any (fun row => r.range.keepSeq ≤ row.seq) ∧ rows.all (fun row => r.range.lastSeq < row.seq)

/-- `apply_trace_retention`: the receipts of the plan and how many events were trimmed. -/
def applyTraceRetention (storeIdentity : String) (plan : TraceRetentionPlan τ) (config : RetentionConfig)
    (latest stamp : τ) : Op (TraceStore β τ) Unit (List (TraceArchiveReceipt τ) × Int) := do
  orRaise (guard (config.enabled ∧ plan.config = config ∧ plan.storeIdentity = storeIdentity ∧ plan.cutoff ≤ latest))
  let existing ← Op.gets checkedTraceReceipts
  let existing ← orRaise existing
  let matching := existing.filter (fun r => r.planId = plan.planId)
  if matching ≠ [] then do
    let same ← Op.gets (fun s => replayReceipts c plan s matching)
    orRaise (guard same)
    pure (matching, 0)
  else do
    let verified ← Op.gets (verifyTraceArchives c)
    let current ← Op.gets (fun s => planAtCutoff c storeIdentity s config plan.cutoff)
    orRaise (guard (verified ∧ current = some plan))
    let receipts ← stageArchives c plan plan.prefixes
    let committed ← Op.gets (commitTraceRetention c storeIdentity plan receipts latest stamp)
    let committed ← orRaise committed
    Op.modify (fun _ => committed)
    pure (receipts.map (·.stamped stamp), (receipts.map (·.range.eventCount)).sum)

/-! ### Runs -/

/-- A store with what was appended to it. -/
structure TraceLog (β τ : Type) where
  store : TraceStore β τ
  appended : List (StoredTraceEvent τ)

/-- What may happen to a store. The plan that is applied is any plan, made at any time. -/
inductive TraceRequest (β τ : Type) where
  | append (event : List (String × Value)) (now : τ)
  | apply (plan : TraceRetentionPlan τ) (config : RetentionConfig) (latest stamp : τ)
  /-- an application that stopped after it had written an archive -/
  | stage (data : β)
  /-- the other tables become those of another store -/
  | change (other : TraceStore β τ)

/-- The store after one request; one that raises leaves what was written before. -/
def TraceLog.serve (storeIdentity : String) : TraceRequest β τ → TraceLog β τ → TraceLog β τ
  | .append event now, l =>
    match appendedRow event now l.store with
    | none => l
    | some row => ⟨{ l.store with events := l.store.events ++ [row] }, l.appended ++ [row]⟩
  | .apply plan config latest stamp, l =>
    ⟨(applyTraceRetention c storeIdentity plan config latest stamp l.store).2, l.appended⟩
  | .stage data, l => ⟨(putTraceArchive c data l.store).getD l.store, l.appended⟩
  | .change other, l =>
    ⟨{ other with events := l.store.events, receipts := l.store.receipts, files := l.store.files }, l.appended⟩

/-- What was appended to a run. -/
def TraceLog.appendedTo (l : TraceLog β τ) (runId : String) : List (StoredTraceEvent τ) :=
  l.appended.filter (fun row => row.runId = runId)

/-! ### What is written -/

/-- A payload as an append writes it. -/
structure Written (row : StoredTraceEvent τ) : Prop where
  canonical : row.payload.canon = row.payload
  isObject : ∃ members, row.payload = .obj members
  carries : row.payload.get? "seq" = some (.int row.seq)

omit [LinearOrder τ] [DecidableEq β] in
theorem appendedRow_written {event : List (String × Value)} {now : τ} {s : TraceStore β τ} {row : StoredTraceEvent τ}
    (h : appendedRow event now s = some row) : Written row ∧ row.seq = nextSeq s row.runId := by
  simp only [appendedRow, Option.bind_eq_bind, Option.bind_eq_some_iff, Option.some.injEq] at h
  obtain ⟨runId, -, rfl⟩ := h
  refine ⟨⟨Value.canon_idem _, ⟨_, rfl⟩, Value.lookup_of_unique ?_ ?_⟩, rfl⟩
  · rw [(Value.sortMembers_perm _).mem_iff, Value.canonMembers_eq, List.map_append]
    exact List.mem_append_right _ (List.mem_singleton_self _)
  · intro m hm hkey
    rw [(Value.sortMembers_perm _).mem_iff, Value.canonMembers_eq, List.mem_map] at hm
    obtain ⟨m, hm, rfl⟩ := hm
    rcases List.mem_append.1 hm with hm | hm
    · exact absurd hkey (of_decide_eq_true (List.mem_filter.1 hm).2)
    · rw [List.mem_singleton.1 hm]
      rfl

/-! ### The books of a run -/

/-- The first `archived` rows of a run are in archives, the others are live. -/
structure Accounted (l : TraceLog β τ) (runId : String) (archived : Nat) : Prop where
  numbered : Numbered (·.seq) 1 (l.appendedTo runId)
  live : l.store.events.filter (fun row => row.runId = runId) = (l.appendedTo runId).drop archived
  kept : archived = 0 ∨ archived < (l.appendedTo runId).length
  chained : Chained (·.range.firstSeq) (·.range.lastSeq) 0 (l.store.receiptsOf runId) archived
  held : ∀ r ∈ l.store.receiptsOf runId, ∃ data body a, l.store.files.get r.artifactId = some data ∧
    decodeTraceArchive c data = some body ∧ contents c body = some a ∧
    a.events = (l.appendedTo runId).filter (fun row => r.range.firstSeq ≤ row.seq ∧ row.seq ≤ r.range.lastSeq)

/-- The invariant of every run of requests. -/
structure Books (l : TraceLog β τ) : Prop where
  written : ∀ row ∈ l.appended, Written row
  accounted : ∀ runId, ∃ archived, Accounted c l runId archived

variable {c} {l : TraceLog β τ} {runId : String} {archived : Nat}

omit [LinearOrder τ] in
theorem Accounted.bound (h : Accounted c l runId archived) : archived ≤ (l.appendedTo runId).length := by
  have := h.kept
  omega

omit [LinearOrder τ] in
theorem Accounted.numberedLive (h : Accounted c l runId archived) :
    Numbered (·.seq) (1 + archived) ((l.appendedTo runId).drop archived) := h.numbered.drop h.bound

omit [LinearOrder τ] in
/-- The live rows are read in the order in which they were appended. -/
theorem Accounted.rowsOf (h : Accounted c l runId archived) :
    l.store.rowsOf runId = (l.appendedTo runId).drop archived := by
  rw [TraceStore.rowsOf, h.live]
  exact h.numberedLive.insertionSort

omit [LinearOrder τ] in
theorem Accounted.nextSeq (h : Accounted c l runId archived) :
    nextSeq l.store runId = (l.appendedTo runId).length + 1 := by
  have hbound := h.bound
  rw [Trace.nextSeq, h.live]
  by_cases hnil : (l.appendedTo runId).drop archived = []
  · have hlength := List.drop_eq_nil_iff.1 hnil
    have hkept := h.kept
    have hzero : (l.appendedTo runId).length = 0 := by omega
    rw [hnil, hzero]
    rfl
  · rw [h.numberedLive.max? hnil, List.length_drop, Option.getD_some]
    omega

omit [LinearOrder τ] in
theorem Accounted.trimmedThrough (h : Accounted c l runId archived) : trimmedThrough l.store runId = archived := by
  rw [Trace.trimmedThrough]
  by_cases hnil : l.store.receiptsOf runId = []
  · have hchained := h.chained
    rw [hnil] at hchained ⊢
    exact hchained
  · rw [h.chained.max? hnil, Option.getD_some]

/-! ### Requests that trim nothing -/

omit [LinearOrder τ] in
theorem Books.append (h : Books c l) {event : List (String × Value)} {now : τ} {row : StoredTraceEvent τ}
    (hrow : appendedRow event now l.store = some row) :
    Books c ⟨{ l.store with events := l.store.events ++ [row] }, l.appended ++ [row]⟩ := by
  obtain ⟨hwritten, hseq⟩ := appendedRow_written hrow
  refine ⟨fun row' hmem => ?_, fun runId => ?_⟩
  · rcases List.mem_append.1 hmem with hmem | hmem
    · exact h.written row' hmem
    · exact List.mem_singleton.1 hmem ▸ hwritten
  · obtain ⟨archived, hbooks⟩ := h.accounted runId
    refine ⟨archived, ?_⟩
    have hbound := hbooks.bound
    have happended : TraceLog.appendedTo ⟨{ l.store with events := l.store.events ++ [row] }, l.appended ++ [row]⟩ runId =
        l.appendedTo runId ++ [row].filter (fun row => row.runId = runId) := List.filter_append ..
    by_cases hrun : row.runId = runId
    · subst hrun
      have hone : [row].filter (fun row' => row'.runId = row.runId) = [row] := by simp
      rw [hone] at happended
      have hnumber : row.seq = 1 + ((l.appendedTo row.runId).length : Int) := by
        rw [hseq, hbooks.nextSeq]
        omega
      refine ⟨?_, ?_, ?_, hbooks.chained, fun r hr => ?_⟩
      · rw [happended, numbered_append]
        exact ⟨hbooks.numbered, hnumber, trivial⟩
      · rw [happended, List.drop_append_of_le_length hbound, ← hbooks.live, ← hone, ← List.filter_append, hone]
      · rw [happended, List.length_append]
        have hkept := hbooks.kept
        omega
      · obtain ⟨data, body, a, hfile, hdecode, hcontents, hevents⟩ := hbooks.held r hr
        refine ⟨data, body, a, hfile, hdecode, hcontents, ?_⟩
        have hlast := (hbooks.chained.mem hr).2.2
        have hout : ¬ (r.range.firstSeq ≤ row.seq ∧ row.seq ≤ r.range.lastSeq) := by omega
        rw [happended, List.filter_append, ← hevents, List.filter_cons_of_neg (by simpa using hout), List.filter_nil,
          List.append_nil]
    · have hnone : [row].filter (fun row => row.runId = runId) = [] := by simp [hrun]
      rw [hnone, List.append_nil] at happended
      refine ⟨happended ▸ hbooks.numbered, ?_, happended ▸ hbooks.kept, hbooks.chained, fun r hr => ?_⟩
      · rw [happended, ← hbooks.live]
        exact (List.filter_append ..).trans (by rw [hnone, List.append_nil])
      · rw [happended]
        exact hbooks.held r hr

omit [LinearOrder τ] in
/-- Only the rows, the receipts and the files matter; the files may grow. -/
theorem Books.of_files (h : Books c l) {t : TraceStore β τ} (events : t.events = l.store.events)
    (receipts : t.receipts = l.store.receipts)
    (files : ∀ id data, l.store.files.get id = some data → t.files.get id = some data) :
    Books c ⟨t, l.appended⟩ := by
  refine ⟨h.written, fun runId => ?_⟩
  obtain ⟨archived, hbooks⟩ := h.accounted runId
  have hreceipts : t.receiptsOf runId = l.store.receiptsOf runId := by
    rw [TraceStore.receiptsOf, receipts]
    rfl
  refine ⟨archived, hbooks.numbered, ?_, hbooks.kept, ?_, fun r hr => ?_⟩
  · rw [events]
    exact hbooks.live
  · rw [hreceipts]
    exact hbooks.chained
  · obtain ⟨data, body, a, hfile, hdecode, hcontents, hevents⟩ := hbooks.held r (hreceipts ▸ hr)
    exact ⟨data, body, a, files _ _ hfile, hdecode, hcontents, hevents⟩

omit [LinearOrder τ] in
theorem Books.put (h : Books c l) {data : β} {t : TraceStore β τ} (hput : putTraceArchive c data l.store = some t) :
    Books c ⟨t, l.appended⟩ := by
  simp only [putTraceArchive, Option.bind_eq_bind, Option.bind_eq_some_iff] at hput
  obtain ⟨-, -, hput⟩ := hput
  split at hput
  · rename_i hnone
    cases hput
    refine h.of_files rfl rfl (fun id data' hget => ?_)
    have hne : id ≠ traceArchiveArtifactId c data := by
      rintro rfl
      rw [hnone] at hget
      cases hget
    exact (Table.get_set_ne _ _ hne).trans hget
  · split at hput
    · cases hput
      exact h
    · cases hput

/-! ### The commit -/

/-- Of a list with distinct keys, the items with the key of an item are that item. -/
theorem filter_key_eq {α : Type} {key : α → String} {items : List α} (nodup : (items.map key).Nodup) {x : α}
    (hx : x ∈ items) : items.filter (fun y => key y = key x) = [x] := by
  induction items with
  | nil => cases hx
  | cons y rest ih =>
    rw [List.map_cons, List.nodup_cons] at nodup
    rcases List.mem_cons.1 hx with rfl | hx
    · have hnone : ∀ z ∈ rest, ¬ decide (key z = key x) = true := by
        intro z hz heq
        exact nodup.1 (of_decide_eq_true heq ▸ List.mem_map_of_mem hz)
      rw [List.filter_cons_of_pos (by simp), List.filter_eq_nil_iff.2 hnone]
    · have hne : ¬ key y = key x := fun heq => nodup.1 (heq ▸ List.mem_map_of_mem hx)
      rw [List.filter_cons_of_neg (by simpa using hne), ih nodup.2 hx]

section Commit
variable {plan : TraceRetentionPlan τ} {receipts : List (TraceArchiveReceipt τ)} {stamp : τ} {t : TraceStore β τ}
  {protection : TraceProtection}

omit [LinearOrder τ] [DecidableEq β] in
theorem receiptsOf_trimmed (s : TraceStore β τ) (runId : String) :
    (trimmed stamp receipts s).receiptsOf runId =
      s.receiptsOf runId ++ (receipts.filter (fun r => r.range.runId = runId)).map (·.stamped stamp) := by
  simp only [TraceStore.receiptsOf, trimmed, List.filter_append, List.filter_map]
  rfl

omit [LinearOrder τ] [DecidableEq β] in
/-- A run that no receipt is for keeps its rows. -/
theorem live_untouched {s : TraceStore β τ} {runId : String} (h : receipts.filter (fun r => r.range.runId = runId) = []) :
    (trimmed stamp receipts s).events.filter (fun row => row.runId = runId) =
      s.events.filter (fun row => row.runId = runId) := by
  rw [trimmed, List.filter_filter]
  refine List.filter_congr (fun row _ => ?_)
  by_cases hrun : row.runId = runId
  · have hall : receipts.all (fun r => !inRange r row) = true := by
      refine List.all_eq_true.2 (fun r hr => ?_)
      have hother : ¬ row.runId = r.range.runId := by
        intro heq
        exact absurd (List.filter_eq_nil_iff.1 h r hr) (by simp [← heq, hrun])
      simp [inRange, hother]
    simp [hrun, hall]
  · simp [hrun]

omit [LinearOrder τ] [DecidableEq β] in
/-- A run that one receipt is for keeps the rows outside its range. -/
theorem live_trimmed {s : TraceStore β τ} {r : TraceArchiveReceipt τ} (hr : r ∈ receipts)
    (h : receipts.filter (fun r' => r'.range.runId = r.range.runId) = [r]) :
    (trimmed stamp receipts s).events.filter (fun row => row.runId = r.range.runId) =
      (s.events.filter (fun row => row.runId = r.range.runId)).filter
        (fun row => ¬ (r.range.firstSeq ≤ row.seq ∧ row.seq ≤ r.range.lastSeq)) := by
  rw [trimmed, List.filter_filter, List.filter_filter]
  refine List.filter_congr (fun row _ => ?_)
  by_cases hrun : row.runId = r.range.runId
  · have hall : receipts.all (fun r' => !inRange r' row) = !inRange r row := by
      rw [Bool.eq_iff_iff, List.all_eq_true]
      refine ⟨fun hall => hall r hr, fun hout r' hr' => ?_⟩
      by_cases hsame : r'.range.runId = r.range.runId
      · have hmem : r' ∈ receipts.filter (fun r' => r'.range.runId = r.range.runId) :=
          List.mem_filter.2 ⟨hr', decide_eq_true hsame⟩
        rw [h, List.mem_singleton] at hmem
        exact hmem ▸ hout
      · have hother : ¬ row.runId = r'.range.runId := fun heq => hsame (heq.symm.trans hrun)
        simp [inRange, hother]
    rw [hall, inRange]
    simp only [hrun, true_and, decide_true, Bool.true_and, Bool.and_true, decide_not]
  · simp [hrun]

omit [LinearOrder τ] in
/-- What is read of the live rows are the rows themselves. -/
theorem Books.storedForRun (h : Books c l) {rows : List (StoredTraceEvent τ)}
    (hread : l.store.storedForRun runId = some rows) (hbooks : Accounted c l runId archived) :
    rows = (l.appendedTo runId).drop archived := by
  rw [← hbooks.rowsOf]
  refine mapM_self hread (fun row hrow e he => ?_)
  rw [hbooks.rowsOf] at hrow
  have hmem : row ∈ l.appended := List.mem_of_mem_filter (List.mem_of_mem_drop hrow)
  exact StoredTraceEvent.validate_self (storedTraceEvent_eq_some.1 he).2 (h.written row hmem).canonical

omit [LinearOrder τ] in
theorem Books.validated (h : Books c l) {rows : List (StoredTraceEvent τ)}
    (hread : (l.store.rowsOf runId).mapM StoredTraceEvent.validate = some rows) (hbooks : Accounted c l runId archived) :
    rows = (l.appendedTo runId).drop archived := by
  rw [← hbooks.rowsOf]
  refine mapM_self hread (fun row hrow e he => ?_)
  rw [hbooks.rowsOf] at hrow
  have hmem : row ∈ l.appended := List.mem_of_mem_filter (List.mem_of_mem_drop hrow)
  exact StoredTraceEvent.validate_self he (h.written row hmem).canonical

/-- A receipt moves the boundary of its run from the rows archived before to the last one it covers. -/
theorem Books.trimmedRun (h : Books c l) (hc : Committed c plan receipts stamp l.store t protection)
    {r : TraceArchiveReceipt τ} (hr : r ∈ receipts) (hbooks : Accounted c l r.range.runId archived) :
    ∃ count, Accounted c ⟨t, l.appended⟩ r.range.runId (archived + count) := by
  obtain ⟨rows, count, hselected⟩ := hc.selected r hr
  have hrows := h.storedForRun hselected.read hbooks
  have hlive := hbooks.numberedLive
  have hone := filter_key_eq hc.once hr
  have hbound := hbooks.bound
  have hleft := hselected.some_left
  have htaken := hselected.some_taken
  rw [hrows, List.length_drop] at hleft
  -- The range starts at the first live row.
  have hfirst : r.range.firstSeq = 1 + archived := by
    have hfront := hselected.numbered
    rw [hrows] at hfront
    cases hdrop : (l.appendedTo r.range.runId).drop archived with
    | nil =>
      have := congrArg List.length hdrop
      rw [List.length_drop, List.length_nil] at this
      omega
    | cons row rest =>
      obtain ⟨n, rfl⟩ : ∃ n, count = n + 1 := ⟨count - 1, by omega⟩
      rw [hdrop, List.take_succ_cons] at hfront
      rw [hdrop] at hlive
      exact hfront.1.symm.trans hlive.1
  have hlast := hselected.last
  have hreceipts : t.receiptsOf r.range.runId = l.store.receiptsOf r.range.runId ++ [r.stamped stamp] := by
    rw [hc.result, receiptsOf_trimmed, hone]
    rfl
  have hshort : archived + count < (l.appendedTo r.range.runId).length := by omega
  refine ⟨count, hbooks.numbered, ?_, .inr hshort, ?_, fun r' hr' => ?_⟩
  · show t.events.filter _ = (l.appendedTo r.range.runId).drop (archived + count)
    rw [hc.result, live_trimmed hr hone, hbooks.live]
    have hrest : ∀ row ∈ (l.appendedTo r.range.runId).drop archived,
        decide (¬ (r.range.firstSeq ≤ row.seq ∧ row.seq ≤ r.range.lastSeq)) = decide (r.range.lastSeq + 1 ≤ row.seq) := by
      intro row hrow
      have := (hlive.mem hrow).1
      rw [decide_eq_decide]
      omega
    have hcount : (r.range.lastSeq + 1 - (1 + archived)).toNat = count := by omega
    rw [List.filter_congr hrest, hlive.filter_ge, hcount, List.drop_drop]
  · show Chained _ _ 0 (t.receiptsOf r.range.runId) _
    rw [hreceipts, chained_append]
    refine ⟨archived, hbooks.chained, ?_, ?_, ?_⟩
    · show r.range.firstSeq = archived + 1
      omega
    · show r.range.firstSeq ≤ r.range.lastSeq
      omega
    · show r.range.lastSeq = ((archived + count : Nat) : Int)
      omega
  · have hfiles : t.files = l.store.files := by rw [hc.result, trimmed]
    show ∃ data body a, t.files.get r'.artifactId = some data ∧ _
    rw [hfiles]
    have hr' : r' ∈ t.receiptsOf r.range.runId := hr'
    rw [hreceipts, List.mem_append, List.mem_singleton] at hr'
    rcases hr' with hold | rfl
    · exact hbooks.held r' hold
    · obtain ⟨data, body, a, rows', hfile, hdecode, hcontents, hread, hevents, -⟩ :=
        unchangedRows_archived c (hc.unchanged r hr)
      refine ⟨data, body, a, hfile, hdecode, hcontents, ?_⟩
      rw [hevents, h.validated hread hbooks]
      show _ = (l.appendedTo r.range.runId).filter
        (fun row => decide (r.range.firstSeq ≤ row.seq ∧ row.seq ≤ r.range.lastSeq))
      -- What was archived before lies below the range.
      have hbelow : ((l.appendedTo r.range.runId).take archived).filter
          (fun row => r.range.firstSeq ≤ row.seq ∧ row.seq ≤ r.range.lastSeq) = [] := by
        refine List.filter_eq_nil_iff.2 (fun row hrow hin => ?_)
        have hfront := ((hbooks.numbered.take archived).mem hrow).2
        rw [List.length_take_of_le hbound] at hfront
        have := (of_decide_eq_true hin).1
        omega
      conv_rhs => rw [← List.take_append_drop archived (l.appendedTo r.range.runId)]
      rw [List.filter_append, hbelow, List.nil_append]

theorem Books.commit (h : Books c l) (hc : Committed c plan receipts stamp l.store t protection) :
    Books c ⟨t, l.appended⟩ := by
  refine ⟨h.written, fun runId => ?_⟩
  obtain ⟨archived, hbooks⟩ := h.accounted runId
  cases hmine : receipts.filter (fun r => r.range.runId = runId) with
  | nil =>
    refine ⟨archived, hbooks.numbered, ?_, hbooks.kept, ?_, ?_⟩
    · show t.events.filter _ = _
      rw [hc.result, live_untouched hmine]
      exact hbooks.live
    · show Chained _ _ 0 (t.receiptsOf runId) _
      rw [hc.result, receiptsOf_trimmed, hmine, List.map_nil, List.append_nil]
      exact hbooks.chained
    · show ∀ r ∈ t.receiptsOf runId, _
      rw [hc.result, receiptsOf_trimmed, hmine, List.map_nil, List.append_nil]
      exact hbooks.held
  | cons r rest =>
    have hmem : r ∈ receipts.filter (fun r => r.range.runId = runId) := hmine ▸ List.mem_cons_self ..
    obtain ⟨hr, hrun⟩ := List.mem_filter.1 hmem
    obtain rfl : r.range.runId = runId := of_decide_eq_true hrun
    obtain ⟨count, htrimmed⟩ := h.trimmedRun hc hr hbooks
    exact ⟨archived + count, htrimmed⟩

end Commit

/-! ### Applications -/

@[simp] theorem wp_orRaise {σ α : Type} {x : Option α} {s : σ} {ok : α → σ → Prop} {err : Unit → σ → Prop} :
    Op.wp (orRaise x) s ok err ↔ (∀ a, x = some a → ok a s) ∧ (x = none → err () s) := by
  cases x with
  | none => simp [orRaise, Unique.forall_iff]
  | some a => simp [orRaise]

variable {s : TraceStore β τ} {log : List (StoredTraceEvent τ)}

theorem stageArchive_books (h : Books c ⟨s, log⟩) (plan : TraceRetentionPlan τ) (range : TracePrefix) :
    (stageArchive c plan range).wp s (fun _ t => Books c ⟨t, log⟩) (fun _ t => Books c ⟨t, log⟩) := by
  simp only [stageArchive, Op.wp_bind, Op.wp_gets, wp_orRaise, Op.wp_modify, Op.wp_pure]
  refine ⟨fun rows _ => ⟨fun data _ => ⟨fun written hput => ?_, fun _ => h⟩, fun _ => h⟩, fun _ => h⟩
  have hwritten := h.put hput
  exact ⟨fun _ _ => ⟨fun _ _ => hwritten, fun _ => hwritten⟩, fun _ => hwritten⟩

theorem stageArchives_books (h : Books c ⟨s, log⟩) (plan : TraceRetentionPlan τ) (ranges : List TracePrefix) :
    (stageArchives c plan ranges).wp s (fun _ t => Books c ⟨t, log⟩) (fun _ t => Books c ⟨t, log⟩) := by
  induction ranges generalizing s with
  | nil => exact h
  | cons range rest ih =>
    simp only [stageArchives, Op.wp_bind, Op.wp_pure]
    exact Op.wp_mono (stageArchive_books h plan range) (fun _ t ht => ih ht) (fun _ _ ht => ht)

/-- An application keeps the books, whether it commits, replays or raises. -/
theorem applyTraceRetention_books (h : Books c ⟨s, log⟩) (storeIdentity : String) (plan : TraceRetentionPlan τ)
    (config : RetentionConfig) (latest stamp : τ) :
    Books c ⟨(applyTraceRetention c storeIdentity plan config latest stamp s).2, log⟩ := by
  refine Op.wp_state (Q := fun t => Books c ⟨t, log⟩) ?_
  simp only [applyTraceRetention, Op.wp_bind, Op.wp_gets, wp_orRaise]
  refine ⟨fun _ _ => ⟨fun existing _ => ?_, fun _ => h⟩, fun _ => h⟩
  split
  · simp only [Op.wp_bind, Op.wp_gets, wp_orRaise, Op.wp_pure]
    exact ⟨fun _ _ => h, fun _ => h⟩
  · simp only [Op.wp_bind, Op.wp_gets, wp_orRaise, Op.wp_modify, Op.wp_pure]
    refine ⟨fun _ _ => ?_, fun _ => h⟩
    refine Op.wp_mono (stageArchives_books h plan plan.prefixes) (fun receipts t ht => ?_) (fun _ _ ht => ht)
    refine ⟨fun committed hcommit => ?_, fun _ => ht⟩
    obtain ⟨protection, hcommitted⟩ := commitTraceRetention_eq_some c hcommit
    exact Books.commit ht hcommitted

/-- Staging writes archives, nothing else. -/
theorem stageArchive_files (plan : TraceRetentionPlan τ) (range : TracePrefix) :
    (stageArchive c plan range).wp s (fun _ t => ∃ files, t = { s with files := files }) (fun _ _ => True) := by
  simp only [stageArchive, Op.wp_bind, Op.wp_gets, wp_orRaise, Op.wp_modify, Op.wp_pure, implies_true, and_true]
  intro rows _ data _ written hput _ _ _ _
  simp only [putTraceArchive, Option.bind_eq_bind, Option.bind_eq_some_iff] at hput
  obtain ⟨-, -, hput⟩ := hput
  split at hput
  · cases hput
    exact ⟨_, rfl⟩
  · split at hput
    · cases hput
      exact ⟨s.files, rfl⟩
    · cases hput

theorem stageArchives_files (plan : TraceRetentionPlan τ) (ranges : List TracePrefix) :
    (stageArchives c plan ranges).wp s (fun _ t => ∃ files, t = { s with files := files }) (fun _ _ => True) := by
  induction ranges generalizing s with
  | nil => exact ⟨s.files, rfl⟩
  | cons range rest ih =>
    simp only [stageArchives, Op.wp_bind, Op.wp_pure]
    refine Op.wp_mono (stageArchive_files plan range) (fun _ t ht => ?_) (fun _ _ _ => trivial)
    obtain ⟨files, rfl⟩ := ht
    exact ih

/-- An application that returns has changed nothing, or has committed its receipts after staging. -/
theorem applyTraceRetention_ok {storeIdentity : String} {plan : TraceRetentionPlan τ} {config : RetentionConfig}
    {latest stamp : τ} {done : List (TraceArchiveReceipt τ) × Int} {t : TraceStore β τ}
    (h : applyTraceRetention c storeIdentity plan config latest stamp s = (.ok done, t)) :
    t = s ∨ ∃ receipts files, done.1 = receipts.map (·.stamped stamp) ∧
      commitTraceRetention c storeIdentity plan receipts latest stamp { s with files := files } = some t := by
  suffices (applyTraceRetention c storeIdentity plan config latest stamp).wp s (fun done t => t = s ∨
      ∃ receipts files, done.1 = receipts.map (·.stamped stamp) ∧
        commitTraceRetention c storeIdentity plan receipts latest stamp { s with files := files } = some t)
      (fun _ _ => True) by
    exact (Op.wp_of_ok h).1 this
  simp only [applyTraceRetention, Op.wp_bind, Op.wp_gets, wp_orRaise, implies_true, and_true]
  intro _ _ existing _
  split
  · simp only [Op.wp_bind, Op.wp_gets, wp_orRaise, Op.wp_pure, implies_true, and_true]
    exact fun _ _ => .inl trivial
  · simp only [Op.wp_bind, Op.wp_gets, wp_orRaise, Op.wp_modify, Op.wp_pure, implies_true, and_true]
    intro _ _
    refine Op.wp_mono (stageArchives_files plan plan.prefixes) (fun receipts t ht => ?_) (fun _ _ _ => trivial)
    obtain ⟨files, rfl⟩ := ht
    exact fun committed hcommit => .inr ⟨receipts, files, rfl, hcommit⟩

theorem Books.serve (h : Books c l) (storeIdentity : String) (request : TraceRequest β τ) :
    Books c (l.serve c storeIdentity request) := by
  cases request with
  | append event now =>
    rw [TraceLog.serve]
    cases hrow : appendedRow event now l.store with
    | none => exact h
    | some row => exact h.append hrow
  | apply plan config latest stamp => exact applyTraceRetention_books h storeIdentity plan config latest stamp
  | stage data =>
    rw [TraceLog.serve]
    cases hput : putTraceArchive c data l.store with
    | none => exact h
    | some t => exact h.put hput
  | change other => exact h.of_files rfl rfl (fun _ _ hget => hget)

/-! ### Reading -/

omit [LinearOrder τ] [DecidableEq β] in
theorem windowEvent_eq_some {row : StoredTraceEvent τ} (h : Written row) {v : Value} :
    windowEvent row.payload = some v ↔ row.payload.finite ∧ row.payload = v := by
  obtain ⟨members, hobj⟩ := h.isObject
  have hcanon := h.canonical
  rw [hobj] at hcanon ⊢
  rw [windowEvent, Value.snapshot, hcanon]
  split
  · simp_all
  · simp_all

omit [LinearOrder τ] [DecidableEq β] in
theorem follows_payloads {rows : List (StoredTraceEvent τ)} {previous : Int} (written : ∀ row ∈ rows, Written row)
    (increasing : rows.Pairwise (fun a b => a.seq < b.seq)) (above : ∀ row ∈ rows, previous < row.seq) :
    follows previous (rows.map (·.payload)) := by
  induction rows generalizing previous with
  | nil => rfl
  | cons row rest ih =>
    rw [List.pairwise_cons] at increasing
    rw [List.map_cons, follows, (written row (List.mem_cons_self ..)).carries]
    refine decide_eq_true ⟨above row (List.mem_cons_self ..), ?_⟩
    exact ih (fun row' h => written row' (List.mem_cons_of_mem row h)) increasing.2 increasing.1

omit [LinearOrder τ] [DecidableEq β] in
theorem windowEvents_eq_some {rows : List (StoredTraceEvent τ)} (written : ∀ row ∈ rows, Written row)
    {events : List Value} : rows.mapM (fun row => windowEvent row.payload) = some events ↔
      (∀ row ∈ rows, row.payload.finite) ∧ rows.map (·.payload) = events := by
  induction rows generalizing events with
  | nil => simp
  | cons row rest ih =>
    have hrest := @ih (fun row' h => written row' (List.mem_cons_of_mem row h))
    simp only [List.mapM_cons, Option.bind_eq_bind, Option.bind_eq_some_iff, Option.pure_def, Option.some.injEq,
      windowEvent_eq_some (written row (List.mem_cons_self ..)), hrest, List.forall_mem_cons, List.map_cons]
    constructor
    · rintro ⟨v, ⟨hfinite, rfl⟩, others, ⟨hothers, rfl⟩, rfl⟩
      exact ⟨⟨hfinite, hothers⟩, rfl⟩
    · rintro ⟨⟨hfinite, hothers⟩, rfl⟩
      exact ⟨_, ⟨hfinite, rfl⟩, _, ⟨hothers, rfl⟩, rfl⟩

omit [LinearOrder τ] in
/-- A read succeeds if the rows it returns are finite. -/
theorem Books.readWindow_isSome (h : Books c l) (hbooks : Accounted c l runId archived) (after : Int) :
    (readWindow l.store runId after).isSome ↔ fitsInt64 after ∧
      ∀ row ∈ (l.appendedTo runId).drop archived, after < row.seq → row.payload.finite := by
  have hwritten : ∀ row ∈ ((l.appendedTo runId).drop archived).filter (fun row => after < row.seq), Written row :=
    fun row hrow => h.written row (List.mem_of_mem_filter (List.mem_of_mem_drop (List.mem_of_mem_filter hrow)))
  have hfollows : follows archived
      ((((l.appendedTo runId).drop archived).filter (fun row => after < row.seq)).map (·.payload)) := by
    refine follows_payloads hwritten (hbooks.numberedLive.pairwise.filter _) (fun row hrow => ?_)
    have := (hbooks.numberedLive.mem (List.mem_of_mem_filter hrow)).1
    omega
  rw [Option.isSome_iff_exists]
  simp only [readWindow, Option.bind_eq_bind, Option.bind_eq_some_iff, guard_eq_some_iff, exists_const,
    Option.some.injEq, hbooks.trimmedThrough, hbooks.rowsOf, windowEvents_eq_some hwritten, List.mem_filter,
    decide_eq_true_eq, and_imp]
  constructor
  · rintro ⟨window, hfits, events, ⟨hfinite, -⟩, -⟩
    exact ⟨hfits, hfinite⟩
  · rintro ⟨hfits, hfinite⟩
    exact ⟨_, hfits, _, ⟨hfinite, rfl⟩, ⟨Int.natCast_nonneg archived, hfollows⟩, rfl⟩

omit [LinearOrder τ] [DecidableEq β] in
/-- An archive that is read holds finite rows only. -/
theorem contents_finite {body : Value} {a : TraceArchive τ} (h : contents c body = some a) :
    ∀ row ∈ a.events, row.payload.finite := by
  simp only [contents, Option.bind_eq_bind, Option.bind_eq_some_iff] at h
  obtain ⟨p, -, items, -, rows, hrows, h⟩ := h
  split at h
  · simp only [Option.bind_eq_some_iff, Option.some.injEq] at h
    obtain ⟨hashes, -, rfl⟩ := h
    intro row hrow
    obtain ⟨v, -, hv⟩ := source_of_mapM hrows hrow
    obtain ⟨-, -, -, payload, hsnap, -⟩ := StoredTraceEvent.validate_eq_some.1 (StoredTraceEvent.validate_of_parse c hv)
    unfold Value.snapshot at hsnap
    split at hsnap
    · assumption
    · cases hsnap
  · cases h

omit [LinearOrder τ] in
/-- The rows that are archived are finite. -/
theorem Accounted.archived_finite (h : Accounted c l runId archived) :
    ∀ row ∈ (l.appendedTo runId).take archived, row.payload.finite := by
  intro row hrow
  have hlow := ((h.numbered.take archived).mem hrow)
  rw [List.length_take_of_le h.bound] at hlow
  have hmem : row.seq ∈ (l.store.receiptsOf runId).flatMap
      (fun r => Int.range r.range.firstSeq (r.range.lastSeq + 1)) := by
    rw [h.chained.flatMap, Int.mem_range_iff]
    omega
  obtain ⟨r, hr, hin⟩ := List.mem_flatMap.1 hmem
  rw [Int.mem_range_iff] at hin
  obtain ⟨data, body, a, -, -, hcontents, hevents⟩ := h.held r hr
  refine contents_finite hcontents row ?_
  rw [hevents]
  exact List.mem_filter.2 ⟨List.mem_of_mem_take hrow, decide_eq_true ⟨hin.1, by omega⟩⟩

/-! ### Every run -/

/-- Nothing has been appended or archived yet. -/
structure TraceStore.Fresh (s : TraceStore β τ) : Prop where
  events : s.events = []
  receipts : s.receipts = []

omit [LinearOrder τ] in
theorem books_fresh (h : s.Fresh) : Books c ⟨s, []⟩ where
  written := fun _ hrow => absurd hrow List.not_mem_nil
  accounted runId := by
    have hreceipts : s.receiptsOf runId = [] := by rw [TraceStore.receiptsOf, h.receipts, List.filter_nil]
    refine ⟨0, trivial, ?_, .inl rfl, ?_, fun r hr => ?_⟩
    · show s.events.filter _ = []
      rw [h.events, List.filter_nil]
    · show Chained _ _ 0 (s.receiptsOf runId) _
      rw [hreceipts]
      rfl
    · have hr : r ∈ s.receiptsOf runId := hr
      rw [hreceipts] at hr
      cases hr

variable (c) in
/-- The numbers of the events of a run: given out in order, each live or in one archive, the highest live. -/
structure Sequenced (l : TraceLog β τ) (runId : String) : Prop where
  contiguous : (l.appendedTo runId).map (·.seq) = Int.range 1 ((l.appendedTo runId).length + 1)
  partitioned : (l.store.receiptsOf runId).flatMap (fun r => Int.range r.range.firstSeq (r.range.lastSeq + 1)) ++
    (l.store.rowsOf runId).map (·.seq) = Int.range 1 ((l.appendedTo runId).length + 1)
  archived : ∀ r ∈ l.store.receiptsOf runId, ∃ data body a, l.store.files.get r.artifactId = some data ∧
    decodeTraceArchive c data = some body ∧ contents c body = some a ∧
    a.events = (l.appendedTo runId).filter (fun row => r.range.firstSeq ≤ row.seq ∧ row.seq ≤ r.range.lastSeq)
  highest : (l.store.rowsOf runId).getLast? = (l.appendedTo runId).getLast?

omit [LinearOrder τ] in
theorem Accounted.sequenced (h : Accounted c l runId archived) : Sequenced c l runId where
  contiguous := by
    rw [h.numbered.map_eq, add_comm]
  partitioned := by
    have hbound := h.bound
    rw [h.chained.flatMap, h.rowsOf, h.numberedLive.map_eq, List.length_drop, zero_add, add_comm (1 : Int),
      range_append (by omega) (by omega)]
    congr 1
    omega
  archived := h.held
  highest := by
    rw [h.rowsOf]
    rcases h.kept with rfl | hlt
    · rfl
    · exact List.getLast?_drop.trans (if_neg (by omega))

end Log

/-- However appends and applications of plans alternate, the numbers of each run stay in order: none is
given out twice or lost, and archives hold what was appended. A window is read if the events above the
given number are finite JSON and the number fits the database. -/
theorem trace_numbers_kept {β τ : Type} [LinearOrder τ] [DecidableEq β] (c : Codec β τ) (storeIdentity : String)
    {s : TraceStore β τ} (fresh : s.Fresh) (requests : List (TraceRequest β τ)) (runId : String) :
    Sequenced c (run (TraceLog.serve c storeIdentity) ⟨s, []⟩ requests) runId ∧
    ∀ after, (readWindow (run (TraceLog.serve c storeIdentity) ⟨s, []⟩ requests).store runId after).isSome ↔
      fitsInt64 after ∧ ∀ row ∈ (run (TraceLog.serve c storeIdentity) ⟨s, []⟩ requests).appendedTo runId,
        after < row.seq → row.payload.finite := by
  have hbooks : Books c (run (TraceLog.serve c storeIdentity) ⟨s, []⟩ requests) :=
    run_keeps (I := Books c) (fun l request h => Books.serve h storeIdentity request) requests (books_fresh fresh)
  generalize run (TraceLog.serve c storeIdentity) ⟨s, []⟩ requests = l at hbooks
  obtain ⟨archived, haccounted⟩ := hbooks.accounted runId
  refine ⟨haccounted.sequenced, fun after => ?_⟩
  rw [hbooks.readWindow_isSome haccounted after, and_congr_right_iff]
  intro _
  constructor
  · intro hfinite row hrow hafter
    rw [← List.take_append_drop archived (l.appendedTo runId), List.mem_append] at hrow
    rcases hrow with hrow | hrow
    · exact haccounted.archived_finite row hrow
    · exact hfinite row hrow hafter
  · intro hfinite row hrow
    exact hfinite row (List.mem_of_mem_drop hrow)

/-- A store with nothing in it. -/
def emptyTraces : TraceStore Value (Fin 3) := ⟨[], [], fun _ h => absurd h List.not_mem_nil, [], true, [], fun _ => none, [], [], [], [], ∅⟩

theorem two_events_sequenced :
    Sequenced noteCodec (run (TraceLog.serve noteCodec "") ⟨emptyTraces, []⟩
      [.append [("run_id", .str "r1"), ("type", .str "note")] 0, .append [("run_id", .str "r1")] 1]) "r1" ∧
    (readWindow (run (TraceLog.serve noteCodec "") ⟨emptyTraces, []⟩
      [.append [("run_id", .str "r1"), ("type", .str "note")] 0, .append [("run_id", .str "r1")] 1]).store "r1" 1).isSome := by
  have kept := trace_numbers_kept noteCodec "" (s := emptyTraces) ⟨rfl, rfl⟩
    [.append [("run_id", .str "r1"), ("type", .str "note")] 0, .append [("run_id", .str "r1")] 1] "r1"
  exact ⟨kept.1, (kept.2 1).2 (by decide +kernel)⟩

/-- An event with a NaN is accepted, and from then on the run cannot be read from its start. -/
theorem window_of_nan_raises :
    ¬ (readWindow (run (TraceLog.serve noteCodec "") ⟨emptyTraces, []⟩
      [.append [("run_id", .str "r1"), ("value", .float 0x7ff8000000000000)] 0]).store "r1" 0).isSome := by
  decide +kernel

end Motte.Trace
