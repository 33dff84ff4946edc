import Motte.Trace.ReceiptEvidence

/-! The scan of a store before and after a commit.

The records are the same but for two: the rows that the receipts cover are gone,
the records of the receipts are new. -/
namespace Motte.Trace
open Foundation

section Scan
variable {β τ : Type} {s : TraceStore β τ} {traceProtection : Bool} {scanned : List ScanRecord}

/-- The runs whose rows a scan looks at. -/
def TraceStore.owners (s : TraceStore β τ) (traceProtection : Bool) : List String :=
  s.runIds ++ if traceProtection then s.calibrationRuns else []

theorem mem_scan (h : s.scan traceProtection = some scanned) {record : ScanRecord} :
    record ∈ scanned ↔ (∃ run ∈ s.runs, record = ⟨run, runName run, none⟩) ∨
      (∃ row ∈ s.events, row.runId ∈ s.owners traceProtection ∧ record = ⟨row.payload.canon, some row.runId, none⟩) ∨
      record ∈ s.others ∨
      ∃ r ∈ s.receipts, ∃ v, receiptRecord s.passes traceProtection r = some v ∧ record = ⟨v, some r.range.runId, none⟩ := by
  simp only [TraceStore.scan, Option.bind_eq_bind, Option.bind_eq_some_iff, Option.some.injEq] at h
  obtain ⟨archived, harchived, rfl⟩ := h
  have receiptsMem : record ∈ archived ↔ ∃ r ∈ s.receipts, ∃ v, receiptRecord s.passes traceProtection r = some v ∧
      record = ⟨v, some r.range.runId, none⟩ := by
    constructor
    · intro hmem
      obtain ⟨r, hr, hmap⟩ := source_of_mapM harchived hmem
      obtain ⟨v, hv, rfl⟩ := Option.map_eq_some_iff.1 hmap
      exact ⟨r, hr, v, hv, rfl⟩
    · rintro ⟨r, hr, v, hv, rfl⟩
      obtain ⟨record, hmem, hrecord⟩ := image_of_mapM harchived hr
      rw [hv] at hrecord
      cases hrecord
      exact hmem
  have rowsMem : record ∈ (s.owners traceProtection).flatMap
      (fun id => (s.rowsOf id).map (fun row => (⟨row.payload.canon, some id, none⟩ : ScanRecord))) ↔
      ∃ row ∈ s.events, row.runId ∈ s.owners traceProtection ∧ record = ⟨row.payload.canon, some row.runId, none⟩ := by
    rw [List.mem_flatMap]
    constructor
    · rintro ⟨id, hid, hmem⟩
      obtain ⟨row, hrow, rfl⟩ := List.mem_map.1 hmem
      obtain ⟨hevent, rfl⟩ := TraceStore.mem_rowsOf.1 hrow
      exact ⟨row, hevent, hid, rfl⟩
    · rintro ⟨row, hrow, hid, rfl⟩
      exact ⟨row.runId, hid, List.mem_map.2 ⟨row, TraceStore.mem_rowsOf.2 ⟨hrow, rfl⟩, rfl⟩⟩
  rw [List.mem_append, List.mem_append, List.mem_append, receiptsMem, List.mem_map, or_assoc, or_assoc]
  refine or_congr ⟨?_, ?_⟩ (or_congr rowsMem Iff.rfl)
  · rintro ⟨run, hrun, rfl⟩
    exact ⟨run, hrun, rfl⟩
  · rintro ⟨run, hrun, rfl⟩
    exact ⟨run, hrun, rfl⟩

theorem scan_of_receipts (h : ∀ r ∈ s.receipts, ∃ v, receiptRecord s.passes traceProtection r = some v) :
    ∃ scanned, s.scan traceProtection = some scanned := by
  suffices ∀ receipts : List (TraceArchiveReceipt τ), (∀ r ∈ receipts, ∃ v, receiptRecord s.passes traceProtection r = some v) →
      ∃ archived, receipts.mapM (fun r => (receiptRecord s.passes traceProtection r).map
        (fun v => (⟨v, some r.range.runId, none⟩ : ScanRecord))) = some archived by
    obtain ⟨archived, harchived⟩ := this s.receipts h
    exact ⟨_, by rw [TraceStore.scan, harchived]; rfl⟩
  intro receipts hreceipts
  induction receipts with
  | nil => exact ⟨[], rfl⟩
  | cons r rest ih =>
    obtain ⟨v, hv⟩ := hreceipts r (List.mem_cons_self ..)
    obtain ⟨archived, harchived⟩ := ih (fun r' hr' => hreceipts r' (List.mem_cons_of_mem r hr'))
    exact ⟨_, by rw [List.mapM_cons, hv, harchived]; rfl⟩

/-- A scan that succeeds has the record of every receipt. -/
theorem receiptRecord_of_scan (h : s.scan traceProtection = some scanned) {r : TraceArchiveReceipt τ} (hr : r ∈ s.receipts) :
    ∃ v, receiptRecord s.passes traceProtection r = some v := by
  simp only [TraceStore.scan, Option.bind_eq_bind, Option.bind_eq_some_iff, Option.some.injEq] at h
  obtain ⟨archived, harchived, -⟩ := h
  obtain ⟨record, -, hrecord⟩ := image_of_mapM harchived hr
  obtain ⟨v, hv, -⟩ := Option.map_eq_some_iff.1 hrecord
  exact ⟨v, hv⟩

end Scan

section Rescan
variable {β τ : Type} [LinearOrder τ] [DecidableEq β] {c : Codec β τ} {plan : TraceRetentionPlan τ}
  {receipts : List (TraceArchiveReceipt τ)} {stamp : τ} {s t : TraceStore β τ} {protection : TraceProtection}
  {traceProtection : Bool} {before after : List ScanRecord}

omit [LinearOrder τ] [DecidableEq β] in
theorem mem_trimmed_events {row : StoredTraceEvent τ} :
    row ∈ (trimmed stamp receipts s).events ↔ row ∈ s.events ∧ ∀ r ∈ receipts, ¬ inRange r row := by
  simp [trimmed, List.mem_filter]

/-- The record of a row that a receipt covers. -/
def rowRecord (r : TraceArchiveReceipt τ) (row : StoredTraceEvent τ) : ScanRecord :=
  ⟨row.payload.canon, some r.range.runId, none⟩

/-- After the commit, what was there before and the records of the receipts. -/
theorem Committed.after_mem (h : Committed c plan receipts stamp s t protection)
    (hs : s.scan traceProtection = some before) (ht : t.scan traceProtection = some after) {record : ScanRecord}
    (hmem : record ∈ after) : record ∈ before ∨ ∃ r ∈ receipts, ∃ v, receiptRecord s.passes traceProtection r = some v ∧
      record = ⟨v, some r.range.runId, none⟩ := by
  have hresult := h.result
  subst hresult
  rcases (mem_scan ht).1 hmem with hrun | ⟨row, hrow, hid, rfl⟩ | hother | ⟨r, hr, v, hv, rfl⟩
  · exact .inl ((mem_scan hs).2 (.inl hrun))
  · exact .inl ((mem_scan hs).2 (.inr (.inl ⟨row, (mem_trimmed_events.1 hrow).1, hid, rfl⟩)))
  · exact .inl ((mem_scan hs).2 (.inr (.inr (.inl hother))))
  · rcases List.mem_append.1 hr with hr | hr
    · exact .inl ((mem_scan hs).2 (.inr (.inr (.inr ⟨r, hr, v, hv, rfl⟩))))
    · obtain ⟨new, hnew, rfl⟩ := List.mem_map.1 hr
      exact .inr ⟨new, hnew, v, hv, rfl⟩

/-- Of what was there before, only the covered rows are gone. -/
theorem Committed.before_mem (h : Committed c plan receipts stamp s t protection)
    (hs : s.scan traceProtection = some before) (ht : t.scan traceProtection = some after) {record : ScanRecord}
    (hmem : record ∈ before) : record ∈ after ∨ ∃ r ∈ receipts, ∃ row ∈ coveredRows s r, record = rowRecord r row := by
  have hresult := h.result
  subst hresult
  rcases (mem_scan hs).1 hmem with hrun | ⟨row, hrow, hid, rfl⟩ | hother | ⟨r, hr, v, hv, rfl⟩
  · exact .inl ((mem_scan ht).2 (.inl hrun))
  · by_cases hcovered : ∃ r ∈ receipts, inRange r row
    · obtain ⟨r, hr, hin⟩ := hcovered
      refine .inr ⟨r, hr, row, mem_coveredRows.2 ⟨hrow, hin⟩, ?_⟩
      rw [rowRecord, (of_decide_eq_true hin).1]
    · have hlive : row ∈ (trimmed stamp receipts s).events :=
        mem_trimmed_events.2 ⟨hrow, fun r hr hin => hcovered ⟨r, hr, hin⟩⟩
      exact .inl ((mem_scan ht).2 (.inr (.inl ⟨row, hlive, hid, rfl⟩)))
  · exact .inl ((mem_scan ht).2 (.inr (.inr (.inl hother))))
  · exact .inl ((mem_scan ht).2 (.inr (.inr (.inr ⟨r, List.mem_append_left _ hr, v, hv, rfl⟩))))

/-- The covered rows were there. -/
theorem Committed.covered_mem (h : Committed c plan receipts stamp s t protection)
    (hs : s.scan traceProtection = some before) {r : TraceArchiveReceipt τ} (hr : r ∈ receipts) {row : StoredTraceEvent τ}
    (hrow : row ∈ coveredRows s r) : rowRecord r row ∈ before := by
  obtain ⟨hevent, hin⟩ := mem_coveredRows.1 hrow
  have hid : row.runId = r.range.runId := (of_decide_eq_true hin).1
  refine (mem_scan hs).2 (.inr (.inl ⟨row, hevent, ?_, ?_⟩))
  · rw [hid]
    exact List.mem_append_left _ (h.owned r hr)
  · rw [rowRecord, hid]

/-- The records of the receipts are there. -/
theorem Committed.receipt_mem (h : Committed c plan receipts stamp s t protection)
    (ht : t.scan traceProtection = some after) {r : TraceArchiveReceipt τ} (hr : r ∈ receipts) {v : Value}
    (hv : receiptRecord s.passes traceProtection r = some v) : ⟨v, some r.range.runId, none⟩ ∈ after := by
  have hresult := h.result
  subst hresult
  refine (mem_scan ht).2 (.inr (.inr (.inr ⟨r.stamped stamp, ?_, v, hv, rfl⟩)))
  exact List.mem_append_right _ (List.mem_map_of_mem hr)

end Rescan

section References
variable {β τ : Type}

/-- What garbage collection reads of a store, none where a receipt cannot be resolved. -/
def TraceStore.references (s : TraceStore β τ) : Option ReferenceStore :=
  (s.scan false).map (fun records => ⟨s.runs, records, s.imports, s.tombstones⟩)

/-- `referenced_artifact_hashes` of a store, none where it raises. -/
def TraceStore.referenced (s : TraceStore β τ) : Option References :=
  s.references.bind (fun r => (referencedArtifactHashes r).toOption)

theorem referenced_eq_some {s : TraceStore β τ} {found : References} : s.referenced = some found ↔
    ∃ records, s.scan false = some records ∧
      referencedArtifactHashes ⟨s.runs, records, s.imports, s.tombstones⟩ = .ok found := by
  simp only [TraceStore.referenced, TraceStore.references, Option.bind_map, Option.bind_eq_some_iff, Function.comp_apply]
  refine exists_congr (fun records => and_congr_right (fun _ => ?_))
  cases referencedArtifactHashes ⟨s.runs, records, s.imports, s.tombstones⟩ <;> simp [Except.toOption]

end References

end Motte.Trace
