import Motte.Trace.KeptProtection

/-! Archiving keeps artifact references alive.

A file or a content that a trimmed row refers to is listed in the receipt, whose
record is scanned like any other. The record also refers to every run that the rows
referred to, so no run of a rolled back import falls out of use by the commit. What
garbage collection finds referenced afterwards contains what it found before. -/
namespace Motte.Trace
open Foundation

/-! ### What one record adds -/

section Record
variable {v : Value}

/-- A file that was found is mentioned, with the digest it was found with. -/
theorem mention_of_found (readable : Agree (mentions false v)) {id : String} {digest : Option String}
    (h : (id, digest) ∈ (foundRefs v).refs.rows) : (∃ m ∈ mentions false v, m.id? = some id) ∧
      canonicalArtifactId id = some id ∧ ∀ d, digest = some d → ∃ m ∈ mentions false v, m.id? = some id ∧ m.digest = some d := by
  obtain ⟨-, represents⟩ := foundRefs_represents readable
  have hget := Table.get_of_mem h
  obtain ⟨m, hm, hid⟩ := (represents.named id).1 (by simp [hget])
  obtain ⟨i, -, hi⟩ := Option.bind_eq_some_iff.1 hid
  refine ⟨⟨m, hm, hid⟩, canonicalArtifactId_idem hi, fun d hd => ?_⟩
  subst hd
  exact represents.stated id d hget

/-- A file that is mentioned is found, with the digest that is stated. -/
theorem found_of_mention (readable : Agree (mentions false v)) {m : Mention} {id : String} (hm : m ∈ mentions false v)
    (hid : m.id? = some id) : ∃ digest, (id, digest) ∈ (foundRefs v).refs.rows ∧
      ∀ d, m.digest = some d → ∃ d', digest = some d' ∧ bare d' = bare d := by
  obtain ⟨-, represents⟩ := foundRefs_represents readable
  obtain ⟨digest, hget⟩ := Option.ne_none_iff_exists'.1 ((represents.named id).2 ⟨m, hm, hid⟩)
  refine ⟨digest, Table.mem_of_get hget, fun d hd => ?_⟩
  obtain ⟨d', hget', hbare⟩ := represents.asserted m hm id d hid hd
  rw [hget] at hget'
  exact ⟨d', Option.some.inj hget', hbare⟩

theorem hash_found (readable : Agree (mentions false v)) (x : String) :
    x ∈ (foundRefs v).hashes ↔ ∃ m ∈ mentions false v, ∃ d, m.digest = some d ∧ bare d = x :=
  collectArtifactRefs_hashes (foundRefs_represents readable).1 x

theorem mem_liveMentions {R : ReferenceStore} {record : ScanRecord} {m : Mention} : m ∈ liveMentions R record ↔
    ∃ id digest, (id, digest) ∈ (foundRefs record.value).refs.rows ∧ m = ⟨some id, digest⟩ ∧
      ∀ deleted, (R.archived record).get id = some deleted → digest.any (fun d => bare d ≠ deleted) := by
  simp only [liveMentions, liveRefs, List.mem_map, List.mem_filter, Prod.exists]
  constructor
  · rintro ⟨id, digest, ⟨hrow, hlive⟩, rfl⟩
    refine ⟨id, digest, hrow, rfl, fun deleted hdeleted => ?_⟩
    rwa [hdeleted] at hlive
  · rintro ⟨id, digest, hrow, rfl, hlive⟩
    refine ⟨id, digest, ⟨hrow, ?_⟩, rfl⟩
    cases hget : (R.archived record).get id with
    | none => rfl
    | some deleted => exact hlive deleted hget

end Record

/-! ### Records that both scans have -/

section Stay
variable {runs : List Value} {imports tombstones : List Value} {before after : List ScanRecord} {record : ScanRecord}

theorem lookup_filter_key {α : Type} {p : String → Bool} {rows : List (String × α)} {key : String} :
    (rows.filter (fun row => p row.1)).lookup key = if p key then rows.lookup key else none := by
  induction rows with
  | nil => simp
  | cons row rest ih =>
    obtain ⟨k, a⟩ := row
    by_cases hk : key = k
    · subst hk
      by_cases hp : p key
      · rw [List.filter_cons_of_pos (by simpa using hp), if_pos hp, List.lookup_cons_self, List.lookup_cons_self]
      · rw [List.filter_cons_of_neg (by simpa using hp), ih, if_neg hp, if_neg hp]
    · have hne : (key == k) = false := by simpa using hk
      rw [List.filter_cons, List.lookup_cons, hne]
      split
      · rw [List.lookup_cons, hne, ih]
      · exact ih

theorem ownImport_of_owner {owner : String} (h : record.owner = some owner) (retired : List (String × String)) :
    ReferenceStore.ownImport retired record =
      (retired.lookup owner).filter (fun importId => isImportOwned record.value owner importId) := by
  rw [ReferenceStore.ownImport, h]
  show ((retired.lookup owner).bind _) = _
  cases retired.lookup owner with
  | none => rfl
  | some importId =>
    by_cases howned : isImportOwned record.value owner importId
    · simp [howned, Option.filter_some]
    · simp [howned, Option.filter_some]

/-- If more runs are referred to, less of a record counts as deleted: the same as before, or nothing. -/
theorem archived_of_external (single : record.owner = none ∨ record.importId = none)
    (external : ∀ x ∈ before.flatMap (ReferenceStore.externalRuns ⟨runs, before, imports, tombstones⟩),
      x ∈ after.flatMap (ReferenceStore.externalRuns ⟨runs, after, imports, tombstones⟩)) :
    ReferenceStore.archived ⟨runs, after, imports, tombstones⟩ record =
        ReferenceStore.archived ⟨runs, before, imports, tombstones⟩ record ∨
      ReferenceStore.archived ⟨runs, after, imports, tombstones⟩ record = ∅ := by
  cases howner : record.owner with
  | none =>
    refine .inl ?_
    simp only [ReferenceStore.archived, ReferenceStore.ownImport, howner]
    rfl
  | some owner =>
    have himport : record.importId = none := by
      rcases single with h | h
      · rw [howner] at h
        cases h
      · exact h
    by_cases hout : owner ∈ after.flatMap (ReferenceStore.externalRuns ⟨runs, after, imports, tombstones⟩)
    · refine .inr ?_
      have hnone : ReferenceStore.ownImport (ReferenceStore.retiredRuns ⟨runs, after, imports, tombstones⟩) record = none := by
        have hlookup : (ReferenceStore.retiredRuns ⟨runs, after, imports, tombstones⟩).lookup owner = none := by
          rw [ReferenceStore.retiredRuns]
          refine (lookup_filter_key (p := fun x => decide (x ∉ _))).trans (if_neg ?_)
          simpa using hout
        rw [ownImport_of_owner howner, hlookup]
        rfl
      rw [ReferenceStore.archived, hnone, himport]
      exact confirmed_none _
    · refine .inl ?_
      have hin : owner ∉ before.flatMap (ReferenceStore.externalRuns ⟨runs, before, imports, tombstones⟩) :=
        fun hmem => hout (external owner hmem)
      have hsame : (ReferenceStore.retiredRuns ⟨runs, after, imports, tombstones⟩).lookup owner =
          (ReferenceStore.retiredRuns ⟨runs, before, imports, tombstones⟩).lookup owner := by
        rw [ReferenceStore.retiredRuns, ReferenceStore.retiredRuns]
        refine (lookup_filter_key (p := fun x => decide (x ∉ _))).trans
          ((if_pos (decide_eq_true hout)).trans ((lookup_filter_key (p := fun x => decide (x ∉ _))).trans
            (if_pos (decide_eq_true hin))).symm)
      rw [ReferenceStore.archived, ReferenceStore.archived, ownImport_of_owner howner, ownImport_of_owner howner, hsame]
      rfl

end Stay

/-! ### The commit -/

section Kept
variable {β τ : Type} [LinearOrder τ] [DecidableEq β] {c : Codec β τ} {plan : TraceRetentionPlan τ}
  {receipts : List (TraceArchiveReceipt τ)} {stamp : τ} {s t : TraceStore β τ} {protection : TraceProtection}
  {before after : List ScanRecord} {r : TraceArchiveReceipt τ}

/-- A run that has been imported is protected. -/
theorem protectedRun_of_import {run : Value} {ids : List String} {id importId : String}
    (h : protectedRun run = some ids) (hid : (run.get? "id").bind Value.str? = some id)
    (himport : (run.get? "manifest").bind importSource = some (.str importId)) : id ∈ ids := by
  simp only [protectedRun, Option.bind_eq_bind, Option.bind_eq_some_iff] at h
  obtain ⟨id', ⟨v, hv, hidentity⟩, h⟩ := h
  cases identity?_eq_some hidentity
  obtain rfl : id' = id := by simpa [hv, Value.str?] using hid
  obtain ⟨manifest, hmanifest, hsource⟩ := Option.bind_eq_some_iff.1 himport
  obtain ⟨source, hget, hid⟩ := Option.bind_eq_some_iff.1 hsource
  cases manifest with
  | obj members =>
    rw [hmanifest] at h
    have hpresent : (present? (.obj members) "import_source").isSome := by
      have hne : source ≠ .null := by
        rintro rfl
        cases hid
      rw [present?, hget, Option.filter_some, if_pos (decide_eq_true hne)]
      rfl
    dsimp only at h
    rw [if_pos (.inr hpresent)] at h
    cases h
    exact List.mem_singleton_self _
  | _ => cases hget

/-- A run that is trimmed is not one of a rolled back import. -/
theorem Committed.not_rolled_back (h : Committed c plan receipts stamp s t protection) (hr : r ∈ receipts)
    (records : List ScanRecord) :
    (ReferenceStore.rolledBackRuns ⟨s.runs, records, s.imports, s.tombstones⟩).lookup r.range.runId = none := by
  obtain ⟨kept, scanned, es, runs, events, collected, rfl⟩ := collectTraceProtection_eq_some.1 h.collected
  rw [List.lookup_eq_none_iff]
  intro entry hentry
  rw [bne_iff_ne]
  intro heq
  obtain ⟨run, hrun, hentry⟩ := List.mem_filterMap.1 hentry
  simp only [Option.bind_eq_bind, Option.bind_eq_some_iff, guard_eq_some_iff, exists_const, Option.some.injEq] at hentry
  obtain ⟨importId, -, ⟨-, himport⟩, id, hid, rfl⟩ := hentry
  obtain rfl : r.range.runId = id := heq
  obtain ⟨ids, hids, hprotected⟩ := image_of_mapM collected.ownReasons hrun
  have hmem := protectedRun_of_import hprotected (Option.bind_eq_some_iff.2 hid) (Option.bind_eq_some_iff.2 himport)
  obtain ⟨rows, count, selected⟩ := h.selected r hr
  exact selected.unprotected (mem_ordered.2 (List.mem_append_left _ (List.mem_flatten.2 ⟨ids, hids, hmem⟩)))

/-- The rows of a trimmed run, and the record of its receipt, belong to no import. -/
theorem Committed.own_records (h : Committed c plan receipts stamp s t protection) (hr : r ∈ receipts)
    (records : List ScanRecord) (record : ScanRecord) (howner : record.owner = some r.range.runId)
    (himport : record.importId = none) :
    ReferenceStore.archived ⟨s.runs, records, s.imports, s.tombstones⟩ record = ∅ ∧
      ReferenceStore.externalRuns ⟨s.runs, records, s.imports, s.tombstones⟩ record =
        r.range.runId :: referencedRuns record.value := by
  have hrolled := h.not_rolled_back hr records
  have hretired : (ReferenceStore.retiredRuns ⟨s.runs, records, s.imports, s.tombstones⟩).lookup r.range.runId = none := by
    rw [ReferenceStore.retiredRuns]
    refine (lookup_filter_key (p := fun x => decide (x ∉ _))).trans ?_
    split
    · exact hrolled
    · rfl
  constructor
  · rw [ReferenceStore.archived, ownImport_of_owner howner, hretired, himport]
    exact confirmed_none _
  · rw [ReferenceStore.externalRuns, ownImport_of_owner howner, hrolled, himport, howner]
    rfl

omit [LinearOrder τ] in
/-- The record of a receipt refers to every run that it is about, reaches, or has events of. -/
theorem runs_receiptMembers {runs : List String} {events : List (String × Nat)} {document : ReferenceDocument}
    {traceProtection : Bool} {x : String} (h : x = r.range.runId ∨ x ∈ runs ∨ ∃ n, (x, n) ∈ events) :
    x ∈ referencedRuns (.obj (receiptMembers r runs events ++ passMembers traceProtection document)) := by
  have runKey : keyedRuns "referenced_run_ids" (.arr ((ordered (· ≤ ·) runs).map .str)) = ordered (· ≤ ·) runs := by
    rw [keyedRuns, if_neg (by decide), if_pos (.inr (by decide)), Value.items?, Option.getD_some, List.filterMap_map]
    exact List.filterMap_some
  have eventRuns : ∀ e ∈ events, e.1 ∈ itemRuns ((ordered seqLe events).map fun e =>
      .obj [("kind", .str "event"), ("run_id", .str e.1), ("locator", .str (toString e.2))]) := by
    intro e he
    have hmem : e ∈ ordered seqLe events := mem_ordered.2 he
    generalize ordered seqLe events = listed at hmem
    induction listed with
    | nil => cases hmem
    | cons first rest ih =>
      rw [List.map_cons, itemRuns, List.mem_append]
      rcases List.mem_cons.1 hmem with rfl | hmem
      · exact .inl (List.mem_cons_self ..)
      · exact .inr (ih hmem)
  rw [referencedRuns]
  refine List.mem_append_right _ ?_
  simp only [receiptMembers, List.cons_append, memberRuns, List.mem_append, runKey]
  rcases h with rfl | hx | ⟨n, hx⟩
  · exact .inr (.inl (.inl (List.mem_singleton_self _)))
  · exact .inr (.inr (.inr (.inr (.inr (.inl (.inl (mem_ordered.2 hx)))))))
  · exact .inr (.inr (.inr (.inr (.inr (.inr (.inl (.inr (eventRuns (x, n) hx))))))))

/-- A receipt's record, in a scan that garbage collection makes. -/
theorem Committed.gc_receipt (h : Committed c plan receipts stamp s t protection) (hr : r ∈ receipts) :
    ∃ v, receiptRecord s.passes false r = some v ∧ (∀ x, (∃ row ∈ coveredRows s r, x ∈ referencedRuns row.payload.canon) →
        x = r.range.runId ∨ x ∈ referencedRuns v) ∧
      ∃ hex own, Attested s r hex own ∧
        mentions false v = archiveMention r :: listedMentions r.artifactRefs r.artifactHashes := by
  obtain ⟨kept, scanned, es, runs, events, collected, -⟩ := collectTraceProtection_eq_some.1 h.collected
  obtain ⟨hex, own, attested⟩ := h.attested hr
  obtain ⟨⟨ownRuns, ownEvents⟩, hresolved⟩ := resolve_of_passes s.passes (fun p hp =>
    (resolve_eq_some collected.resolved).1 p (h.own_edges collected hr attested _ hp))
  obtain ⟨-, hruns, hevents⟩ := resolve_eq_some hresolved
  refine ⟨_, receiptRecord_eq attested.document hresolved false, ?_, hex, own, attested,
    mentions_receiptMembers attested.digests _ _ _ _⟩
  rintro x ⟨row, hrow, hx⟩
  -- The walk over the row has met the run; the document keeps what it met.
  obtain ⟨lists, hlists, hown⟩ := Option.map_eq_some_iff.1 attested.walked
  obtain ⟨found, hfound, hwalk⟩ := image_of_mapM hlists (List.mem_map_of_mem hrow)
  have hin : ∀ e ∈ found, e ∈ own := fun e he => hown ▸ List.mem_flatten.2 ⟨found, hfound, he⟩
  rcases walk_meets _ _ _ _ _ hwalk x hx with howner | hrun | ⟨n, hevent⟩
  · exact .inl (Option.some.inj howner).symm
  · exact .inr (runs_receiptMembers (.inr (.inl ((hruns x).2 (.inl (hin _ hrun))))))
  · exact .inr (runs_receiptMembers (.inr (.inr ⟨n, (hevents (x, n)).2 (hin _ hevent)⟩)))

omit [LinearOrder τ] [DecidableEq β] in
theorem scan_single {traceProtection : Bool} (hs : s.scan traceProtection = some before) {record : ScanRecord}
    (h : record ∈ before) : record.owner = none ∨ record.importId = none := by
  rcases (mem_scan hs).1 h with ⟨run, -, rfl⟩ | ⟨row, -, -, rfl⟩ | hother | ⟨r, -, v, -, rfl⟩
  · exact .inr rfl
  · exact .inr rfl
  · exact s.single record hother
  · exact .inr rfl

/-- Every run that was referred to from outside still is. -/
theorem Committed.external_kept (h : Committed c plan receipts stamp s t protection)
    (hs : s.scan false = some before) (ht : t.scan false = some after) :
    ∀ x ∈ before.flatMap (ReferenceStore.externalRuns ⟨s.runs, before, s.imports, s.tombstones⟩),
      x ∈ after.flatMap (ReferenceStore.externalRuns ⟨s.runs, after, s.imports, s.tombstones⟩) := by
  intro x hx
  obtain ⟨record, hrecord, hx⟩ := List.mem_flatMap.1 hx
  rcases h.before_mem hs ht hrecord with hstill | ⟨r, hr, row, hrow, rfl⟩
  · exact List.mem_flatMap.2 ⟨record, hstill, hx⟩
  · obtain ⟨v, hv, hruns, -⟩ := h.gc_receipt hr
    refine List.mem_flatMap.2 ⟨_, h.receipt_mem ht hr hv, ?_⟩
    rw [(h.own_records hr before (rowRecord r row) rfl rfl).2] at hx
    rw [(h.own_records hr after ⟨v, some r.range.runId, none⟩ rfl rfl).2]
    rcases List.mem_cons.1 hx with rfl | hx
    · exact List.mem_cons_self ..
    · rcases hruns x ⟨row, hrow, hx⟩ with rfl | hx
      · exact List.mem_cons_self ..
      · exact List.mem_cons_of_mem _ hx

/-- A record that stays keeps its live references. -/
theorem Committed.live_kept (h : Committed c plan receipts stamp s t protection)
    (hs : s.scan false = some before) (ht : t.scan false = some after) {record : ScanRecord} (hrecord : record ∈ before) :
    (∀ m ∈ liveMentions ⟨s.runs, before, s.imports, s.tombstones⟩ record,
      m ∈ liveMentions ⟨s.runs, after, s.imports, s.tombstones⟩ record) ∧
    ∀ x, LiveHash ⟨s.runs, before, s.imports, s.tombstones⟩ record x →
      LiveHash ⟨s.runs, after, s.imports, s.tombstones⟩ record x := by
  have hlive : ∀ m ∈ liveMentions ⟨s.runs, before, s.imports, s.tombstones⟩ record,
      m ∈ liveMentions ⟨s.runs, after, s.imports, s.tombstones⟩ record := by
    intro m hm
    obtain ⟨id, digest, hrow, rfl, hdeleted⟩ := mem_liveMentions.1 hm
    refine mem_liveMentions.2 ⟨id, digest, hrow, rfl, fun deleted hget => ?_⟩
    rcases archived_of_external (scan_single hs hrecord) (h.external_kept hs ht) with hsame | hnone
    · exact hdeleted deleted (hsame ▸ hget)
    · rw [hnone] at hget
      cases hget
  refine ⟨hlive, fun x hx => ?_⟩
  rcases hx with ⟨m, hm, rest⟩ | ⟨hfound, hout⟩
  · exact .inl ⟨m, hlive m hm, rest⟩
  · refine .inr ⟨hfound, fun hin => ?_⟩
    rcases archived_of_external (scan_single hs hrecord) (h.external_kept hs ht) with hsame | hnone
    · exact hout (hsame ▸ hin)
    · rw [hnone] at hin
      cases hin

/-! ### The references of a store -/

/-- Before and after, as garbage collection reads them. -/
def gcStore (s : TraceStore β τ) (records : List ScanRecord) : ReferenceStore :=
  ⟨s.runs, records, s.imports, s.tombstones⟩

/-- What a covered row mentions is live, as it was found in the row. -/
theorem Committed.covered_live (h : Committed c plan receipts stamp s t protection) (hs : s.scan false = some before)
    (readable : ∀ r ∈ before, Agree (mentions false r.value)) (hr : r ∈ receipts) :
    Covered (coveredMentions s r) (before.flatMap (liveMentions (gcStore s before))) := by
  have live : ∀ m ∈ coveredMentions s r, ∀ id, m.id? = some id → ∃ digest, canonicalArtifactId id = some id ∧
      ⟨some id, digest⟩ ∈ before.flatMap (liveMentions (gcStore s before)) ∧
      ∀ d, m.digest = some d → ∃ d', digest = some d' ∧ bare d' = bare d := by
    intro m hm id hid
    obtain ⟨row, hrow, hm⟩ := List.mem_flatMap.1 hm
    have hmem := h.covered_mem hs hr hrow
    obtain ⟨digest, hfound, hdigest⟩ := found_of_mention (readable _ hmem) hm hid
    obtain ⟨i, -, hi⟩ := Option.bind_eq_some_iff.1 hid
    refine ⟨digest, canonicalArtifactId_idem hi, List.mem_flatMap.2 ⟨_, hmem, ?_⟩, hdigest⟩
    refine mem_liveMentions.2 ⟨id, digest, hfound, rfl, fun deleted hget => ?_⟩
    rw [gcStore, (h.own_records hr before (rowRecord r row) rfl rfl).1] at hget
    cases hget
  refine ⟨fun m hm id hid => ?_, fun m hm id d hid hd => ?_⟩
  · obtain ⟨digest, hcanon, hmem, -⟩ := live m hm id hid
    exact ⟨_, hmem, hcanon⟩
  · obtain ⟨digest, hcanon, hmem, hdigest⟩ := live m hm id hid
    obtain ⟨d', rfl, hbare⟩ := hdigest d hd
    exact ⟨_, hmem, d', hcanon, rfl, hbare⟩

/-- So is its content. -/
theorem Committed.covered_hash (h : Committed c plan receipts stamp s t protection) (hs : s.scan false = some before)
    (readable : ∀ r ∈ before, Agree (mentions false r.value)) (hr : r ∈ receipts) {m : Mention}
    (hm : m ∈ coveredMentions s r) {d : String} (hd : m.digest = some d) :
    ∃ record ∈ before, LiveHash (gcStore s before) record (bare d) := by
  obtain ⟨row, hrow, hm⟩ := List.mem_flatMap.1 hm
  have hmem := h.covered_mem hs hr hrow
  refine ⟨_, hmem, .inr ⟨(hash_found (readable _ hmem) _).2 ⟨m, hm, d, hd, rfl⟩, ?_⟩⟩
  rw [gcStore, (h.own_records hr before (rowRecord r row) rfl rfl).1]
  exact List.not_mem_nil

/-- What was live is covered by what is live after the commit. -/
theorem Committed.live_covered (h : Committed c plan receipts stamp s t protection) (hs : s.scan false = some before)
    (ht : t.scan false = some after) (readable : ∀ r ∈ before, Agree (mentions false r.value))
    (readable' : ∀ r ∈ after, Agree (mentions false r.value)) :
    Covered (before.flatMap (liveMentions (gcStore s before))) (after.flatMap (liveMentions (gcStore s after))) := by
  refine covered_of_each (fun m hm => ?_)
  obtain ⟨record, hrecord, hlive⟩ := List.mem_flatMap.1 hm
  rcases h.before_mem hs ht hrecord with hstill | ⟨r, hr, row, hrow, rfl⟩
  · refine covered_of_subset (fun m' hm' => ?_)
    rw [List.mem_singleton.1 hm']
    exact List.mem_flatMap.2 ⟨record, hstill, (h.live_kept hs ht hrecord).1 m hlive⟩
  · -- The row is gone; the record of its receipt lists what it mentioned.
    obtain ⟨v, hv, -, hex, own, attested, hmentions⟩ := h.gc_receipt hr
    have hmem := h.receipt_mem ht hr hv
    have hlisted : ∀ n ∈ listedMentions r.artifactRefs r.artifactHashes, n ∈ mentions false v := by
      intro n hn
      rw [hmentions]
      exact List.mem_cons_of_mem _ hn
    have live : ∀ n ∈ mentions false v, ∀ id, n.id? = some id → ∃ digest, canonicalArtifactId id = some id ∧
        ⟨some id, digest⟩ ∈ after.flatMap (liveMentions (gcStore s after)) ∧
        ∀ d, n.digest = some d → ∃ d', digest = some d' ∧ bare d' = bare d := by
      intro n hn id hid
      obtain ⟨digest, hfound, hdigest⟩ := found_of_mention (readable' _ hmem) hn hid
      obtain ⟨i, -, hi⟩ := Option.bind_eq_some_iff.1 hid
      refine ⟨digest, canonicalArtifactId_idem hi, List.mem_flatMap.2 ⟨_, hmem, ?_⟩, hdigest⟩
      refine mem_liveMentions.2 ⟨id, digest, hfound, rfl, fun deleted hget => ?_⟩
      rw [gcStore, (h.own_records hr after ⟨v, some r.range.runId, none⟩ rfl rfl).1] at hget
      cases hget
    obtain ⟨id, digest, hfound, rfl, -⟩ := mem_liveMentions.1 hlive
    obtain ⟨⟨m₀, hm₀, hid₀⟩, hcanon, hstated⟩ := mention_of_found (readable _ hrecord) hfound
    have hcovered : ∀ m ∈ mentions false row.payload.canon, m ∈ coveredMentions s r :=
      fun m hm => List.mem_flatMap.2 ⟨row, hrow, hm⟩
    refine ⟨fun m' hm' id' hid' => ?_, fun m' hm' id' d hid' hd => ?_⟩
    · rw [List.mem_singleton.1 hm', Mention.id?, Option.bind_some, hcanon] at hid'
      cases hid'
      obtain ⟨n, hn, hid⟩ := attested.lists.file m₀ (hcovered m₀ hm₀) id hid₀
      obtain ⟨digest', hcanon', hmem', -⟩ := live n (hlisted n hn) id hid
      exact ⟨_, hmem', hcanon'⟩
    · rw [List.mem_singleton.1 hm'] at hid' hd
      rw [Mention.id?, Option.bind_some, hcanon] at hid'
      cases hid'
      obtain ⟨m₁, hm₁, hid₁, hd₁⟩ := hstated d hd
      obtain ⟨n, hn, e, hid, he, hbare⟩ := attested.lists.stated m₁ (hcovered m₁ hm₁) id d hid₁ hd₁
      obtain ⟨digest', hcanon', hmem', hdigest'⟩ := live n (hlisted n hn) id hid
      obtain ⟨d', rfl, hbare'⟩ := hdigest' e he
      exact ⟨_, hmem', d', hcanon', rfl, hbare'.trans hbare⟩

/-- Every content that was alive still is, as it was written or with its name taken off. -/
theorem Committed.hash_kept (h : Committed c plan receipts stamp s t protection) (hs : s.scan false = some before)
    (ht : t.scan false = some after) (readable : ∀ r ∈ before, Agree (mentions false r.value))
    (readable' : ∀ r ∈ after, Agree (mentions false r.value)) {record : ScanRecord} (hrecord : record ∈ before)
    {x : String} (hx : LiveHash (gcStore s before) record x) :
    ∃ record' ∈ after, LiveHash (gcStore s after) record' x ∨ LiveHash (gcStore s after) record' (bare x) := by
  rcases h.before_mem hs ht hrecord with hstill | ⟨r, hr, row, hrow, rfl⟩
  · exact ⟨record, hstill, .inl ((h.live_kept hs ht hrecord).2 x hx)⟩
  · obtain ⟨v, hv, -, hex, own, attested, hmentions⟩ := h.gc_receipt hr
    have hmem := h.receipt_mem ht hr hv
    have hmention : ∃ m ∈ mentions false row.payload.canon, ∃ d, m.digest = some d ∧ bare d = x := by
      rcases hx with ⟨m, hm, d, hd, rfl⟩ | ⟨hfound, -⟩
      · obtain ⟨id, digest, hfound, rfl, -⟩ := mem_liveMentions.1 hm
        obtain ⟨-, -, hstated⟩ := mention_of_found (readable _ hrecord) hfound
        obtain ⟨m₁, hm₁, -, hd₁⟩ := hstated d hd
        exact ⟨m₁, hm₁, d, hd₁, rfl⟩
      · exact (hash_found (readable _ hrecord) x).1 hfound
    obtain ⟨m, hm, d, hd, rfl⟩ := hmention
    obtain ⟨n, hn, d', hd', hbare⟩ := attested.contents m (List.mem_flatMap.2 ⟨row, hrow, hm⟩) d hd
    have hlive : LiveHash (gcStore s after) ⟨v, some r.range.runId, none⟩ (bare d') := by
      refine .inr ⟨(hash_found (readable' _ hmem) _).2 ⟨n, ?_, d', hd', rfl⟩, ?_⟩
      · rw [hmentions]
        exact List.mem_cons_of_mem _ hn
      · rw [gcStore, (h.own_records hr after ⟨v, some r.range.runId, none⟩ rfl rfl).1]
        exact List.not_mem_nil
    refine ⟨_, hmem, ?_⟩
    rcases hbare with hbare | hbare
    · exact .inl (hbare ▸ hlive)
    · exact .inr (hbare ▸ hlive)

/-- The record of a receipt mentions what was live in its rows, and its archive. -/
theorem Committed.receipt_covered (h : Committed c plan receipts stamp s t protection) (hs : s.scan false = some before)
    (readable : ∀ r ∈ before, Agree (mentions false r.value)) (hr : r ∈ receipts) {v : Value}
    (hv : receiptRecord s.passes false r = some v) :
    Covered (mentions false v) (before.flatMap (liveMentions (gcStore s before)) ++ receipts.map archiveMention) ∧
      ∀ m ∈ mentions false v, ∀ i, m.identifier = some i → canonicalArtifactId i ≠ none := by
  obtain ⟨v', hv', -, hex, own, attested, hmentions⟩ := h.gc_receipt hr
  cases hv.symm.trans hv'
  have hlive := h.covered_live hs readable hr
  have hlisted : Covered (listedMentions r.artifactRefs r.artifactHashes)
      (before.flatMap (liveMentions (gcStore s before)) ++ receipts.map archiveMention) :=
    (attested.listed.trans hlive).mono (fun m hm => List.mem_append_left _ hm)
  rw [hmentions]
  refine ⟨covered_of_each (fun m hm => ?_), fun m hm i hi => ?_⟩
  · rcases List.mem_cons.1 hm with rfl | hm
    · refine covered_of_subset (fun m' hm' => ?_)
      rw [List.mem_singleton.1 hm']
      exact List.mem_append_right _ (List.mem_map_of_mem hr)
    · exact hlisted.left (fun m' hm' => List.mem_singleton.1 hm' ▸ hm)
  · rcases List.mem_cons.1 hm with rfl | hm
    · rw [attested.archiveMention_eq] at hi
      cases hi
      rw [attested.path, canonicalArtifactId_archive attested.isHex]
      simp
    · exact attested.listedValid m hm i hi

section Same
variable (same : (gcStore s after).retiredRuns = (gcStore s before).retiredRuns)
include same

omit [LinearOrder τ] [DecidableEq β] in
/-- As long as the same runs are out of use, the same deletions count. -/
theorem archived_same (record : ScanRecord) :
    (gcStore s after).archived record = (gcStore s before).archived record := by
  rw [ReferenceStore.archived, ReferenceStore.archived, same]
  rfl

/-- Then nothing is live but what was, and the archives. -/
theorem Committed.live_origin (h : Committed c plan receipts stamp s t protection) (hs : s.scan false = some before)
    (ht : t.scan false = some after) (readable : ∀ r ∈ before, Agree (mentions false r.value))
    (readable' : ∀ r ∈ after, Agree (mentions false r.value)) :
    Covered (after.flatMap (liveMentions (gcStore s after)))
      (before.flatMap (liveMentions (gcStore s before)) ++ receipts.map archiveMention) := by
  refine covered_of_each (fun m hm => ?_)
  obtain ⟨record, hrecord, hlive⟩ := List.mem_flatMap.1 hm
  rcases h.after_mem hs ht hrecord with hold | ⟨r, hr, v, hv, rfl⟩
  · refine covered_of_subset (fun m' hm' => List.mem_append_left _ (List.mem_flatMap.2 ⟨record, hold, ?_⟩))
    rw [List.mem_singleton.1 hm', liveMentions, ← archived_same same]
    exact hlive
  · obtain ⟨covered, -⟩ := h.receipt_covered hs readable hr hv
    obtain ⟨id, digest, hfound, rfl, -⟩ := mem_liveMentions.1 hlive
    obtain ⟨⟨m₀, hm₀, hid₀⟩, hcanon, hstated⟩ := mention_of_found (readable' _ hrecord) hfound
    refine ⟨fun m' hm' id' hid' => ?_, fun m' hm' id' d hid' hd => ?_⟩
    · rw [List.mem_singleton.1 hm', Mention.id?, Option.bind_some, hcanon] at hid'
      cases hid'
      exact covered.file m₀ hm₀ id hid₀
    · rw [List.mem_singleton.1 hm'] at hid' hd
      rw [Mention.id?, Option.bind_some, hcanon] at hid'
      cases hid'
      obtain ⟨m₁, hm₁, hid₁, hd₁⟩ := hstated d hd
      exact covered.stated m₁ hm₁ id d hid₁ hd₁

/-- Nor is a content alive but what was, and those of the archives. -/
theorem Committed.hash_origin (h : Committed c plan receipts stamp s t protection) (hs : s.scan false = some before)
    (ht : t.scan false = some after) (readable : ∀ r ∈ before, Agree (mentions false r.value))
    (readable' : ∀ r ∈ after, Agree (mentions false r.value)) {record : ScanRecord} (hrecord : record ∈ after)
    {x : String} (hx : LiveHash (gcStore s after) record x) :
    (∃ old ∈ before, ∃ y, LiveHash (gcStore s before) old y ∧ (x = y ∨ x = bare y)) ∨
      ∃ r ∈ receipts, bare r.sha256 = x := by
  rcases h.after_mem hs ht hrecord with hold | ⟨r, hr, v, hv, rfl⟩
  · refine .inl ⟨record, hold, x, ?_, .inl rfl⟩
    rw [LiveHash, liveMentions, ← archived_same same]
    exact hx
  · have hmention : ∃ m ∈ mentions false v, ∃ d, m.digest = some d ∧ bare d = x := by
      rcases hx with ⟨m, hm, d, hd, rfl⟩ | ⟨hfound, -⟩
      · obtain ⟨id, digest, hfound, rfl, -⟩ := mem_liveMentions.1 hm
        obtain ⟨-, -, hstated⟩ := mention_of_found (readable' _ hrecord) hfound
        obtain ⟨m₁, hm₁, -, hd₁⟩ := hstated d hd
        exact ⟨m₁, hm₁, d, hd₁, rfl⟩
      · exact (hash_found (readable' _ hrecord) x).1 hfound
    obtain ⟨m, hm, d, hd, rfl⟩ := hmention
    obtain ⟨v', hv', -, hex, own, attested, hmentions⟩ := h.gc_receipt hr
    cases hv.symm.trans hv'
    rw [hmentions] at hm
    rcases List.mem_cons.1 hm with rfl | hm
    · rw [attested.archiveMention_eq] at hd
      cases hd
      exact .inr ⟨r, hr, rfl⟩
    · obtain ⟨n, hn, d', hd', hbare⟩ := attested.listedContents m hm d hd
      obtain ⟨old, hold, hlive⟩ := h.covered_hash hs readable hr hn hd'
      exact .inl ⟨old, hold, bare d', hlive, hbare⟩

/-- If no path is taken either, everything can be scanned after the commit. -/
theorem Committed.scannable (h : Committed c plan receipts stamp s t protection) (hs : s.scan false = some before)
    (ht : t.scan false = some after) (scannable : Scannable (gcStore s before) [] before)
    (fits : ∀ r ∈ receipts, ∀ m ∈ before.flatMap (liveMentions (gcStore s before)), ∀ d,
      m.id? = some r.artifactId → m.digest = some d → bare d = bare r.sha256) :
    Scannable (gcStore s after) [] after := by
  have live := scannable.agree
  rw [List.nil_append] at live
  have agree := h.agree_archives live fits
  have readable' : ∀ record ∈ after, Agree (mentions false record.value) := by
    intro record hrecord
    rcases h.after_mem hs ht hrecord with hold | ⟨r, hr, v, hv, rfl⟩
    · exact scannable.readable record hold
    · obtain ⟨covered, valid⟩ := h.receipt_covered hs scannable.readable hr hv
      exact covered.agree agree valid
  refine ⟨readable', ?_⟩
  rw [List.nil_append]
  refine (h.live_origin same hs ht scannable.readable readable').agree agree (fun m hm i hi => ?_)
  obtain ⟨record, hrecord, hlive⟩ := List.mem_flatMap.1 hm
  obtain ⟨id, digest, hfound, rfl, -⟩ := mem_liveMentions.1 hlive
  obtain ⟨-, hcanon, -⟩ := mention_of_found (readable' _ hrecord) hfound
  cases hi
  rw [hcanon]
  simp

end Same

/-- The store after the commit can be scanned. -/
theorem Committed.gc_rescan (h : Committed c plan receipts stamp s t protection) (hs : s.scan false = some before) :
    ∃ after, t.scan false = some after := by
  refine scan_of_receipts (fun r hr => ?_)
  rw [h.result] at hr ⊢
  rcases List.mem_append.1 hr with hr | hr
  · exact receiptRecord_of_scan hs hr
  · obtain ⟨new, hnew, rfl⟩ := List.mem_map.1 hr
    obtain ⟨v, hv, -⟩ := h.gc_receipt hnew
    exact ⟨v, hv⟩

end Kept

/-! ### What garbage collection finds -/

section Found
variable {β τ : Type}

/-- The runs of rolled back imports that are out of use. -/
def TraceStore.retired (s : TraceStore β τ) : Option (List (String × String)) := s.references.map (·.retiredRuns)

/-- A live reference gives the path of one of the archives another digest. -/
def LivePathTaken (s : TraceStore β τ) (receipts : List (TraceArchiveReceipt τ)) : Prop :=
  ∃ R, s.references = some R ∧ ∃ r ∈ receipts, ∃ m ∈ R.records.flatMap (liveMentions R), ∃ d,
    m.id? = some r.artifactId ∧ m.digest = some d ∧ bare d ≠ bare r.sha256

variable [LinearOrder τ] [DecidableEq β] {c : Codec β τ} {plan : TraceRetentionPlan τ}
  {receipts : List (TraceArchiveReceipt τ)} {stamp : τ} {s t : TraceStore β τ} {protection : TraceProtection}
  {records records' : List ScanRecord} {before after : References}

theorem Committed.retained (h : Committed c plan receipts stamp s t protection) (hs : s.scan false = some records)
    (ht : t.scan false = some records') (hbefore : referencedArtifactHashes (gcStore s records) = .ok before)
    (hafter : referencedArtifactHashes (gcStore s records') = .ok after) : Retained s t before after := by
  obtain ⟨represents, scannable, hashes⟩ := referencedArtifactHashes_ok hbefore
  obtain ⟨represents', scannable', hashes'⟩ := referencedArtifactHashes_ok hafter
  have covered := h.live_covered hs ht scannable.readable scannable'.readable
  refine ⟨fun id hid => ?_, fun id d hget => ?_, fun x hx => ?_, fun r hr hnew => ?_⟩
  · obtain ⟨m, hm, hid⟩ := (represents.named id).1 hid
    exact (represents'.named id).2 (covered.file m hm id hid)
  · obtain ⟨m, hm, hid, hd⟩ := represents.stated id d hget
    obtain ⟨n, hn, d', hid', hd', hbare⟩ := covered.stated m hm id d hid hd
    obtain ⟨d'', hget'', hbare'⟩ := represents'.asserted n hn id d' hid' hd'
    exact ⟨d'', hget'', hbare'.trans hbare⟩
  · obtain ⟨record, hrecord, hlive⟩ := (hashes x).1 hx
    obtain ⟨record', hrecord', hkept | hkept⟩ := h.hash_kept hs ht scannable.readable scannable'.readable hrecord hlive
    · exact .inl ((hashes' x).2 ⟨record', hrecord', hkept⟩)
    · exact .inr ((hashes' _).2 ⟨record', hrecord', hkept⟩)
  · rw [h.result] at hr
    rcases List.mem_append.1 hr with hr | hr
    · exact absurd hr hnew
    · obtain ⟨r, hreceipt, rfl⟩ := List.mem_map.1 hr
      obtain ⟨v, hv, -, hex, own, attested, hmentions⟩ := h.gc_receipt hreceipt
      have hmem := h.receipt_mem ht hreceipt hv
      have hmention : archiveMention r ∈ mentions false v := by
        rw [hmentions]
        exact List.mem_cons_self ..
      obtain ⟨digest, hfound, hdigest⟩ := found_of_mention (scannable'.readable _ hmem) hmention attested.archive_id?
      obtain ⟨d', rfl, hbare⟩ := hdigest r.sha256 (by rw [attested.archiveMention_eq])
      have hlive : ⟨some r.artifactId, some d'⟩ ∈ records'.flatMap (liveMentions (gcStore s records')) := by
        refine List.mem_flatMap.2 ⟨_, hmem, mem_liveMentions.2 ⟨_, _, hfound, rfl, fun deleted hget => ?_⟩⟩
        rw [gcStore, (h.own_records hreceipt records' ⟨v, some r.range.runId, none⟩ rfl rfl).1] at hget
        cases hget
      have hcanon : canonicalArtifactId r.artifactId = some r.artifactId := by
        rw [attested.path]
        exact canonicalArtifactId_archive attested.isHex
      obtain ⟨d'', hget, hbare'⟩ := represents'.asserted _ hlive r.artifactId d' hcanon rfl
      exact ⟨d'', hget, hbare'.trans hbare⟩

theorem Committed.nothing_else (h : Committed c plan receipts stamp s t protection) (hs : s.scan false = some records)
    (ht : t.scan false = some records') (hbefore : referencedArtifactHashes (gcStore s records) = .ok before)
    (hafter : referencedArtifactHashes (gcStore s records') = .ok after)
    (same : (gcStore s records').retiredRuns = (gcStore s records).retiredRuns) : NothingElse receipts before after := by
  obtain ⟨represents, scannable, hashes⟩ := referencedArtifactHashes_ok hbefore
  obtain ⟨represents', scannable', hashes'⟩ := referencedArtifactHashes_ok hafter
  have covered := h.live_origin same hs ht scannable.readable scannable'.readable
  refine ⟨fun id hid => ?_, fun x hx => ?_⟩
  · obtain ⟨m, hm, hid⟩ := (represents'.named id).1 hid
    obtain ⟨n, hn, hid⟩ := covered.file m hm id hid
    rcases List.mem_append.1 hn with hn | hn
    · exact .inl ((represents.named id).2 ⟨n, hn, hid⟩)
    · obtain ⟨r, hr, rfl⟩ := List.mem_map.1 hn
      obtain ⟨hex, own, attested⟩ := h.attested hr
      exact .inr ⟨r, hr, Option.some.inj (attested.archive_id?.symm.trans hid)⟩
  · obtain ⟨record, hrecord, hlive⟩ := (hashes' x).1 hx
    rcases h.hash_origin same hs ht scannable.readable scannable'.readable hrecord hlive with
      ⟨old, hold, y, hy, hxy⟩ | harchive
    · exact .inl ⟨y, (hashes y).2 ⟨old, hold, hy⟩, hxy⟩
    · exact .inr harchive

/-- If no path is taken and the same runs are out of use, the references can be collected after the commit. -/
theorem Committed.collectable (h : Committed c plan receipts stamp s t protection) (hs : s.scan false = some records)
    (ht : t.scan false = some records') (hbefore : referencedArtifactHashes (gcStore s records) = .ok before)
    (same : (gcStore s records').retiredRuns = (gcStore s records).retiredRuns) (free : ¬ LivePathTaken s receipts) :
    ∃ after, referencedArtifactHashes (gcStore s records') = .ok after := by
  obtain ⟨represents, scannable, -⟩ := referencedArtifactHashes_ok hbefore
  have hreferences : s.references = some (gcStore s records) := by
    rw [TraceStore.references, hs]
    rfl
  have scannable' := h.scannable same hs ht scannable (fun r hr m hm d hid hd => by
    by_contra hne
    exact free ⟨_, hreferences, r, hr, m, hm, d, hid, hd, hne⟩)
  unfold referencedArtifactHashes at hbefore ⊢
  have hdeletions : (gcStore s records').confirmedDeletions = (gcStore s records).confirmedDeletions := rfl
  rw [hdeletions]
  split at hbefore
  · cases hbefore
  · rcases addRecords_spec (s := gcStore s records') (r := .empty) represents_empty agree_nil with
      ⟨after, hafter, -⟩ | ⟨-, bad⟩
    · exact ⟨after, hafter⟩
    · exact absurd scannable' bad

/-- After the application of a plan everything that was referenced still is, and nothing is added but the new
archives, unless a run of a rolled back import is in use again. Collecting fails only if the path of an archive is
taken or such a run is. A file that may be deleted was not referenced before. -/
theorem references_kept (c : Codec β τ) {storeIdentity : String} {config : RetentionConfig} {latest : τ}
    {done : List (TraceArchiveReceipt τ) × Int}
    (applied : applyTraceRetention c storeIdentity plan config latest stamp s = (.ok done, t))
    (found : s.referenced = some before) :
    ((∃ after, t.referenced = some after ∧ Retained s t before after ∧
        (t.retired = s.retired → NothingElse done.1 before after)) ∨
      t.referenced = none ∧ (LivePathTaken s done.1 ∨ t.retired ≠ s.retired)) ∧
    ∀ R, t.references = some R → ∀ (verified : Except RefError Unit) (root : ArtifactRoot τ) (importAuditProtected : Bool)
      (cutoff : τ) (deletable : List (GcFile τ)),
      planGc R verified root importAuditProtected cutoff = .ok deletable → ∀ f ∈ deletable, isHex64 f.sha256.toList →
        before.refs.get f.artifactId = none ∧ f.sha256 ∉ before.hashes := by
  -- Either nothing is committed, or the receipts of the application are.
  have main : ((∃ after, t.referenced = some after ∧ Retained s t before after ∧
        (t.retired = s.retired → NothingElse done.1 before after)) ∨
      t.referenced = none ∧ (LivePathTaken s done.1 ∨ t.retired ≠ s.retired)) := by
    obtain ⟨records, hs, hbefore⟩ := referenced_eq_some.1 found
    rcases applyTraceRetention_ok applied with rfl | ⟨receipts, files, hdone, hcommit⟩
    · refine .inl ⟨before, found, ⟨fun _ h => h, fun _ d h => ⟨d, h, rfl⟩, fun x hx => .inl hx,
        fun r hr hnew => absurd hr hnew⟩, fun _ => ⟨fun _ h => .inl h, fun x hx => .inl ⟨x, hx, .inl rfl⟩⟩⟩
    · obtain ⟨protection, committed⟩ := commitTraceRetention_eq_some c hcommit
      obtain ⟨records', ht⟩ := committed.gc_rescan hs
      have hreferences : s.references = some (gcStore s records) := by
        rw [TraceStore.references, hs]
        rfl
      have hreferences' : t.references = some (gcStore s records') := by
        rw [TraceStore.references, ht, committed.result]
        rfl
      cases hafter : t.referenced with
      | some after =>
        obtain ⟨records'', ht', hfound⟩ := referenced_eq_some.1 hafter
        cases ht.symm.trans ht'
        have hfound : referencedArtifactHashes (gcStore s records') = .ok after := by
          rw [committed.result] at hfound
          exact hfound
        have retained := committed.retained hs ht hbefore hfound
        refine .inl ⟨after, rfl, ⟨retained.files, retained.stated, retained.contents, retained.archives⟩, fun same => ?_⟩
        rw [TraceStore.retired, TraceStore.retired, hreferences, hreferences'] at same
        obtain ⟨hfiles, hcontents⟩ := committed.nothing_else hs ht hbefore hfound (Option.some.inj same)
        rw [hdone]
        refine ⟨fun id hid => ?_, fun x hx => ?_⟩
        · exact (hfiles id hid).imp_right (Exists.elim · fun r hr => ⟨r.stamped stamp, List.mem_map_of_mem hr.1, hr.2⟩)
        · exact (hcontents x hx).imp_right (Exists.elim · fun r hr => ⟨r.stamped stamp, List.mem_map_of_mem hr.1, hr.2⟩)
      | none =>
        refine .inr ⟨rfl, ?_⟩
        by_contra hneither
        obtain ⟨free, same⟩ := not_or.1 hneither
        rw [not_not, TraceStore.retired, TraceStore.retired, hreferences, hreferences'] at same
        have free' : ¬ LivePathTaken s receipts := by
          rintro ⟨R, hR, r, hr, m, rest⟩
          rw [hdone] at free
          exact free ⟨R, hR, r.stamped stamp, List.mem_map_of_mem hr, m, rest⟩
        obtain ⟨after, hfound⟩ := committed.collectable hs ht hbefore (Option.some.inj same) free'
        have hreferenced : t.referenced = some after := by
          rw [TraceStore.referenced, hreferences', Option.bind_some]
          exact congrArg Except.toOption hfound
        cases hafter.symm.trans hreferenced
  refine ⟨main, fun R hR verified root audit cutoff deletable hplan f hf hhex => ?_⟩
  obtain ⟨after, hafter, hfile, hhash⟩ := planGc_unreferenced hplan hf
  have hreferenced : t.referenced = some after := by
    rw [TraceStore.referenced, hR, Option.bind_some, hafter]
    rfl
  rcases main with ⟨after', hafter', retained, -⟩ | ⟨hnone, -⟩
  · cases hreferenced.symm.trans hafter'
    refine ⟨by_contra fun hbefore => retained.files _ hbefore hfile, fun hmem => ?_⟩
    rcases retained.contents _ hmem with hmem | hmem
    · exact hhash hmem
    · rw [bare_of_isHex64 hhex] at hmem
      exact hhash hmem
  · rw [hreferenced] at hnone
    cases hnone

theorem finished_references_kept :
    ∃ done t before after, applyTraceRetention retentionCodec noteIdentity notePlan ⟨true, some 1⟩ 2 2 (finishedTraces []) =
        (.ok done, t) ∧ (finishedTraces []).referenced = some before ∧ t.referenced = some after ∧
      Retained (finishedTraces []) t before after := by
  obtain ⟨applied, -, -, hbefore, hafter⟩ := finished_applied
  obtain ⟨before, hbefore⟩ := Option.isSome_iff_exists.1 hbefore
  obtain ⟨after, hafter⟩ := Option.isSome_iff_exists.1 hafter
  obtain ⟨done, hdone⟩ := Option.isSome_iff_exists.1 applied
  have hpair := applied_of_toOption hdone
  obtain ⟨⟨after', hafter', retained, -⟩ | ⟨hnone, -⟩, -⟩ := references_kept retentionCodec hpair hbefore
  · exact ⟨done, _, before, after', hpair, hbefore, hafter', retained⟩
  · cases hafter.symm.trans hnone

/-- A record that gives the path of the archive another digest: collecting fails once the plan is applied. -/
theorem taken_path_fails :
    ∃ done t, applyTraceRetention retentionCodec noteIdentity notePlan ⟨true, some 1⟩ 2 2 (finishedTraces [otherContent]) =
        (.ok done, t) ∧ (finishedTraces [otherContent]).referenced ≠ none ∧ t.referenced = none := by
  obtain ⟨applied, -, -, hbefore, hafter⟩ := taken_applied
  obtain ⟨done, hdone⟩ := Option.isSome_iff_exists.1 applied
  exact ⟨done, _, applied_of_toOption hdone, Option.isSome_iff_ne_none.1 hbefore, hafter⟩

end Found

end Motte.Trace
