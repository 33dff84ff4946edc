import Motte.Trace.Rescan
import Motte.Trace.Sequence

/-! Archiving does not weaken protection.

What the rows of a receipt referred to, its record refers to: the same runs, after
scoring passes have been followed to theirs, and the same events. So the protection
that is collected after a commit is the one that was collected before it, unless
collecting fails because a record gives the path of a new archive to something else. -/
namespace Motte.Trace
open Foundation

section Collect
variable {β τ : Type} {s : TraceStore β τ}

/-- The records that protection is collected from, with their owners. -/
def protectionRecords (s : TraceStore β τ) (scanned : List ScanRecord) : List (Value × Option String) :=
  scanned.map (fun r => (r.value, r.owner)) ++ s.unowned.map (fun v => (v, none))

/-- What they mention. -/
def protectionMentions (s : TraceStore β τ) (scanned : List ScanRecord) : List Mention :=
  allMentions ((protectionRecords s scanned).map Prod.fst)

theorem recordAll_isSome_iff {ms : List Mention} :
    (∃ r, (References.empty.recordAll ms).toOption = some r) ↔ Agree ms := by
  have spec := @References.recordAll_spec .empty [] ms represents_empty agree_nil
  rw [List.nil_append] at spec
  rcases spec with ⟨r, hr, -, agree⟩ | ⟨⟨e, he⟩, bad⟩
  · rw [hr]
    exact ⟨fun _ => agree, fun _ => ⟨r, rfl⟩⟩
  · rw [he]
    refine ⟨?_, fun agree => absurd agree bad⟩
    rintro ⟨r, hr⟩
    cases hr

/-- The parts of a collection that succeeds. -/
structure Collected (s : TraceStore β τ) (kept : List (List String)) (scanned : List ScanRecord) (es : List Edge)
    (runs : List String) (events : List (String × Nat)) : Prop where
  ownReasons : s.runs.mapM protectedRun = some kept
  scan : s.scan true = some scanned
  agree : Agree (protectionMentions s scanned)
  walked : edges (protectionRecords s scanned) = some es
  valid : ∀ e ∈ es, e.valid
  coverage : s.coverage
  resolved : resolveReferenceDocument s.passes (documentOf es) = some (runs, events)

theorem collectTraceProtection_eq_some {p : TraceProtection} :
    collectTraceProtection s = some p ↔ ∃ kept scanned es runs events, Collected s kept scanned es runs events ∧
      p = ⟨ordered (· ≤ ·) (kept.flatten ++ runs), ordered seqLe events⟩ := by
  simp only [collectTraceProtection, Option.bind_eq_bind, Option.bind_eq_some_iff, guard_eq_some_iff, exists_const,
    Option.some.injEq]
  constructor
  · rintro ⟨kept, hkept, scanned, hscan, r, hr, document, hdocument, hcoverage, ⟨runs, events⟩, hresolved, rfl⟩
    obtain ⟨es, hes, hvalid, rfl⟩ := extractReferenceDocument_eq_some.1 hdocument
    exact ⟨kept, scanned, es, runs, events,
      ⟨hkept, hscan, recordAll_isSome_iff.1 ⟨r, hr⟩, hes, hvalid, hcoverage, hresolved⟩, rfl⟩
  · rintro ⟨kept, scanned, es, runs, events, h, rfl⟩
    obtain ⟨r, hr⟩ := recordAll_isSome_iff.2 h.agree
    exact ⟨kept, h.ownReasons, scanned, h.scan, r, hr, documentOf es,
      extractReferenceDocument_eq_some.2 ⟨es, h.walked, h.valid, rfl⟩, h.coverage, (runs, events), h.resolved, rfl⟩

theorem mem_protectionRecords {scanned : List ScanRecord} {record : Value × Option String} :
    record ∈ protectionRecords s scanned ↔
      (∃ r ∈ scanned, (r.value, r.owner) = record) ∨ ∃ v ∈ s.unowned, (v, none) = record := by
  rw [protectionRecords, List.mem_append, List.mem_map, List.mem_map]

theorem mem_protectionMentions {scanned : List ScanRecord} {m : Mention} : m ∈ protectionMentions s scanned ↔
    (∃ r ∈ scanned, m ∈ mentions false r.value) ∨ ∃ v ∈ s.unowned, m ∈ mentions false v := by
  simp only [protectionMentions, allMentions, List.mem_flatMap, List.mem_map, mem_protectionRecords]
  constructor
  · rintro ⟨v, ⟨record, ⟨r, hr, rfl⟩ | ⟨w, hw, rfl⟩, rfl⟩, hm⟩
    · exact .inl ⟨r, hr, hm⟩
    · exact .inr ⟨w, hw, hm⟩
  · rintro (⟨r, hr, hm⟩ | ⟨w, hw, hm⟩)
    · exact ⟨r.value, ⟨_, .inl ⟨r, hr, rfl⟩, rfl⟩, hm⟩
    · exact ⟨w, ⟨_, .inr ⟨w, hw, rfl⟩, rfl⟩, hm⟩

end Collect

section Kept
variable {β τ : Type} [LinearOrder τ] [DecidableEq β] {c : Codec β τ} {plan : TraceRetentionPlan τ}
  {receipts : List (TraceArchiveReceipt τ)} {stamp : τ} {s t : TraceStore β τ} {protection : TraceProtection}
  {kept : List (List String)} {before after : List ScanRecord} {es : List Edge} {runs : List String}
  {events : List (String × Nat)} {r : TraceArchiveReceipt τ} {hex : String} {own : List Edge}

/-- The edges of the covered rows were among those that were collected. -/
theorem Committed.own_edges (h : Committed c plan receipts stamp s t protection)
    (collected : Collected s kept before es runs events) (hr : r ∈ receipts) (attested : Attested s r hex own) :
    ∀ e ∈ own, e ∈ es := by
  intro e he
  obtain ⟨record, hrecord, found, hfound, hin⟩ := (mem_edges attested.walked).1 he
  obtain ⟨row, hrow, rfl⟩ := List.mem_map.1 hrecord
  refine (mem_edges collected.walked).2 ⟨_, mem_protectionRecords.2 (.inl ⟨_, h.covered_mem collected.scan hr hrow, rfl⟩), ?_⟩
  exact ⟨found, hfound, hin⟩

/-- The document of a receipt can be resolved, and its record walked: it gives what the rows gave. -/
theorem Committed.receipt_edges (h : Committed c plan receipts stamp s t protection)
    (collected : Collected s kept before es runs events) (hr : r ∈ receipts) (attested : Attested s r hex own) :
    ∃ v found, receiptRecord s.passes true r = some v ∧ walk (some r.range.runId) true false v = some found ∧
      (∀ e ∈ found, e.valid) ∧ (∀ x, .run x ∈ found ↔ Reaches s.passes own x) ∧
      (∀ x n, .event x n ∈ found ↔ .event x n ∈ own) ∧ ∀ p, .pass p ∉ found := by
  have hown := h.own_edges collected hr attested
  obtain ⟨⟨ownRuns, ownEvents⟩, hresolved⟩ := resolve_of_passes s.passes (fun p hp =>
    (resolve_eq_some collected.resolved).1 p (hown _ hp))
  obtain ⟨-, hruns, hevents⟩ := resolve_eq_some hresolved
  obtain ⟨hvalidRuns, hvalidEvents, -⟩ := of_decide_eq_true attested.documentValid
  have nonBlankRuns : ∀ x ∈ ownRuns, nonBlank x := by
    intro x hx
    rcases (hruns x).1 hx with hrun | ⟨p, targets, -, htargets, hin⟩
    · exact List.all_eq_true.1 hvalidRuns x (mem_documentOf_runIds.2 hrun)
    · exact nonBlank_of_resolvePass htargets hin
  have positive : ∀ e ∈ ownEvents, nonBlank e.1 ∧ 1 ≤ e.2 := by
    intro e he
    exact of_decide_eq_true (List.all_eq_true.1 hvalidEvents e (mem_documentOf_eventSeqs.2 ((hevents e).1 he)))
  have hrecord := receiptRecord_eq attested.document hresolved true
  rw [passMembers, if_pos rfl, List.append_nil] at hrecord
  have hwalk := walk_receiptMembers attested.runId nonBlankRuns positive attested.digests
  refine ⟨_, _, hrecord, hwalk, fun e he => ?_, fun x => ?_, fun x n => ?_, fun p hp => ?_⟩
  · rcases List.mem_append.1 he with he | he
    · obtain ⟨x, hx, rfl⟩ := List.mem_map.1 he
      exact nonBlankRuns x (mem_ordered.1 hx)
    · obtain ⟨x, hx, rfl⟩ := List.mem_map.1 he
      exact (positive x (mem_ordered.1 hx)).1
  · simp [hruns]
  · simp only [List.mem_append, List.mem_map, reduceCtorEq, and_false, exists_false, false_or, mem_ordered,
      Edge.event.injEq]
    constructor
    · rintro ⟨e, he, rfl, rfl⟩
      exact (hevents e).1 he
    · intro he
      exact ⟨(x, n), (hevents (x, n)).2 he, rfl, rfl⟩
  · simp at hp

/-- The store after the commit can be scanned. -/
theorem Committed.rescan (h : Committed c plan receipts stamp s t protection)
    (collected : Collected s kept before es runs events) : ∃ after, t.scan true = some after := by
  refine scan_of_receipts (fun r hr => ?_)
  rw [h.result] at hr ⊢
  rcases List.mem_append.1 hr with hr | hr
  · exact receiptRecord_of_scan collected.scan hr
  · obtain ⟨new, hnew, rfl⟩ := List.mem_map.1 hr
    obtain ⟨hex, own, attested⟩ := h.attested hnew
    obtain ⟨v, -, hv, -⟩ := h.receipt_edges collected hnew attested
    exact ⟨v, hv⟩

/-- A record after the commit was there before, or is that of a receipt. -/
theorem Committed.origin (h : Committed c plan receipts stamp s t protection)
    (collected : Collected s kept before es runs events) (hafter : t.scan true = some after)
    {record : Value × Option String} (hrecord : record ∈ protectionRecords t after) :
    record ∈ protectionRecords s before ∨
      ∃ r ∈ receipts, ∃ v, receiptRecord s.passes true r = some v ∧ record = (v, some r.range.runId) := by
  have unowned : t.unowned = s.unowned := by rw [h.result, trimmed]
  rcases mem_protectionRecords.1 hrecord with ⟨r, hr, rfl⟩ | ⟨v, hv, rfl⟩
  · rcases h.after_mem collected.scan hafter hr with hr | ⟨new, hnew, v, hv, rfl⟩
    · exact .inl (mem_protectionRecords.2 (.inl ⟨r, hr, rfl⟩))
    · exact .inr ⟨new, hnew, v, hv, rfl⟩
  · exact .inl (mem_protectionRecords.2 (.inr ⟨v, unowned ▸ hv, rfl⟩))

/-- It can be walked. -/
theorem Committed.rewalk (h : Committed c plan receipts stamp s t protection)
    (collected : Collected s kept before es runs events) (hafter : t.scan true = some after) :
    ∃ new, edges (protectionRecords t after) = some new := by
  refine edges_of_walks (fun record hrecord => ?_)
  rcases h.origin collected hafter hrecord with hold | ⟨r, hr, v, hv, rfl⟩
  · obtain ⟨lists, hlists, -⟩ := Option.map_eq_some_iff.1 collected.walked
    obtain ⟨found, -, hfound⟩ := image_of_mapM hlists hold
    exact ⟨found, hfound⟩
  · obtain ⟨hex, own, attested⟩ := h.attested hr
    obtain ⟨v', found, hv', hfound, -⟩ := h.receipt_edges collected hr attested
    cases hv.symm.trans hv'
    exact ⟨found, hfound⟩

section Edges
variable {new : List Edge} {e : Edge}

/-- An edge after the commit was there before, or leads to where the rows of a receipt led. -/
theorem Committed.edge_origin (h : Committed c plan receipts stamp s t protection)
    (collected : Collected s kept before es runs events) (hafter : t.scan true = some after)
    (hnew : edges (protectionRecords t after) = some new) (he : e ∈ new) :
    e ∈ es ∨ ∃ own, (∀ e ∈ own, e ∈ es) ∧ e.valid ∧
      ((∃ x, e = .run x ∧ Reaches s.passes own x) ∨ ∃ x n, e = .event x n ∧ .event x n ∈ own) := by
  obtain ⟨record, hrecord, found, hfound, hin⟩ := (mem_edges hnew).1 he
  rcases h.origin collected hafter hrecord with hold | ⟨r, hr, v, hv, rfl⟩
  · exact .inl ((mem_edges collected.walked).2 ⟨record, hold, found, hfound, hin⟩)
  · obtain ⟨hex, own, attested⟩ := h.attested hr
    obtain ⟨v', found', hv', hfound', hvalid, hrunEdges, heventEdges, hnoPass⟩ := h.receipt_edges collected hr attested
    cases hv.symm.trans hv'
    cases hfound.symm.trans hfound'
    refine .inr ⟨own, h.own_edges collected hr attested, hvalid e hin, ?_⟩
    cases e with
    | run x => exact .inl ⟨x, rfl, (hrunEdges x).1 hin⟩
    | event x n => exact .inr ⟨x, n, rfl, (heventEdges x n).1 hin⟩
    | pass p => exact absurd hin (hnoPass p)

/-- An edge from before is still there, or was one of a covered row: then a receipt leads to where it led. -/
theorem Committed.edge_kept (h : Committed c plan receipts stamp s t protection)
    (collected : Collected s kept before es runs events) (hafter : t.scan true = some after)
    (hnew : edges (protectionRecords t after) = some new) (he : e ∈ es) :
    e ∈ new ∨ ∃ own, e ∈ own ∧ (∀ x, Reaches s.passes own x → .run x ∈ new) ∧
      ∀ x n, .event x n ∈ own → .event x n ∈ new := by
  have unowned : t.unowned = s.unowned := by rw [h.result, trimmed]
  obtain ⟨record, hrecord, found, hfound, hin⟩ := (mem_edges collected.walked).1 he
  rcases mem_protectionRecords.1 hrecord with ⟨old, hold, rfl⟩ | ⟨v, hv, rfl⟩
  · rcases h.before_mem collected.scan hafter hold with hstill | ⟨r, hr, row, hrow, rfl⟩
    · exact .inl ((mem_edges hnew).2 ⟨_, mem_protectionRecords.2 (.inl ⟨old, hstill, rfl⟩), found, hfound, hin⟩)
    · obtain ⟨hex, own, attested⟩ := h.attested hr
      obtain ⟨v, found', hv, hfound', -, hrunEdges, heventEdges, -⟩ := h.receipt_edges collected hr attested
      have hmem : (v, some r.range.runId) ∈ protectionRecords t after :=
        mem_protectionRecords.2 (.inl ⟨_, h.receipt_mem hafter hr hv, rfl⟩)
      refine .inr ⟨own, (mem_edges attested.walked).2 ⟨_, List.mem_map.2 ⟨row, hrow, rfl⟩, found, hfound, hin⟩, ?_, ?_⟩
      · exact fun x hx => (mem_edges hnew).2 ⟨_, hmem, found', hfound', (hrunEdges x).2 hx⟩
      · exact fun x n hx => (mem_edges hnew).2 ⟨_, hmem, found', hfound', (heventEdges x n).2 hx⟩
  · exact .inl ((mem_edges hnew).2 ⟨_, mem_protectionRecords.2 (.inr ⟨v, unowned ▸ hv, rfl⟩), found, hfound, hin⟩)

theorem Committed.pass_origin (h : Committed c plan receipts stamp s t protection)
    (collected : Collected s kept before es runs events) (hafter : t.scan true = some after)
    (hnew : edges (protectionRecords t after) = some new) {p : PassReference} (hp : .pass p ∈ new) : .pass p ∈ es := by
  rcases h.edge_origin collected hafter hnew hp with hp | ⟨-, -, -, ⟨x, hx, -⟩ | ⟨x, n, hx, -⟩⟩
  · exact hp
  · cases hx
  · cases hx

/-- The same runs can be reached. -/
theorem Committed.reaches_iff (h : Committed c plan receipts stamp s t protection)
    (collected : Collected s kept before es runs events) (hafter : t.scan true = some after)
    (hnew : edges (protectionRecords t after) = some new) (x : String) :
    Reaches s.passes new x ↔ Reaches s.passes es x := by
  constructor
  · rintro (hrun | ⟨p, targets, hp, htargets, hx⟩)
    · rcases h.edge_origin collected hafter hnew hrun with hrun | ⟨own, hown, -, ⟨y, hy, hreach⟩ | ⟨y, n, hy, -⟩⟩
      · exact .inl hrun
      · cases hy
        rcases hreach with hrun | ⟨p, targets, hp, rest⟩
        · exact .inl (hown _ hrun)
        · exact .inr ⟨p, targets, hown _ hp, rest⟩
      · cases hy
    · exact .inr ⟨p, targets, h.pass_origin collected hafter hnew hp, htargets, hx⟩
  · rintro (hrun | ⟨p, targets, hp, htargets, hx⟩)
    · rcases h.edge_kept collected hafter hnew hrun with hrun | ⟨own, hin, hruns, -⟩
      · exact .inl hrun
      · exact .inl (hruns x (.inl hin))
    · rcases h.edge_kept collected hafter hnew hp with hp | ⟨own, hin, hruns, -⟩
      · exact .inr ⟨p, targets, hp, htargets, hx⟩
      · exact .inl (hruns x (.inr ⟨p, targets, hin, htargets, hx⟩))

/-- The same events are referred to. -/
theorem Committed.event_iff (h : Committed c plan receipts stamp s t protection)
    (collected : Collected s kept before es runs events) (hafter : t.scan true = some after)
    (hnew : edges (protectionRecords t after) = some new) (x : String) (n : Nat) : .event x n ∈ new ↔ .event x n ∈ es := by
  constructor
  · intro hevent
    rcases h.edge_origin collected hafter hnew hevent with hevent | ⟨own, hown, -, ⟨y, hy, -⟩ | ⟨y, m, hy, hin⟩⟩
    · exact hevent
    · cases hy
    · cases hy
      exact hown _ hin
  · intro hevent
    rcases h.edge_kept collected hafter hnew hevent with hevent | ⟨own, hin, -, hevents⟩
    · exact hevent
    · exact hevents x n hin

end Edges

omit [LinearOrder τ] [DecidableEq β] in
theorem coverage_trimmed (h : s.coverage) : (trimmed stamp receipts s).coverage := by
  simp only [TraceStore.coverage, List.all_eq_true, decide_eq_true_eq] at h ⊢
  exact ⟨h.1, fun row hrow => h.2 row (mem_trimmed_events.1 hrow).1⟩

/-- If the mentions after the commit agree, the same protection is collected. -/
theorem Committed.collects (h : Committed c plan receipts stamp s t protection)
    (agree : ∀ after, t.scan true = some after → Agree (protectionMentions t after)) :
    collectTraceProtection t = some protection := by
  obtain ⟨kept, before, es, runs, events, collected, rfl⟩ := collectTraceProtection_eq_some.1 h.collected
  obtain ⟨after, hafter⟩ := h.rescan collected
  obtain ⟨new, hnew⟩ := h.rewalk collected hafter
  obtain ⟨hpasses, hruns, hevents⟩ := resolve_eq_some collected.resolved
  obtain ⟨⟨newRuns, newEvents⟩, hresolved⟩ := resolve_of_passes s.passes
    (fun p hp => hpasses p (h.pass_origin collected hafter hnew hp))
  obtain ⟨-, hnewRuns, hnewEvents⟩ := resolve_eq_some hresolved
  have passes : t.passes = s.passes := by rw [h.result, trimmed]
  have sameRuns : t.runs = s.runs := by rw [h.result, trimmed]
  refine collectTraceProtection_eq_some.2 ⟨kept, after, new, newRuns, newEvents, ⟨?_, hafter, agree after hafter, hnew,
    fun e he => ?_, ?_, ?_⟩, ?_⟩
  · rw [sameRuns]
    exact collected.ownReasons
  · rcases h.edge_origin collected hafter hnew he with he | ⟨-, -, hvalid, -⟩
    · exact collected.valid e he
    · exact hvalid
  · rw [h.result]
    exact coverage_trimmed collected.coverage
  · rw [passes]
    exact hresolved
  · congr 1
    · refine ordered_congr (fun x => ?_)
      rw [List.mem_append, List.mem_append, hruns, hnewRuns, h.reaches_iff collected hafter hnew]
    · refine ordered_congr (fun x => ?_)
      rw [hevents, hnewEvents, h.event_iff collected hafter hnew]

/-! ### When collecting fails -/

/-- What the record of a receipt mentions of its archive. -/
def archiveMention (r : TraceArchiveReceipt τ) : Mention := ⟨(Value.str r.artifactId).text?, (Value.str r.sha256).text?⟩

omit [LinearOrder τ] [DecidableEq β] in
theorem Attested.archiveMention_eq (h : Attested s r hex own) : archiveMention r = ⟨some r.artifactId, some r.sha256⟩ := by
  have hpath : r.artifactId ≠ "" := ne_empty_of_canonical (h.path ▸ canonicalArtifactId_archive h.isHex)
  have hsha : r.sha256 ≠ "" := by
    rw [h.sha256]
    intro hempty
    have := congrArg String.toList hempty
    simp at this
  rw [archiveMention, text?_str hpath, text?_str hsha]

omit [LinearOrder τ] [DecidableEq β] in
theorem Attested.archive_id? (h : Attested s r hex own) : (archiveMention r).id? = some r.artifactId := by
  rw [h.archiveMention_eq, h.path]
  exact canonicalArtifactId_archive h.isHex

omit [LinearOrder τ] [DecidableEq β] in
/-- Two archives at one path have one digest. -/
theorem sha256_of_path {r' : TraceArchiveReceipt τ} {hex' : String} {own' : List Edge} (h : Attested s r hex own)
    (h' : Attested s r' hex' own') (same : r.artifactId = r'.artifactId) : r.sha256 = r'.sha256 := by
  rw [h.path, h'.path] at same
  have hlist := congrArg String.toList same
  simp only [String.toList_append, List.append_assoc, List.append_cancel_left_eq, List.append_cancel_right_eq] at hlist
  rw [h.sha256, h'.sha256, String.toList_inj.1 hlist]

/-- Some record gives the path of one of the archives another digest. -/
def ArchivePathTaken (s : TraceStore β τ) (receipts : List (TraceArchiveReceipt τ)) : Prop :=
  ∃ scanned, s.scan true = some scanned ∧ ∃ r ∈ receipts, ∃ m ∈ protectionMentions s scanned, ∃ d,
    m.id? = some r.artifactId ∧ m.digest = some d ∧ bare d ≠ bare r.sha256

/-- After the commit, nothing is mentioned but what was mentioned before and the archives. -/
theorem Committed.mentions_covered (h : Committed c plan receipts stamp s t protection)
    (collected : Collected s kept before es runs events) (hafter : t.scan true = some after) :
    Covered (protectionMentions t after) (protectionMentions s before ++ receipts.map archiveMention) ∧
      ∀ m ∈ protectionMentions t after, ∀ i, m.identifier = some i → canonicalArtifactId i ≠ none := by
  have unowned : t.unowned = s.unowned := by rw [h.result, trimmed]
  -- A mention is an old one, that of an archive, or one that a receipt lists.
  have origin : ∀ m ∈ protectionMentions t after, m ∈ protectionMentions s before ∨ ∃ r ∈ receipts, ∃ hex own,
      Attested s r hex own ∧ (m = archiveMention r ∨ m ∈ listedMentions r.artifactRefs r.artifactHashes) := by
    intro m hm
    rcases mem_protectionMentions.1 hm with ⟨record, hrecord, hm⟩ | ⟨v, hv, hm⟩
    · rcases h.after_mem collected.scan hafter hrecord with hold | ⟨r, hr, v, hv, rfl⟩
      · exact .inl (mem_protectionMentions.2 (.inl ⟨record, hold, hm⟩))
      · obtain ⟨hex, own, attested⟩ := h.attested hr
        have hresolvable := resolve_of_passes s.passes (fun p hp =>
          (resolve_eq_some collected.resolved).1 p (h.own_edges collected hr attested _ hp))
        obtain ⟨⟨ownRuns, ownEvents⟩, hresolved⟩ := hresolvable
        cases hv.symm.trans (receiptRecord_eq attested.document hresolved true)
        rw [mentions_receiptMembers attested.digests] at hm
        exact .inr ⟨r, hr, hex, own, attested, List.mem_cons.1 hm⟩
    · exact .inl (mem_protectionMentions.2 (.inr ⟨v, unowned ▸ hv, hm⟩))
  have listedBefore : ∀ r ∈ receipts, ∀ m ∈ coveredMentions s r,
      m ∈ protectionMentions s before ++ receipts.map archiveMention := by
    intro r hr m hm
    obtain ⟨row, hrow, hm⟩ := List.mem_flatMap.1 hm
    exact List.mem_append_left _ (mem_protectionMentions.2 (.inl ⟨_, h.covered_mem collected.scan hr hrow, hm⟩))
  refine ⟨covered_of_each (fun m hm => ?_), fun m hm i hi => ?_⟩
  · rcases origin m hm with hold | ⟨r, hr, hex, own, attested, rfl | hlisted⟩
    · exact covered_of_subset (fun m' hm' => List.mem_singleton.1 hm' ▸ List.mem_append_left _ hold)
    · exact covered_of_subset (fun m' hm' => List.mem_singleton.1 hm' ▸ List.mem_append_right _ (List.mem_map_of_mem hr))
    · exact (attested.listed.left (fun m' hm' => List.mem_singleton.1 hm' ▸ hlisted)).mono (listedBefore r hr)
  · rcases origin m hm with hold | ⟨r, hr, hex, own, attested, rfl | hlisted⟩
    · exact collected.agree.valid m hold i hi
    · rw [attested.archiveMention_eq] at hi
      cases hi
      rw [attested.path, canonicalArtifactId_archive attested.isHex]
      simp
    · exact attested.listedValid m hlisted i hi

/-- Mentions that agree still do with the archives, if none gives the path of an archive another digest. -/
theorem Committed.agree_archives (h : Committed c plan receipts stamp s t protection) {ms : List Mention} (agree : Agree ms)
    (fits : ∀ r ∈ receipts, ∀ m ∈ ms, ∀ d, m.id? = some r.artifactId → m.digest = some d → bare d = bare r.sha256) :
    Agree (ms ++ receipts.map archiveMention) := by
  refine ⟨fun m hm => ?_, fun m hm m' hm' id d d' hid hid' hd hd' => ?_⟩
  · rcases List.mem_append.1 hm with hm | hm
    · exact agree.valid m hm
    · obtain ⟨r, hr, rfl⟩ := List.mem_map.1 hm
      obtain ⟨hex, own, attested⟩ := h.attested hr
      intro i hi
      rw [attested.archiveMention_eq] at hi
      cases hi
      rw [attested.path, canonicalArtifactId_archive attested.isHex]
      simp
  · have sha {r : TraceArchiveReceipt τ} (hr : r ∈ receipts) {id d : String} (hid : (archiveMention r).id? = some id)
        (hd : (archiveMention r).digest = some d) : r.artifactId = id ∧ r.sha256 = d := by
      obtain ⟨hex, own, attested⟩ := h.attested hr
      rw [attested.archive_id?] at hid
      rw [attested.archiveMention_eq] at hd
      exact ⟨Option.some.inj hid, Option.some.inj hd⟩
    rcases List.mem_append.1 hm with hm | hm <;> rcases List.mem_append.1 hm' with hm' | hm'
    · exact agree.same m hm m' hm' id d d' hid hid' hd hd'
    · obtain ⟨r, hr, rfl⟩ := List.mem_map.1 hm'
      obtain ⟨rfl, rfl⟩ := sha hr hid' hd'
      exact fits r hr m hm d hid hd
    · obtain ⟨r, hr, rfl⟩ := List.mem_map.1 hm
      obtain ⟨rfl, rfl⟩ := sha hr hid hd
      exact (fits r hr m' hm' d' hid' hd').symm
    · obtain ⟨r, hr, rfl⟩ := List.mem_map.1 hm
      obtain ⟨r', hr', rfl⟩ := List.mem_map.1 hm'
      obtain ⟨rfl, rfl⟩ := sha hr hid hd
      obtain ⟨hpath, rfl⟩ := sha hr' hid' hd'
      obtain ⟨hex, own, attested⟩ := h.attested hr
      obtain ⟨hex', own', attested'⟩ := h.attested hr'
      rw [sha256_of_path attested attested' hpath.symm]

/-- If no path is taken, the mentions after the commit agree. -/
theorem Committed.agree_after (h : Committed c plan receipts stamp s t protection) (free : ¬ ArchivePathTaken s receipts)
    (hafter : t.scan true = some after) : Agree (protectionMentions t after) := by
  obtain ⟨kept, before, es, runs, events, collected, -⟩ := collectTraceProtection_eq_some.1 h.collected
  obtain ⟨covered, valid⟩ := h.mentions_covered collected hafter
  refine covered.agree (h.agree_archives collected.agree (fun r hr m hm d hid hd => ?_)) valid
  by_contra hne
  exact free ⟨before, collected.scan, r, hr, m, hm, d, hid, hd, hne⟩

end Kept

/-- An application of a plan leaves protection as it was: the same runs and the same events, or none at all,
because collecting fails at a record that gives the path of a new archive another digest. -/
theorem protection_kept {β τ : Type} [LinearOrder τ] [DecidableEq β] (c : Codec β τ) {storeIdentity : String}
    {plan : TraceRetentionPlan τ} {config : RetentionConfig} {latest stamp : τ} {s t : TraceStore β τ}
    {done : List (TraceArchiveReceipt τ) × Int}
    (applied : applyTraceRetention c storeIdentity plan config latest stamp s = (.ok done, t)) :
    collectTraceProtection t = collectTraceProtection s ∨
      collectTraceProtection t = none ∧ ArchivePathTaken s done.1 := by
  rcases applyTraceRetention_ok applied with rfl | ⟨receipts, files, hdone, hcommit⟩
  · exact .inl rfl
  · obtain ⟨protection, committed⟩ := commitTraceRetention_eq_some c hcommit
    have hbefore : collectTraceProtection s = some protection := committed.collected
    by_cases taken : ArchivePathTaken s receipts
    · cases hafter : collectTraceProtection t with
      | none =>
        obtain ⟨scanned, hscan, r, hr, m, rest⟩ := taken
        refine .inr ⟨rfl, scanned, hscan, r.stamped stamp, ?_, m, rest⟩
        rw [hdone]
        exact List.mem_map_of_mem hr
      | some after =>
        obtain ⟨kept, scanned, es, runs, events, collected, -⟩ := collectTraceProtection_eq_some.1 hafter
        rw [hbefore, ← hafter]
        refine .inl (committed.collects (fun after' hafter' => ?_))
        cases hafter'.symm.trans collected.scan
        exact collected.agree
    · rw [hbefore]
      exact .inl (committed.collects (fun after hafter => committed.agree_after taken hafter))

/-! ### References -/

section References
variable {β τ : Type}

/-- What was referenced still is, and so are the archives of the new receipts. -/
structure Retained (s t : TraceStore β τ) (before after : References) : Prop where
  files : ∀ id, before.refs.get id ≠ none → after.refs.get id ≠ none
  stated : ∀ id d, before.refs.get id = some (some d) → ∃ d', after.refs.get id = some (some d') ∧ bare d' = bare d
  contents : ∀ x ∈ before.hashes, x ∈ after.hashes ∨ bare x ∈ after.hashes
  archives : ∀ r ∈ t.receipts, r ∉ s.receipts → ∃ d, after.refs.get r.artifactId = some (some d) ∧ bare d = bare r.sha256

/-- Nothing else is referenced. -/
structure NothingElse (archives : List (TraceArchiveReceipt τ)) (before after : References) : Prop where
  files : ∀ id, after.refs.get id ≠ none → before.refs.get id ≠ none ∨ ∃ r ∈ archives, r.artifactId = id
  contents : ∀ x ∈ after.hashes, (∃ y ∈ before.hashes, x = y ∨ x = bare y) ∨ ∃ r ∈ archives, bare r.sha256 = x

end References

/-! ### An application -/

def noteArchive : String := "57b7110c0dc32b96105e4334252e3c43cae36725cf68f5dd2fae7e57a791b95c"

def noteIdentity : String := "sha256:5f3d3d2ef8aec707768ea88db31e9fe8e880550d6abe064009eecdf2842895a3"

-- The three instants of an application are numerals.
local instance threeInstants : NeZero 3 := ⟨by decide⟩

/-- The plan to archive the first event of a run, made of the digests that the code computes for it. -/
def notePlan : TraceRetentionPlan (Fin 3) where
  planId := "sha256:ceb39f3f10c3c5ce17b0efe30b57eb5c3ccd6b0898c04bbc80036f3a8ebf1b64"
  storeIdentity := noteIdentity
  config := ⟨true, some 1⟩
  cutoff := 1
  protectionSha256 := "sha256:d4cee7f744ea4179c2223951314593a4aa29c741083ffd177e52fa5af12d0463"
  prefixes := [noteRange]

/-- SHA-256 of the four documents that the application hashes. -/
def retentionCodec : Codec Value (Fin 3) :=
  { sampleCodec [
      (Value.canon (.arr [noteEvent.dump noteCodec]), "95830e2741164a104878a4c1ccfbd0890a1013f59837d8b725c9203a671edf17"),
      (.obj [("event_seqs", .obj []), ("run_ids", .arr [])],
        "d4cee7f744ea4179c2223951314593a4aa29c741083ffd177e52fa5af12d0463"),
      (Value.canon (planBody noteCodec noteIdentity notePlan.config 1 notePlan.protectionSha256 [noteRange]),
        "ceb39f3f10c3c5ce17b0efe30b57eb5c3ccd6b0898c04bbc80036f3a8ebf1b64"),
      (Value.canon ((⟨noteRange, [noteEvent], [], []⟩ : TraceArchive (Fin 3)).document noteCodec), noteArchive)] with
    size := fun _ => 376 }

/-- A finished run with two events, beside records of other tables. -/
def finishedTraces (others : List Value) : TraceStore Value (Fin 3) :=
  { emptyTraces with
    runs := [.obj [("id", .str "r1"), ("manifest", .obj []), ("revision", .int 1), ("status", .str "completed")]]
    others := others.map (⟨·, none, none⟩)
    single := by
      intro r hr
      obtain ⟨v, -, rfl⟩ := List.mem_map.1 hr
      exact .inl rfl
    events := [noteEvent, ⟨"r1", 2, .obj [("run_id", .str "r1"), ("seq", .int 2)], some 0⟩] }

/-- A record that gives the path of the archive another digest. -/
def otherContent : Value :=
  .obj [("artifact_id", .str ("trace-archives/sha256/" ++ noteArchive ++ ".json")), ("sha256", .str "00")]

theorem applied_of_toOption {β τ ε α : Type} {result : Except ε α × TraceStore β τ} {done : α}
    (h : result.1.toOption = some done) : result = (.ok done, result.2) := by
  obtain ⟨outcome, t⟩ := result
  cases outcome with
  | error e => cases h
  | ok a =>
    cases h
    rfl

-- The store before and after, for protection and for garbage collection; the application is evaluated once.
theorem finished_applied :
    let s := finishedTraces []
    let result := applyTraceRetention retentionCodec noteIdentity notePlan ⟨true, some 1⟩ 2 2 s
    result.1.toOption.isSome ∧ (collectTraceProtection s).isSome ∧ (collectTraceProtection result.2).isSome ∧
      s.referenced.isSome ∧ result.2.referenced.isSome := by
  decide +kernel

theorem taken_applied :
    let s := finishedTraces [otherContent]
    let result := applyTraceRetention retentionCodec noteIdentity notePlan ⟨true, some 1⟩ 2 2 s
    result.1.toOption.isSome ∧ (collectTraceProtection s).isSome ∧ collectTraceProtection result.2 = none ∧
      s.referenced.isSome ∧ result.2.referenced = none := by
  decide +kernel

theorem finished_protection_kept :
    ∃ done t, applyTraceRetention retentionCodec noteIdentity notePlan ⟨true, some 1⟩ 2 2 (finishedTraces []) =
      (.ok done, t) ∧ collectTraceProtection t ≠ none ∧
        collectTraceProtection t = collectTraceProtection (finishedTraces []) := by
  obtain ⟨applied, -, hafter, -⟩ := finished_applied
  obtain ⟨done, hdone⟩ := Option.isSome_iff_exists.1 applied
  have hpair := applied_of_toOption hdone
  have hsome := Option.isSome_iff_ne_none.1 hafter
  rcases protection_kept retentionCodec hpair with hsame | ⟨hnone, -⟩
  · exact ⟨done, _, hpair, hsome, hsame⟩
  · exact absurd hnone hsome

/-- With a record that takes the path of the archive, protection cannot be collected once the plan is applied. -/
theorem taken_path_unprotects :
    ∃ done t, applyTraceRetention retentionCodec noteIdentity notePlan ⟨true, some 1⟩ 2 2 (finishedTraces [otherContent]) =
      (.ok done, t) ∧ collectTraceProtection (finishedTraces [otherContent]) ≠ none ∧ collectTraceProtection t = none := by
  obtain ⟨applied, hbefore, hafter, -⟩ := taken_applied
  obtain ⟨done, hdone⟩ := Option.isSome_iff_exists.1 applied
  exact ⟨done, _, applied_of_toOption hdone, Option.isSome_iff_ne_none.1 hbefore, hafter⟩

end Motte.Trace
