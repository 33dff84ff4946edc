import Motte.Foundation.Numbering
import Motte.Trace.Retention

/-! What a commit of retention has checked, and what it does.

The plan that is committed is the plan of the store as it is, so each of its ranges
is a proper front part of the live rows of a run that nothing protects. The commit
adds the receipts and deletes the rows of their ranges; it changes nothing else. -/
namespace Motte.Trace
open Foundation

section Commit
variable {β τ : Type}

/-! ### Reading rows -/

theorem storedTraceEvent_eq_some {row e : StoredTraceEvent τ} :
    storedTraceEvent row = some e ↔
      (row.payload.get? "run_id" = some (.str row.runId) ∧ row.payload.get? "seq" = some (.int row.seq)) ∧
        row.validate = some e := by
  simp only [storedTraceEvent, Option.bind_eq_bind, Option.bind_eq_some_iff, guard_eq_some_iff, exists_const]

/-- Validation keeps the run and the number of a row. -/
theorem StoredTraceEvent.validate_keeps {e f : StoredTraceEvent τ} (h : e.validate = some f) :
    f.runId = e.runId ∧ f.seq = e.seq ∧ f.storedAt = e.storedAt ∧ f.payload = e.payload.canon := by
  obtain ⟨-, members, -, payload, hsnap, rfl⟩ := validate_eq_some.1 h
  refine ⟨rfl, rfl, rfl, ?_⟩
  unfold Value.snapshot at hsnap
  split at hsnap
  · exact (Option.some.inj hsnap).symm
  · cases hsnap

/-- A row whose payload is in canonical form is read as it is. -/
theorem StoredTraceEvent.validate_self {e f : StoredTraceEvent τ} (h : e.validate = some f)
    (canonical : e.payload.canon = e.payload) : f = e := by
  obtain ⟨hrun, hseq, htime, hpayload⟩ := validate_keeps h
  cases e
  cases f
  simp only at hrun hseq htime hpayload canonical
  rw [hrun, hseq, htime, hpayload, canonical]

theorem mapM_self {read : StoredTraceEvent τ → Option (StoredTraceEvent τ)} {rows found : List (StoredTraceEvent τ)}
    (h : rows.mapM read = some found) (self : ∀ row ∈ rows, ∀ e, read row = some e → e = row) : found = rows := by
  rw [mapM_eq_some_iff] at h
  induction h with
  | nil => rfl
  | @cons row e rest found' hread _ ih =>
    rw [self row (List.mem_cons_self ..) e hread, ih (fun row' hrow => self row' (List.mem_cons_of_mem row hrow))]

theorem TraceStore.mem_rowsOf {s : TraceStore β τ} {runId : String} {row : StoredTraceEvent τ} :
    row ∈ s.rowsOf runId ↔ row ∈ s.events ∧ row.runId = runId := by
  rw [TraceStore.rowsOf, List.mem_insertionSort, List.mem_filter, decide_eq_true_eq]

/-! ### Selection -/

section Plan
variable [LinearOrder τ]

/-- What is selected is a proper front part of the rows, numbered from the expected number on, of rows
that are old enough and not referred to. -/
theorem selectRows_spec (cutoff : τ) (protectedSeqs : List Nat) (expected : Int) (rows : List (StoredTraceEvent τ)) :
    ∃ count, selectRows cutoff protectedSeqs expected rows = rows.take count ∧
      (rows = [] ∨ count < rows.length) ∧ Numbered (·.seq) expected (rows.take count) ∧
      ∀ row ∈ rows.take count, row.storedAt.any (· < cutoff) ∧ ∀ n ∈ protectedSeqs, (n : Int) ≠ row.seq := by
  induction rows generalizing expected with
  | nil => exact ⟨0, rfl, .inl rfl, trivial, fun _ h => absurd h List.not_mem_nil⟩
  | cons row rest ih =>
    cases rest with
    | nil => exact ⟨0, rfl, .inr Nat.one_pos, trivial, fun _ h => absurd h List.not_mem_nil⟩
    | cons next rest =>
      rw [selectRows]
      split
      · exact ⟨0, rfl, .inr (Nat.succ_pos _), trivial, fun _ h => absurd h List.not_mem_nil⟩
      · rename_i hrow
        rw [not_or, not_or, not_not, not_not, List.any_eq_true, not_exists] at hrow
        obtain ⟨count, hcount, hlen, hnumbered, hfree⟩ := ih (expected + 1)
        refine ⟨count + 1, ?_, .inr ?_, ⟨hrow.1, hnumbered⟩, ?_⟩
        · rw [hcount, List.take_succ_cons]
        · rcases hlen with h | h
          · cases h
          · exact Nat.succ_lt_succ h
        · intro row' hrow'
          rw [List.take_succ_cons] at hrow'
          rcases List.mem_cons.1 hrow' with rfl | hrow'
          · refine ⟨hrow.2.1, fun n hn heq => hrow.2.2 n ⟨hn, decide_eq_true heq⟩⟩
          · exact hfree row' hrow'

/-- A range of a plan: the front rows of a finished run that nothing protects, up to but not including
the last one. -/
structure Selected (s : TraceStore β τ) (protection : TraceProtection) (cutoff : τ) (range : TracePrefix)
    (rows : List (StoredTraceEvent τ)) (count : Nat) : Prop where
  unprotected : range.runId ∉ protection.runIds
  read : s.storedForRun range.runId = some rows
  increasing : rows.Pairwise (fun a b => a.seq < b.seq)
  some_left : count < rows.length
  some_taken : 0 < count
  numbered : Numbered (·.seq) range.firstSeq (rows.take count)
  last : range.lastSeq = range.firstSeq + count - 1
  highest : (rows.getLast?).map (·.seq) = some range.keepSeq
  free : ∀ row ∈ rows.take count, row.storedAt.any (· < cutoff) ∧
    ∀ e ∈ protection.eventSeqs, e.1 = range.runId → (e.2 : Int) ≠ row.seq
  valid : range.validate = some range

variable (c : Codec β τ)

theorem runPrefix_eq_some {s : TraceStore β τ} {boundaries : String → Int} {protection : TraceProtection} {cutoff : τ}
    {run : Value} {range : TracePrefix} (h : runPrefix c s boundaries protection cutoff run = some (some range)) :
    (run.get? "id").bind identity? = some range.runId ∧ ∃ rows count, Selected s protection cutoff range rows count := by
  simp only [runPrefix, Option.bind_eq_bind, Option.bind_eq_some_iff] at h
  obtain ⟨runId, hid, h⟩ := h
  split at h
  · cases h
  · rename_i hfree
    rw [not_or] at hfree
    simp only [Option.bind_eq_some_iff, guard_eq_some_iff, exists_const] at h
    obtain ⟨rows, hrows, ⟨hsorted, -⟩, h⟩ := h
    obtain ⟨count, hselected, hlen, hnumbered, hprotected⟩ := selectRows_spec cutoff
      ((protection.eventSeqs.filter (fun e => e.1 = runId)).map Prod.snd) (boundaries runId + 1) rows
    rw [hselected] at h
    split at h
    · rename_i first rest last highest htake hlast hhighest
      simp only [Option.bind_eq_some_iff, Option.some.injEq] at h
      obtain ⟨revision, -, status, -, digest, -, range', hvalid, rfl⟩ := h
      have hself := TracePrefix.validate_idem hvalid
      obtain ⟨-, -, digest', -, -, -, rfl⟩ := TracePrefix.validate_eq_some.1 hvalid
      have hne : rows ≠ [] := by
        rintro rfl
        cases hhighest
      have hcount : count < rows.length := hlen.resolve_left hne
      have hlength : (rows.take count).length = count := List.length_take_of_le (le_of_lt hcount)
      have hfirst : first.seq = boundaries runId + 1 := by
        rw [htake] at hnumbered
        exact hnumbered.1
      have hend := hnumbered.getLast hlast
      refine ⟨Option.bind_eq_some_iff.2 hid, rows, count, hfree.1, hrows, hsorted, hcount, ?_, hfirst ▸ hnumbered, ?_,
        ?_, ?_, hself⟩
      · refine Nat.pos_of_ne_zero (fun hzero => ?_)
        rw [hzero] at htake
        cases htake
      · show last.seq = first.seq + count - 1
        rw [hend, hlength, hfirst]
      · rw [hhighest]
        rfl
      · intro row hrow
        obtain ⟨htime, hseqs⟩ := hprotected row hrow
        exact ⟨htime, fun e he hrun =>
          hseqs e.2 (List.mem_map_of_mem (List.mem_filter.2 ⟨he, decide_eq_true hrun⟩))⟩
    · cases h

/-- The ranges of a plan, one at most for each run. -/
theorem planAtCutoff_eq_some {storeIdentity : String} {s : TraceStore β τ} {config : RetentionConfig} {cutoff : τ}
    {plan : TraceRetentionPlan τ} (h : planAtCutoff c storeIdentity s config cutoff = some plan) :
    ∃ protection, collectTraceProtection s = some protection ∧
      (plan.prefixes.map (·.runId)).Nodup ∧
      ∀ range ∈ plan.prefixes, range.runId ∈ s.runIds ∧ ∃ rows count, Selected s protection cutoff range rows count := by
  simp only [planAtCutoff, Option.bind_eq_bind, Option.bind_eq_some_iff, guard_eq_some_iff, exists_const,
    Option.some.injEq] at h
  obtain ⟨-, receipts, -, boundaries, -, -, protection, hprotection, hnodup, found, hfound, -, -, -, -, rfl⟩ := h
  have perm := List.perm_insertionSort (fun a b : TracePrefix => a.runId ≤ b.runId) (found.filterMap id)
  refine ⟨protection, hprotection, ?_, ?_⟩
  · show ((List.insertionSort _ (found.filterMap id)).map (·.runId)).Nodup
    rw [(perm.map _).nodup_iff]
    refine hnodup.sublist ?_
    clear perm hnodup hprotection
    -- Each range stands for the run it was found at.
    rw [TraceStore.runIds]
    generalize s.runs = runs at hfound
    rw [mapM_eq_some_iff] at hfound
    induction hfound with
    | nil => exact .slnil
    | @cons run range rest found' hrun _ ih =>
      cases range with
      | none =>
        rw [List.filterMap_cons_none rfl]
        refine ih.trans ?_
        rw [← List.singleton_append, List.filterMap_append]
        exact List.sublist_append_right ..
      | some range =>
        have hname : runName run = some range.runId := by
          obtain ⟨v, hv, hid⟩ := Option.bind_eq_some_iff.1 (runPrefix_eq_some c hrun).1
          rw [runName, hv]
          exact (Option.filter_eq_some_iff.1 hid).1
        rw [List.filterMap_cons_some (f := id) rfl, List.map_cons, List.filterMap_cons_some hname]
        exact ih.cons_cons _
  · intro range hrange
    have hmem : range ∈ found.filterMap id := perm.mem_iff.1 hrange
    obtain ⟨entry, hentry, rfl⟩ := List.mem_filterMap.1 hmem
    obtain ⟨run, hrun, hprefix⟩ := source_of_mapM hfound hentry
    obtain ⟨hid, hselected⟩ := runPrefix_eq_some c hprefix
    refine ⟨List.mem_filterMap.2 ⟨run, hrun, ?_⟩, hselected⟩
    obtain ⟨v, hv, hid⟩ := Option.bind_eq_some_iff.1 hid
    rw [runName, hv]
    exact (Option.filter_eq_some_iff.1 hid).1

/-! ### The transaction -/

/-- The receipt as it is stored. -/
def TraceArchiveReceipt.stamped (stamp : τ) (r : TraceArchiveReceipt τ) : TraceArchiveReceipt τ :=
  { r with committedAt := some stamp }

/-- The store with the receipts and without the rows they cover. -/
def trimmed (stamp : τ) (receipts : List (TraceArchiveReceipt τ)) (s : TraceStore β τ) : TraceStore β τ :=
  { s with
    receipts := s.receipts ++ receipts.map (·.stamped stamp)
    events := s.events.filter (fun row => receipts.all (fun r => !inRange r row)) }

omit [LinearOrder τ] in
theorem trimAll_eq {stamp : τ} {receipts : List (TraceArchiveReceipt τ)} {s t : TraceStore β τ}
    (h : receipts.foldlM (trim stamp) s = some t) : t = trimmed stamp receipts s := by
  induction receipts generalizing s with
  | nil =>
    cases h
    simp [trimmed]
  | cons r rest ih =>
    simp only [List.foldlM_cons, Option.bind_eq_bind, Option.bind_eq_some_iff] at h
    obtain ⟨u, hu, h⟩ := h
    simp only [trim, Option.bind_eq_bind, Option.bind_eq_some_iff, guard_eq_some_iff, exists_const,
      Option.some.injEq] at hu
    obtain ⟨-, -, rfl⟩ := hu
    rw [ih h]
    simp only [trimmed, TraceArchiveReceipt.stamped, List.filter_filter, List.all_cons, List.map_cons,
      List.append_assoc, List.singleton_append, Bool.and_comm]

variable [DecidableEq β]

/-- What holds of a commit that succeeds. -/
structure Committed (plan : TraceRetentionPlan τ) (receipts : List (TraceArchiveReceipt τ)) (stamp : τ)
    (s t : TraceStore β τ) (protection : TraceProtection) : Prop where
  result : t = trimmed stamp receipts s
  collected : collectTraceProtection s = some protection
  once : (receipts.map (·.range.runId)).Nodup
  owned : ∀ r ∈ receipts, r.range.runId ∈ s.runIds
  selected : ∀ r ∈ receipts, ∃ rows count, Selected s protection plan.cutoff r.range rows count
  pending : ∀ r ∈ receipts, pendingReceipt plan r
  verified : ∀ r ∈ receipts, ∃ data, s.files.get r.artifactId = some data ∧ verifyTraceArchive c data r
  unchanged : ∀ r ∈ receipts, unchangedRows c s r

theorem commitTraceRetention_eq_some {storeIdentity : String} {plan : TraceRetentionPlan τ}
    {receipts : List (TraceArchiveReceipt τ)} {latest stamp : τ} {s t : TraceStore β τ}
    (h : commitTraceRetention c storeIdentity plan receipts latest stamp s = some t) :
    ∃ protection, Committed c plan receipts stamp s t protection := by
  simp only [commitTraceRetention, Option.bind_eq_bind, Option.bind_eq_some_iff, guard_eq_some_iff, exists_const,
    List.all_eq_true] at h
  obtain ⟨-, ⟨hranges, hpending⟩, current, hcurrent, ⟨rfl, -⟩, hverified, -, -, -, -, -, -, hunchanged, htrim⟩ := h
  obtain ⟨protection, hprotection, hnodup, hselected⟩ := planAtCutoff_eq_some c hcurrent
  have hrange {r : TraceArchiveReceipt τ} (hr : r ∈ receipts) : r.range ∈ current.prefixes :=
    hranges ▸ List.mem_map_of_mem hr
  refine ⟨protection, trimAll_eq htrim, hprotection, ?_, fun r hr => (hselected _ (hrange hr)).1,
    fun r hr => (hselected _ (hrange hr)).2, hpending, fun r hr => ?_, hunchanged⟩
  · rw [← hranges, List.map_map] at hnodup
    exact hnodup
  · exact (Option.any_eq_true ..).1 (hverified r hr)

omit [LinearOrder τ] in
/-- The file of a receipt holds the live rows of its range, as they are read. -/
theorem unchangedRows_archived {s : TraceStore β τ} {r : TraceArchiveReceipt τ} (h : unchangedRows c s r) :
    ∃ data body a rows, s.files.get r.artifactId = some data ∧ decodeTraceArchive c data = some body ∧
      contents c body = some a ∧ (s.rowsOf r.range.runId).mapM StoredTraceEvent.validate = some rows ∧
      a.events = rows.filter (fun row => r.range.firstSeq ≤ row.seq ∧ row.seq ≤ r.range.lastSeq) ∧
      archiveOf c r.range a.events = some a := by
  unfold unchangedRows at h
  cases hrows : (s.rowsOf r.range.runId).mapM StoredTraceEvent.validate with
  | none =>
    rw [hrows] at h
    cases h
  | some rows =>
    simp only [hrows, Option.any_some, decide_eq_true_eq] at h
    obtain ⟨-, -, -, hbuilt, hfile⟩ := h
    obtain ⟨data, hdata⟩ := Option.isSome_iff_exists.1 hbuilt
    obtain ⟨a, body, harchive, -, hevents, hdecode, hcontents⟩ := decode_of_build c hdata
    have hself : ∀ row ∈ rows, row.validate = some row := by
      intro row hrow
      obtain ⟨row', -, hvalid⟩ := source_of_mapM hrows hrow
      exact StoredTraceEvent.validate_idem hvalid
    have hsame := mapM_self hevents (fun row hrow e he =>
      Option.some.inj (he.symm.trans (hself row (List.mem_of_mem_filter hrow))))
    exact ⟨data, body, a, rows, hfile ▸ hdata, hdecode, hcontents, rfl, hsame, hsame ▸ harchive⟩

end Plan

end Commit

end Motte.Trace
