import Motte.Storage.Terminal

/-! What beginning, dispatching and completing an attempt do exactly.

An attempt is begun only for a case that has neither a result nor an open attempt.
Dispatching and completing touch that one attempt, and a completion has stored the
result it was given. An append writes rows of its own run only, and where it
requires that no attempt be open it has found none. -/
namespace Motte.Storage
open Foundation

/-! ### Answered requests -/

/-- What an answered `begin` has found and what it leaves. -/
structure Begun (r : AttemptInput) (a : Attempt) (s t : String → Option Attempt) (results results' : CaseRuns) :
    Prop where
  scope : a.scope = (r.runId, r.caseId, r.trialId.getD "")
  opened : a.status.isOpen = true
  fresh : s a.id = none
  unblocked : ∀ k old, s k = some old → old.scope = a.scope → old.status.isOpen = false
  unwritten : a.trialId = "" → results.get (a.runId, a.caseId) = none
  added : ∀ k, t k = if k = a.id then some a else s k
  rows : results' = results

/-- One attempt is another than before, and still the same attempt. -/
structure MovedOn (id : String) (u : Attempt) (s t : String → Option Attempt) : Prop where
  found : ∃ a, s id = some a ∧ u.identity = a.identity
  stored : ∀ k, t k = if k = id then some u else s k

/-- What an answered `dispatch` leaves. -/
structure Dispatched (r : DispatchRequest) (u : Attempt) (s t : String → Option Attempt)
    (results results' : CaseRuns) : Prop extends MovedOn r.attemptId u s t where
  opened : u.status.isOpen = true
  rows : results' = results

/-- What an answered `complete` leaves: the attempt and the result it was given. -/
structure Completed (r : CompleteRequest) (u : Attempt) (s t : String → Option Attempt)
    (results results' : CaseRuns) : Prop extends MovedOn r.attemptId u s t where
  own : ∀ row ∈ r.caseRun, row.runId = u.runId ∧ row.caseId = u.caseId
  kept : ∀ key, (∀ row ∈ r.caseRun, key ≠ (row.runId, row.caseId)) → results'.get key = results.get key
  written : ∀ row ∈ r.caseRun, ∃ ordinal, results'.get (row.runId, row.caseId) = some (ordinal, row)

/-- The rows an append may have written, answered or not. -/
def RowsWritten (r : AppendRequest) (attempts : String → Option Attempt) (results results' : CaseRuns) : Prop :=
  ∀ key, results'.get key = results.get key ∨ (key.1 = r.runId ∧ r.caseRows ≠ [] ∧
    (r.requireNoOpenAttempts = true → r.expectedRunRevision ≠ none →
      ∀ k a, attempts k = some a → a.runId = r.runId → a.status.isOpen = false))

theorem RowsWritten.same {r : AppendRequest} {attempts : String → Option Attempt} {results : CaseRuns} :
    RowsWritten r attempts results results := fun _ => .inl rfl

/-! ### Checks without a table -/

theorem newAttempt_ok {r : AttemptInput} {a : Attempt} (h : newAttempt r = .ok a) :
    a.scope = (r.runId, r.caseId, r.trialId.getD "") ∧ a.status.isOpen = true := by
  simp only [newAttempt, except_bind_ok_iff, ensure_ok_iff, except_pure_ok_iff, exists_const] at h
  obtain ⟨-, -, -, -, -, rfl⟩ := h
  exact ⟨rfl, rfl⟩

theorem checkCaseResult_ok {results : CaseRuns} {row : CaseRow} {u : Unit}
    (h : checkCaseResult results (some row) = .ok u) :
    ∃ ordinal, (results.upsert row).get (row.runId, row.caseId) = some (ordinal, row) := by
  have hsame : ∀ old ∈ results.get (row.runId, row.caseId), old.2 = row := ensure_ok_iff.1 h
  unfold CaseRuns.upsert
  split
  · rename_i found hfound
    exact ⟨found.1, by rw [hfound, ← hsame found hfound]⟩
  · exact ⟨_, Table.get_set_self _ _ _⟩

theorem CaseRuns.get_upsert_ne {results : CaseRuns} {row : CaseRow} {key : String × String}
    (h : key ≠ (row.runId, row.caseId)) : (results.upsert row).get key = results.get key := by
  unfold CaseRuns.upsert
  split
  · rfl
  · exact Table.get_set_ne _ _ h

theorem validateCaseRows_run {runId : String} {rows : List CaseRow} {seen : List String} {u : Unit}
    (h : validateCaseRows runId rows seen = .ok u) : ∀ row ∈ rows, row.runId = runId := by
  induction rows generalizing seen with
  | nil => exact fun _ hrow => nomatch hrow
  | cons row rest ih =>
    simp only [validateCaseRows, except_bind_ok_iff, ensure_ok_iff, exists_const] at h
    obtain ⟨hrun, -, -, h⟩ := h
    exact List.forall_mem_cons.2 ⟨hrun, ih h⟩

theorem prepareAppend_run {r : AppendRequest} {prepared : PreparedAppend} (h : prepareAppend r = .ok prepared) :
    ∀ row ∈ r.caseRows, row.runId = r.runId := by
  simp only [prepareAppend, except_bind_ok_iff, ensure_ok_iff, exists_const] at h
  obtain ⟨_, _, _, _, _, hrows, _⟩ := h
  exact validateCaseRows_run hrows

theorem completed_of_ok {r : CompleteRequest} {a u : Attempt} {pending : Option Event}
    {s t : String → Option Attempt} {results : CaseRuns} {c : Unit} (ha : s r.attemptId = some a)
    (h : completeAttempt r a = .ok (pending, u)) (hcheck : checkCaseResult results r.caseRun = .ok c)
    (ht : ∀ k, t k = if k = r.attemptId then some u else s k) :
    Completed r u s t results (match r.caseRun with
      | none => results
      | some row => results.upsert row) := by
  obtain ⟨-, hown, hu⟩ := completeAttempt_ok h
  have hsame := (advances_of_ok hu).identity
  have hscope := Attempt.scope_of_identity hsame
  refine ⟨⟨⟨a, ha, hsame⟩, ht⟩, fun row hrow => ?_, fun key hkey => ?_, fun row hrow => ?_⟩
  · obtain ⟨hrun, hcase⟩ := hown row hrow
    exact ⟨hrun.trans (congrArg (·.1) hscope).symm, hcase.trans (congrArg (·.2.1) hscope).symm⟩
  · split
    · rfl
    · rename_i row hrow
      exact CaseRuns.get_upsert_ne (hkey row hrow)
  · have hrow : r.caseRun = some row := hrow
    rw [hrow] at hcheck ⊢
    exact checkCaseResult_ok hcheck

/-! ### The SQLite store -/

namespace Sqlite
variable {s : Audit}

theorem beginAttempt_begun (r : BeginAttemptRequest) :
    Op.wp (beginAttempt r) s (fun a t => Begun r.record a s.attempt t.attempt s.caseRuns t.caseRuns)
      (fun _ t => t = s) := by
  simp only [beginAttempt, Op.wp_bind, Op.wp_lift, Op.wp_atomically, Op.wp_gets, Op.wp_modify, Op.wp_pure,
    ensure_ok_iff]
  refine ⟨fun stored hstored => ⟨fun _ _ => ⟨fun _ _ => ⟨fun _ hresult => ⟨fun _ hopen => ⟨fun _ hid => ?_, ?_⟩, ?_⟩,
    ?_⟩, ?_⟩, ?_⟩, ?_⟩
  · obtain ⟨hscope, hopened⟩ := newAttempt_ok hstored
    refine ⟨hscope, hopened, ?_, fun k old hold hscope => ?_, hresult, fun k => attempt_setAttempt _ _ _, rfl⟩
    · rw [Audit.attempt, Option.map_eq_none_iff, Table.get_eq_none_iff, List.mem_map]
      rintro ⟨row, hrow, hkey⟩
      exact (hid row hrow).1 hkey
    · obtain ⟨row, hrow, rfl⟩ := Option.map_eq_some_iff.1 hold
      have hne := hopen (k, row) (Table.mem_of_get hrow)
      obtain ⟨hst, -, htrial⟩ := row.indexed
      simp only [Attempt.scope, Prod.mk.injEq] at hscope
      by_contra hop
      exact hne ⟨hscope.1, hscope.2.1, htrial.trans hscope.2.2, by rw [hst]; simpa using hop⟩
  all_goals exact fun _ _ => trivial

theorem dispatch_dispatched (r : DispatchRequest) :
    Op.wp (dispatch r) s (fun u t => Dispatched r u s.attempt t.attempt s.caseRuns t.caseRuns)
      (fun _ t => t = s) := by
  simp only [dispatch, Op.wp_atomically, Op.wp_bind, Op.wp_gets]
  split
  · exact trivial
  · simp only [Op.wp_bind, Op.wp_lift, ensure_ok_iff]
    refine ⟨fun _ _ => ⟨fun _ _ => ?_, fun _ _ => trivial⟩, fun _ _ => trivial⟩
    refine wp_readAttempt (fun a ha => ?_) (fun _ => trivial)
    refine ⟨fun _ _ => ⟨fun u hu => ?_, fun _ _ => trivial⟩, fun _ _ => trivial⟩
    refine wp_updateAttempt ⟨⟨⟨a, ha, (advances_of_ok hu).identity⟩, fun k => attempt_setAttempt _ _ _⟩, ?_, rfl⟩
      (fun _ => trivial)
    obtain ⟨-, -, -, rfl⟩ := advanceRecord_ok hu
    rfl

theorem completeAttempt_completed (r : CompleteRequest) :
    Op.wp (completeAttempt r) s (fun u t => Completed r u s.attempt t.attempt s.caseRuns t.caseRuns)
      (fun _ t => t = s) := by
  simp only [completeAttempt, Op.wp_bind, Op.wp_lift, Op.wp_atomically]
  refine ⟨fun _ _ => ?_, fun _ _ => trivial⟩
  refine wp_readAttempt (fun a ha => ⟨fun p hp => ?_, fun _ _ => trivial⟩) (fun _ => trivial)
  obtain ⟨pending, u⟩ := p
  simp only [Op.wp_gets, Op.wp_modify, onRuns, Op.wp_zoom, Op.wp_pure]
  refine ⟨fun _ hcheck => wp_updateAttempt ?_ (fun _ => trivial), fun _ _ => trivial⟩
  exact completed_of_ok ha hp hcheck (fun k => attempt_setAttempt _ _ _)

theorem insertCaseRows_written {runId : String} (rows : List CaseRow) (h : ∀ row ∈ rows, row.runId = runId) :
    Op.wp (insertCaseRows rows) s (fun _ t => ∀ key, t.caseRuns.get key = s.caseRuns.get key ∨
      (key.1 = runId ∧ rows ≠ [])) (fun _ _ => True) := by
  induction rows generalizing s with
  | nil => exact fun _ => .inl rfl
  | cons row rest ih =>
    simp only [insertCaseRows, Op.wp_bind, Op.wp_gets, Op.wp_lift, Op.wp_modify]
    refine ⟨fun _ _ => ?_, fun _ _ => trivial⟩
    refine Op.wp_mono (ih (fun row' hrow => h row' (List.mem_cons_of_mem _ hrow))) (fun _ t ht key => ?_)
      (fun _ _ _ => trivial)
    rcases ht key with hsame | ⟨hkey, -⟩
    · by_cases hkey : key = (row.runId, row.caseId)
      · exact .inr ⟨by rw [hkey]; exact h row List.mem_cons_self, fun hnone => by cases hnone⟩
      · exact .inl (hsame.trans (Table.get_set_ne _ _ hkey))
    · exact .inr ⟨hkey, fun hnone => by cases hnone⟩

theorem append_written (r : AppendRequest) :
    Op.wp (append r) s (fun _ t => RowsWritten r s.attempt s.caseRuns t.caseRuns) (fun _ t => t = s) := by
  simp only [append, Op.wp_bind, Op.wp_lift, Op.wp_atomically]
  refine ⟨fun prepared hprepared => ?_, fun _ _ => trivial⟩
  refine Op.wp_mono (Op.wp_and (appendTarget_found r prepared.stored.id) (appendTarget_closed hprepared)) ?_ (fun _ _ _ => trivial)
  rintro updated t ⟨⟨rfl, -⟩, hclosed⟩
  refine Op.wp_mono (insertCaseRows_written r.caseRows (prepareAppend_run hprepared)) (fun _ t hrows => ?_)
    (fun _ _ _ => trivial)
  simp only [insertPass, Op.wp_mapErr, Op.wp_bind, Op.wp_gets, Op.wp_lift, Op.wp_modify, onRuns, Op.wp_zoom,
    Op.wp_pure]
  refine ⟨fun _ _ => ⟨fun rows _ => ?_, fun _ _ => trivial⟩, fun _ _ => trivial⟩
  exact Op.wp_always (fun _ _ key => (hrows key).imp_right (fun h => ⟨h.1, h.2, hclosed⟩)) (fun _ _ => trivial)

end Sqlite

/-! ### The in-memory store -/

namespace Memory
variable {s : Audit}

theorem beginAttempt_begun (r : BeginAttemptRequest) :
    Op.wp (beginAttempt r) s (fun a t => Begun r.record a s.attempt t.attempt s.caseRuns t.caseRuns)
      (fun _ t => t = s) := by
  simp only [beginAttempt, Op.wp_bind, Op.wp_lift, Op.wp_gets, Op.wp_modify, Op.wp_pure, ensure_ok_iff]
  refine ⟨fun stored hstored => ⟨fun _ _ => ⟨fun _ _ => ⟨fun _ hresult => ⟨fun _ hopen => ⟨fun _ hid => ?_, ?_⟩, ?_⟩,
    ?_⟩, ?_⟩, ?_⟩, ?_⟩
  · obtain ⟨hscope, hopened⟩ := newAttempt_ok hstored
    refine ⟨hscope, hopened, ?_, fun k old hold hscope => ?_, hresult, fun k => attempt_setAttempt _ _ _, rfl⟩
    · rw [Audit.attempt, Table.get_eq_none_iff, List.mem_map]
      rintro ⟨row, hrow, hkey⟩
      exact (hid row hrow).1 hkey
    · have hne := hopen (k, old) (Table.mem_of_get hold)
      simp only [Attempt.scope, Prod.mk.injEq] at hscope
      by_contra hop
      exact hne ⟨hscope.1, hscope.2.1, hscope.2.2, by simpa using hop⟩
  all_goals exact fun _ _ => trivial

theorem dispatch_dispatched (r : DispatchRequest) :
    Op.wp (dispatch r) s (fun u t => Dispatched r u s.attempt t.attempt s.caseRuns t.caseRuns)
      (fun _ t => t = s) := by
  simp only [dispatch, Op.wp_bind, Op.wp_gets]
  split
  · rfl
  · simp only [Op.wp_bind, Op.wp_lift, Op.wp_modify, Op.wp_pure]
    refine ⟨fun _ _ => ?_, fun _ _ => trivial⟩
    refine wp_readAttempt (fun a ha => ?_) (fun _ => rfl)
    refine ⟨fun _ _ => ⟨fun u hu => ?_, fun _ _ => rfl⟩, fun _ _ => rfl⟩
    refine ⟨⟨⟨a, ha, (advances_of_ok hu).identity⟩, fun k => attempt_setAttempt _ _ _⟩, ?_, rfl⟩
    obtain ⟨-, -, -, rfl⟩ := advanceRecord_ok hu
    rfl

theorem completeAttempt_completed (r : CompleteRequest) :
    Op.wp (completeAttempt r) s (fun u t => Completed r u s.attempt t.attempt s.caseRuns t.caseRuns)
      (fun _ t => t = s) := by
  simp only [completeAttempt, Op.wp_bind, Op.wp_lift]
  refine ⟨fun _ _ => ?_, fun _ _ => trivial⟩
  refine wp_readAttempt (fun a ha => ⟨fun p hp => ?_, fun _ _ => rfl⟩) (fun _ => rfl)
  obtain ⟨pending, u⟩ := p
  simp only [Op.wp_gets, Op.wp_modify, onRuns, Op.wp_zoom, Op.wp_pure]
  refine ⟨fun _ hcheck => ?_, fun _ _ => trivial⟩
  exact completed_of_ok ha hp hcheck (fun k => attempt_setAttempt _ _ _)

theorem insertCaseRows_written {runId : String} (rows : List CaseRow) (h : ∀ row ∈ rows, row.runId = runId) :
    Op.wp (insertCaseRows rows) s (fun _ t => ∀ key, t.caseRuns.get key = s.caseRuns.get key ∨
        (key.1 = runId ∧ rows ≠ []))
      (fun _ t => ∀ key, t.caseRuns.get key = s.caseRuns.get key ∨ (key.1 = runId ∧ rows ≠ [])) := by
  induction rows generalizing s with
  | nil => exact fun _ => .inl rfl
  | cons row rest ih =>
    simp only [insertCaseRows, Op.wp_bind, Op.wp_gets, Op.wp_lift, Op.wp_modify]
    refine ⟨fun _ _ => ?_, fun _ _ _ => .inl trivial⟩
    have general : ∀ t : Audit, (∀ key, t.caseRuns.get key = (s.caseRuns.insert row).get key ∨
        (key.1 = runId ∧ rest ≠ [])) → ∀ key, t.caseRuns.get key = s.caseRuns.get key ∨
          (key.1 = runId ∧ row :: rest ≠ []) := by
      intro t ht key
      rcases ht key with hsame | ⟨hkey, -⟩
      · by_cases hkey : key = (row.runId, row.caseId)
        · exact .inr ⟨by rw [hkey]; exact h row List.mem_cons_self, fun hnone => by cases hnone⟩
        · exact .inl (hsame.trans (Table.get_set_ne _ _ hkey))
      · exact .inr ⟨hkey, fun hnone => by cases hnone⟩
    exact Op.wp_mono (ih (fun row' hrow => h row' (List.mem_cons_of_mem _ hrow))) (fun _ t ht => general t ht)
      (fun _ t ht => general t ht)

theorem append_written (r : AppendRequest) :
    Op.wp (append r) s (fun _ t => RowsWritten r s.attempt s.caseRuns t.caseRuns)
      (fun _ t => RowsWritten r s.attempt s.caseRuns t.caseRuns) := by
  simp only [append, Op.wp_bind, Op.wp_lift, Op.wp_gets, Op.wp_modify, Op.wp_pure, onRuns, Op.wp_zoom, ensure_ok_iff]
  refine ⟨fun p hp => ⟨fun _ _ => ⟨fun _ _ => ⟨fun _ hclosed => ⟨fun updated _ => ?_, ?_⟩, ?_⟩, ?_⟩, ?_⟩, ?_⟩
  · have closed : r.requireNoOpenAttempts = true → r.expectedRunRevision ≠ none →
        ∀ k a, s.attempt k = some a → a.runId = r.runId → a.status.isOpen = false := by
      intro hopen _ k a ha hrun
      have hnot := hclosed hopen (k, a) (Table.mem_of_get ha)
      simpa [hrun] using hnot
    have written : ∀ t : Audit, (∀ key, t.caseRuns.get key = s.caseRuns.get key ∨
        (key.1 = r.runId ∧ r.caseRows ≠ [])) → RowsWritten r s.attempt s.caseRuns t.caseRuns :=
      fun t ht key => (ht key).imp_right (fun h => ⟨h.1, h.2, closed⟩)
    refine Op.wp_mono (insertCaseRows_written r.caseRows (prepareAppend_run hp)) (fun _ t ht => ?_)
      (fun _ t ht => written t ht)
    exact Op.wp_always (fun _ _ => written t ht) (fun _ _ => written t ht)
  all_goals exact fun _ _ => RowsWritten.same

end Memory

end Motte.Storage
