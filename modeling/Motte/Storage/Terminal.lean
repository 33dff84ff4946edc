import Motte.Storage.AttemptSafety
import Motte.Storage.PassAppend

/-! Rows and open attempts when a run ends.

A run is ended by appending a pass that may bring rows for the cases it never
attempted. An answered append has found no attempt of the run open, if it was to
look, and all its rows are stored. A quarantine closes no attempt. Every row is
stored under its own run and case, so a case has at most one. -/
namespace Motte.Storage
open Foundation

/-! ### Keys of rows -/

/-- Every row is stored under its own run and case. -/
def Keyed (rows : CaseRuns) : Prop := ∀ key found, rows.get key = some found → key = (found.2.runId, found.2.caseId)

theorem Keyed.insert {rows : CaseRuns} (h : Keyed rows) (row : CaseRow) : Keyed (rows.insert row) := by
  intro key found hfound
  rw [CaseRuns.insert, Table.get_set] at hfound
  split at hfound
  · rename_i hkey
    cases hfound
    exact hkey
  · exact h key found hfound

theorem Keyed.upsert {rows : CaseRuns} (h : Keyed rows) (row : CaseRow) : Keyed (rows.upsert row) := by
  unfold CaseRuns.upsert
  split
  · exact h
  · exact h.insert row

theorem AttemptServed.keyed {c : AttemptCommand} {s t : String → Option Attempt} {results results' : CaseRuns}
    (served : AttemptServed c s t results results') (h : Keyed results) : Keyed results' := by
  rcases served.written with rfl | ⟨_, _, row, _, _, _, _, _, _, rfl⟩
  · exact h
  · exact h.upsert row

/-! ### Open attempts -/

/-- An attempt that is open stays open, and the same attempt. -/
def OpenKept (s t : String → Option Attempt) : Prop :=
  ∀ k a, s k = some a → a.status.isOpen = true →
    ∃ b, t k = some b ∧ b.identity = a.identity ∧ b.status.isOpen = true

theorem OpenKept.refl (s : String → Option Attempt) : OpenKept s s := fun _ a ha ho => ⟨a, ha, rfl, ho⟩

theorem OpenKept.trans {s t u : String → Option Attempt} (h : OpenKept s t) (h' : OpenKept t u) : OpenKept s u := by
  intro k a ha ho
  obtain ⟨b, hb, hsame, ho⟩ := h k a ha ho
  obtain ⟨c, hc, hsame', ho⟩ := h' k b hb ho
  exact ⟨c, hc, hsame'.trans hsame, ho⟩

/-- Isolating an attempt keeps it open. -/
theorem OpenKept.isolate {s₀ s t : String → Option Attempt} (h : OpenKept s₀ s) {id : String} {a u : Attempt}
    (ha : s₀ id = some a) (hu : u = a ∨ advanceRecord a a.revision .dispatching .indeterminate ∅ = .ok u)
    (ht : ∀ k, t k = if k = id then some u else s k) : OpenKept s₀ t := by
  have kept : a.status.isOpen = true → u.identity = a.identity ∧ u.status.isOpen = true := by
    intro ho
    rcases hu with rfl | hu
    · exact ⟨rfl, ho⟩
    · obtain ⟨-, -, -, rfl⟩ := advanceRecord_ok hu
      exact ⟨rfl, rfl⟩
  intro k b hb ho
  rw [ht]
  split
  · rename_i hk
    subst hk
    cases ha.symm.trans hb
    exact ⟨u, rfl, kept ho⟩
  · exact h k b hb ho

/-! ### An answered append -/

/-- What an answered append has found, and what it has stored. -/
structure Appended (r : AppendRequest) (attempts : String → Option Attempt) (results : CaseRuns) : Prop where
  closed : r.requireNoOpenAttempts = true → r.expectedRunRevision ≠ none →
    ∀ k a, attempts k = some a → a.runId = r.runId → a.status.isOpen = false
  stored : ∀ row ∈ r.caseRows, ∃ found, results.get (row.runId, row.caseId) = some found

/-! ### The SQLite store -/

namespace Sqlite
variable {s : Audit}

theorem isolateRows_open {s₀ : Audit} (rows : List (String × AttemptRow))
    (hrows : ∀ r ∈ rows, s₀.attempts.get r.1 = some r.2) (hs : OpenKept s₀.attempt s.attempt) :
    Op.wp (isolateRows rows) s (fun _ t => OpenKept s₀.attempt t.attempt) (fun _ _ => True) := by
  induction rows generalizing s with
  | nil => exact hs
  | cons r rest ih =>
    obtain ⟨id, row⟩ := r
    have hrest : ∀ r ∈ rest, s₀.attempts.get r.1 = some r.2 := fun r hr => hrows r (List.mem_cons_of_mem _ hr)
    have hid : s₀.attempt id = some row.payload := by
      rw [Audit.attempt, hrows (id, row) (List.mem_cons_self ..)]
      rfl
    simp only [isolateRows, Op.wp_bind, Op.wp_lift, indexedAttempt_eq]
    refine ⟨fun a ha => ?_, fun _ _ => trivial⟩
    cases ha
    split
    · simp only [Op.wp_bind, Op.wp_lift, Op.wp_modify, Op.wp_pure]
      exact ⟨fun u hu => ih hrest (hs.isolate hid (.inr hu) (fun k => attempt_setAttempt _ _ _)), fun _ _ => trivial⟩
    · simp only [Op.wp_bind, Op.wp_pure]
      exact ih hrest hs

theorem quarantine_open (r : QuarantineRequest) :
    Op.wp (quarantine r) s (fun _ t => OpenKept s.attempt t.attempt) (fun _ t => t = s) := by
  simp only [quarantine, Op.wp_bind, Op.wp_lift, Op.wp_atomically, Op.wp_gets]
  refine ⟨fun pending _ => ⟨fun _ _ => ⟨fun _ _ => ?_, fun _ _ => trivial⟩, fun _ _ => trivial⟩,
    fun _ _ => trivial⟩
  split
  · trivial
  · simp only [Op.wp_bind, Op.wp_lift, Op.wp_gets]
    refine ⟨fun _ _ => ⟨fun _ _ => ?_, fun _ _ => trivial⟩, fun _ _ => trivial⟩
    refine Op.wp_mono (isolateRows_open _ (fun _ hr => Table.get_of_mem (List.mem_of_mem_filter hr))
      (OpenKept.refl _)) (fun uncertain t h => ?_) (fun _ _ _ => trivial)
    split
    · exact h
    · simp only [Op.wp_bind, Op.wp_lift, onRuns, Op.wp_zoom, Op.wp_modify, Op.wp_pure]
      exact ⟨fun updated _ => wp_updateRow (fun _ _ _ => h) trivial, fun _ _ => trivial⟩

/-- Rows are stored under their own keys; all of them, unless the insertion raises. -/
theorem insertCaseRows_stored (rows : List CaseRow) (h : Keyed s.caseRuns) :
    Op.wp (insertCaseRows rows) s (fun _ t => Keyed t.caseRuns ∧
      ∀ row ∈ rows, ∃ found, t.caseRuns.get (row.runId, row.caseId) = some found) (fun _ _ => True) := by
  induction rows generalizing s with
  | nil => exact ⟨h, fun _ hrow => nomatch hrow⟩
  | cons row rest ih =>
    simp only [insertCaseRows, Op.wp_bind, Op.wp_gets, Op.wp_lift, Op.wp_modify]
    refine ⟨fun _ _ => ?_, fun _ _ => trivial⟩
    have hkept := insertCaseRows_kept (s := {s with caseRuns := s.caseRuns.insert row}) rest
    refine Op.wp_mono (Op.wp_and (ih (h.insert row)) hkept) (fun _ t ht => ⟨ht.1.1, fun row' hrow => ?_⟩)
      (fun _ _ _ => trivial)
    rcases List.mem_cons.1 hrow with rfl | hrow
    · exact ⟨_, ht.2.kept _ _ (Table.get_set_self _ _ _)⟩
    · exact ht.1.2 row' hrow

/-- Looking for the run to move on also looks for open attempts. -/
theorem appendTarget_unopened {r : AppendRequest} {passId : String} (hrev : r.expectedRunRevision ≠ none)
    (hst : r.expectedRunStatus ≠ none) (hopen : r.requireNoOpenAttempts = true) :
    Op.wp (appendTarget r passId) s (fun _ _ => ∀ k a, s.attempt k = some a → a.runId = r.runId →
      a.status.isOpen = false) (fun _ _ => True) := by
  unfold appendTarget
  split
  · simp only [Op.wp_bind, Op.wp_gets]
    split
    · trivial
    · simp only [Op.wp_bind, Op.wp_gets, Op.wp_lift, Op.wp_pure, ensure_ok_iff]
      refine ⟨fun _ _ => ⟨fun _ _ => ⟨fun _ hclosed => ⟨fun _ _ k a ha hrun => ?_, fun _ _ => trivial⟩,
        fun _ _ => trivial⟩, fun _ _ => trivial⟩, fun _ _ => trivial⟩
      obtain ⟨row, hrow, rfl⟩ := Option.map_eq_some_iff.1 ha
      have hnot := hclosed hopen (k, row) (Table.mem_of_get hrow)
      rw [← row.indexed.1]
      simpa [hrun] using hnot
  · rename_i hnone
    cases hr : r.expectedRunRevision with
    | none => exact absurd hr hrev
    | some revision =>
      cases hs : r.expectedRunStatus with
      | none => exact absurd hs hst
      | some status => exact (hnone revision status hr hs).elim

theorem appendTarget_closed {r : AppendRequest} {prepared : PreparedAppend} (h : prepareAppend r = .ok prepared) :
    Op.wp (appendTarget r prepared.stored.id) s (fun _ _ => r.requireNoOpenAttempts = true →
      r.expectedRunRevision ≠ none → ∀ k a, s.attempt k = some a → a.runId = r.runId → a.status.isOpen = false)
      (fun _ _ => True) := by
  by_cases hcase : r.requireNoOpenAttempts = true ∧ r.expectedRunRevision ≠ none
  · have hst := mt (prepareAppend_expected h).2 hcase.2
    exact Op.wp_mono (appendTarget_unopened hcase.2 hst hcase.1) (fun _ _ h _ _ => h) (fun _ _ h => h)
  · exact Op.wp_always (fun _ _ hopen hrev => absurd ⟨hopen, hrev⟩ hcase) (fun _ _ => trivial)

theorem append_stored (r : AppendRequest) (h : Keyed s.caseRuns) :
    Op.wp (append r) s (fun _ t => Keyed t.caseRuns ∧ Appended r s.attempt t.caseRuns) (fun _ t => t = s) := by
  simp only [append, Op.wp_bind, Op.wp_lift, Op.wp_atomically]
  refine ⟨fun prepared hprepared => ?_, fun _ _ => trivial⟩
  refine Op.wp_mono (Op.wp_and (appendTarget_found r prepared.stored.id) (appendTarget_closed hprepared)) ?_ (fun _ _ _ => trivial)
  rintro updated t ⟨⟨rfl, -⟩, hclosed⟩
  refine Op.wp_mono (insertCaseRows_stored r.caseRows h) (fun _ t hrows => ?_) (fun _ _ _ => trivial)
  simp only [insertPass, Op.wp_mapErr, Op.wp_bind, Op.wp_gets, Op.wp_lift, Op.wp_modify, onRuns, Op.wp_zoom,
    Op.wp_pure]
  refine ⟨fun _ _ => ⟨fun rows _ => ?_, fun _ _ => trivial⟩, fun _ _ => trivial⟩
  exact Op.wp_always (fun _ _ => ⟨hrows.1, hclosed, hrows.2⟩) (fun _ _ => trivial)

theorem serve_keyed (q : Request) (s : Database) (h : Keyed s.caseRuns) : Keyed (serve q s).2.caseRuns := by
  refine Op.wp_state (Q := fun t : Database => Keyed t.caseRuns) ?_
  cases q with
  | attempt c =>
    simp only [serve, onAudit, Op.wp_zoom]
    exact Op.wp_mono (serveAttempt_served c) (fun _ _ served => served.toAttemptServed.keyed h) (fun _ _ ht => ht ▸ h)
  | run c =>
    simp only [serve, onAudit, onRuns, Op.wp_zoom]
    exact Op.wp_always (fun _ _ => h) (fun _ _ => h)
  | append r =>
    simp only [serve, onAudit, Op.wp_bind, Op.wp_pure, Op.wp_zoom]
    exact Op.wp_mono (append_stored r h) (fun _ _ ht => ht.1) (fun _ _ ht => ht ▸ h)
  | job c =>
    simp only [serve, onJobs, Op.wp_bind, Op.wp_pure, Op.wp_zoom]
    exact Op.wp_always (fun _ _ => h) (fun _ _ => h)
  | publish r =>
    simp only [serve, Op.wp_bind, Op.wp_pure]
    refine Op.wp_mono (publish_spec r s) (fun reply t ht => ?_) (fun _ _ ht => ht ▸ h)
    rcases ht with ⟨-, j, u, -, hp⟩ | ⟨-, rfl, -⟩
    · obtain ⟨_, _, _, _, _, _, _, _, rfl⟩ := hp.state
      exact h
    · exact h

end Sqlite

/-! ### The in-memory store -/

namespace Memory
variable {s : Audit}

theorem setAttempts_open {s₀ : Audit} (changed : List (String × Attempt))
    (h : ∀ r ∈ changed, ∃ a, s₀.attempt r.1 = some a ∧
      (r.2 = a ∨ advanceRecord a a.revision .dispatching .indeterminate ∅ = .ok r.2))
    (hs : OpenKept s₀.attempt s.attempt) : OpenKept s₀.attempt (setAttempts changed s).attempt := by
  induction changed generalizing s with
  | nil => exact hs
  | cons r rest ih =>
    obtain ⟨a, ha, hr⟩ := h r (List.mem_cons_self ..)
    exact ih (fun r' hr' => h r' (List.mem_cons_of_mem _ hr'))
      (hs.isolate ha hr (fun k => attempt_setAttempt _ _ _))

theorem quarantine_open (r : QuarantineRequest) :
    Op.wp (quarantine r) s (fun _ t => OpenKept s.attempt t.attempt) (fun _ t => t = s) := by
  simp only [quarantine, Op.wp_bind, Op.wp_lift, Op.wp_gets]
  refine ⟨fun pending _ => ⟨fun _ _ => ?_, fun _ _ => trivial⟩, fun _ _ => trivial⟩
  split
  · rfl
  · simp only [Op.wp_bind, Op.wp_lift, Op.wp_gets]
    refine ⟨fun _ _ => ⟨fun _ _ => ⟨fun changed h => ?_, fun _ _ => trivial⟩, fun _ _ => trivial⟩,
      fun _ _ => trivial⟩
    split
    · exact OpenKept.refl _
    · simp only [Op.wp_bind, Op.wp_modify, Op.wp_pure, onRuns, Op.wp_zoom]
      refine Op.wp_mono (transitionRun_refused _) (fun _ _ _ => ?_) (fun _ _ ht => by rw [ht])
      refine setAttempts_open changed (fun r hr => ?_) (OpenKept.refl _)
      obtain ⟨a, hrow, h⟩ := isolated_ok h r hr
      exact ⟨a, Table.get_of_mem (List.mem_of_mem_filter hrow), h⟩

/-- Rows are stored under their own keys; all of them, unless the insertion raises. -/
theorem insertCaseRows_stored (rows : List CaseRow) (h : Keyed s.caseRuns) :
    Op.wp (insertCaseRows rows) s (fun _ t => Keyed t.caseRuns ∧
      ∀ row ∈ rows, ∃ found, t.caseRuns.get (row.runId, row.caseId) = some found)
      (fun _ t => Keyed t.caseRuns) := by
  induction rows generalizing s with
  | nil => exact ⟨h, fun _ hrow => nomatch hrow⟩
  | cons row rest ih =>
    simp only [insertCaseRows, Op.wp_bind, Op.wp_gets, Op.wp_lift, Op.wp_modify]
    refine ⟨fun _ _ => ?_, fun _ _ => h⟩
    have hkept := insertCaseRows_kept (s := {s with caseRuns := s.caseRuns.insert row}) rest
    refine Op.wp_mono (Op.wp_and (ih (h.insert row)) hkept) (fun _ t ht => ⟨ht.1.1, fun row' hrow => ?_⟩)
      (fun _ _ ht => ht.1)
    rcases List.mem_cons.1 hrow with rfl | hrow
    · exact ⟨_, ht.2.kept _ _ (Table.get_set_self _ _ _)⟩
    · exact ht.1.2 row' hrow

theorem append_stored (r : AppendRequest) (h : Keyed s.caseRuns) :
    Op.wp (append r) s (fun _ t => Keyed t.caseRuns ∧ Appended r s.attempt t.caseRuns)
      (fun _ t => Keyed t.caseRuns) := by
  simp only [append, Op.wp_bind, Op.wp_lift, Op.wp_gets, Op.wp_modify, Op.wp_pure, onRuns, Op.wp_zoom, ensure_ok_iff]
  refine ⟨fun p _ => ⟨fun _ _ => ⟨fun _ _ => ⟨fun _ hclosed => ⟨fun updated _ => ?_, ?_⟩, ?_⟩, ?_⟩, ?_⟩, ?_⟩
  · refine Op.wp_mono (insertCaseRows_stored r.caseRows h) (fun _ t hrows => ?_) (fun _ _ h => h)
    refine Op.wp_always (fun _ _ => ⟨hrows.1, fun hopen _ k a ha hrun => ?_, hrows.2⟩) (fun _ _ => hrows.1)
    have hnot := hclosed hopen (k, a) (Table.mem_of_get ha)
    simpa [hrun] using hnot
  all_goals exact fun _ _ => h

theorem serve_keyed (q : Request) (s : Store) (h : Keyed s.caseRuns) : Keyed (serve q s).2.caseRuns := by
  refine Op.wp_state (Q := fun t : Store => Keyed t.caseRuns) ?_
  cases q with
  | attempt c =>
    simp only [serve, onAudit, Op.wp_zoom]
    exact Op.wp_mono (serveAttempt_served c) (fun _ _ served => served.toAttemptServed.keyed h) (fun _ _ ht => ht ▸ h)
  | run c =>
    simp only [serve, onAudit, onRuns, Op.wp_zoom]
    exact Op.wp_always (fun _ _ => h) (fun _ _ => h)
  | append r =>
    simp only [serve, onAudit, Op.wp_bind, Op.wp_pure, Op.wp_zoom]
    exact Op.wp_mono (append_stored r h) (fun _ _ ht => ht.1) (fun _ _ ht => ht)
  | job c =>
    simp only [serve, onJobs, Op.wp_bind, Op.wp_pure, Op.wp_zoom]
    exact Op.wp_always (fun _ _ => h) (fun _ _ => h)
  | publish r =>
    have published {j u : StoredJob} {result : Except Err Unit} {t : Store}
        (hp : Publication r s j u result t) : Keyed t.caseRuns := by
      obtain ⟨log, -, -, ht⟩ := hp.state
      rw [ht]
      exact h
    simp only [serve, Op.wp_bind, Op.wp_pure]
    refine Op.wp_mono (publish_spec r s) (fun reply t ht => ?_) (fun e t ht => ?_)
    · rcases ht with ⟨-, j, u, -, hp⟩ | ⟨-, rfl, -⟩
      · exact published hp
      · exact h
    · rcases ht with ⟨rfl, -⟩ | ⟨j, u, log, -, -, rfl⟩ | ⟨j, u, hp⟩
      · exact h
      · exact h
      · exact published hp

end Memory

end Motte.Storage
