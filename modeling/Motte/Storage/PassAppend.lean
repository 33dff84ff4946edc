import Motte.Storage.RunMoves

/-! An append of a scoring pass is all or nothing, unless the in-memory store finds
a case row taken after it has stored another.

SQLite runs the append in one transaction. The in-memory store checks everything
but the case rows before it writes; the case rows it checks and stores one by one. -/
namespace Motte.Storage
open Foundation

/-- An append that raises leaves every table as it was. -/
def Sqlite.AppendAllOrNothing (r : AppendRequest) (s : Sqlite.Audit) : Prop :=
  ∀ e t, Sqlite.append r s = (.error e, t) → t = s

/-- An append that raises leaves every repository as it was. -/
def Memory.AppendAllOrNothing (r : AppendRequest) (s : Memory.Audit) : Prop :=
  ∀ e t, Memory.append r s = (.error e, t) → t = s

theorem Sqlite.append_atomic (r : AppendRequest) (s : Sqlite.Audit) :
    Op.wp (Sqlite.append r) s (fun _ _ => True) (fun _ t => t = s) := by
  simp only [Sqlite.append, Op.wp_bind, Op.wp_lift]
  refine ⟨fun prepared _ => ?_, fun _ _ => trivial⟩
  rw [Op.wp_atomically]
  exact Op.wp_always (fun _ _ => trivial) (fun _ _ => rfl)

namespace Memory
variable {s : Audit}

/-- A taken row makes the insertion raise; what was stored stays stored. -/
theorem insertCaseRows_taken (rows : List CaseRow)
    (taken : ∃ row ∈ rows, s.caseRuns.get (row.runId, row.caseId) ≠ none) :
    Op.wp (insertCaseRows rows) s (fun _ _ => False)
      (fun _ t => ∀ k, s.caseRuns.get k ≠ none → t.caseRuns.get k ≠ none) := by
  induction rows generalizing s with
  | nil =>
    obtain ⟨_, hrow, _⟩ := taken
    cases hrow
  | cons first rest ih =>
    simp only [insertCaseRows, Op.wp_bind, Op.wp_gets, Op.wp_lift, Op.wp_modify, ensure_ok_iff]
    refine ⟨fun _ hfree => ?_, fun _ _ k hk => hk⟩
    -- storing a row takes no other row away
    have kept : ∀ k, s.caseRuns.get k ≠ none → (s.caseRuns.insert first).get k ≠ none := by
      intro k hk
      rw [CaseRuns.insert, Table.get_set]
      split
      · simp
      · exact hk
    obtain ⟨row, hrow, hstored⟩ := taken
    have hrest : row ∈ rest := by
      rcases List.mem_cons.1 hrow with rfl | hrest
      · exact absurd hfree hstored
      · exact hrest
    exact Op.wp_mono (ih ⟨row, hrest, kept _ hstored⟩) (fun _ _ h => h) (fun _ _ h k hk => h k (kept k hk))

/-- An append that fails late raises, and its first case row is stored. -/
theorem appendFailsLate_touches {r : AppendRequest} (late : AppendFailsLate r s) :
    Op.wp (append r) s (fun _ _ => False) (fun _ t => t ≠ s) := by
  obtain ⟨⟨⟨p, hp, hnew, updated, hupdated⟩, hscored, hclosed⟩, first, rest, hrows, hfree, row, hrow, hstored⟩ := late
  simp only [append, Op.wp_bind, Op.wp_lift, Op.wp_gets, ensure_error_iff]
  refine ⟨fun p' hp' => ?_, fun e he => (by cases hp.symm.trans he)⟩
  cases hp.symm.trans hp'
  refine ⟨fun _ _ => ⟨fun _ _ => ⟨fun _ _ => ⟨fun updated' _ => ?_, fun e he => (by cases hupdated.symm.trans he)⟩,
    fun _ h => absurd hclosed h.1⟩, fun e he => (by cases hscored.symm.trans he)⟩,
    fun _ h => absurd (by rw [hnew]; rfl) h.1⟩
  rw [hrows]
  simp only [insertCaseRows, Op.wp_bind, Op.wp_gets, Op.wp_lift, Op.wp_modify, ensure_error_iff]
  refine ⟨fun _ _ => ?_, fun _ h => absurd hfree h.1⟩
  have hne : (row.runId, row.caseId) ≠ (first.runId, first.caseId) := fun he => hstored (he ▸ hfree)
  have taken : ∃ row ∈ rest, (s.caseRuns.insert first).get (row.runId, row.caseId) ≠ none := by
    refine ⟨row, hrow, ?_⟩
    rw [CaseRuns.insert, Table.get_set_ne _ _ hne]
    exact hstored
  refine Op.wp_mono (insertCaseRows_taken rest taken) (fun _ _ h => h.elim) (fun _ t h he => ?_)
  have hfirst : t.caseRuns.get (first.runId, first.caseId) ≠ none := h _ (by simp [CaseRuns.insert])
  rw [he] at hfirst
  exact hfirst hfree

end Memory

theorem append_all_or_nothing_iff (r : AppendRequest) (db : Sqlite.Audit) (s : Memory.Audit) :
    Sqlite.AppendAllOrNothing r db ∧ (Memory.AppendAllOrNothing r s ↔ ¬ Memory.AppendFailsLate r s) := by
  refine ⟨fun e t h => ?_, fun h late => ?_, fun ontime e t h => ?_⟩
  · exact (Op.wp_of_error h).1 (Sqlite.append_atomic r db)
  · have touches := Memory.appendFailsLate_touches late
    rcases hx : Memory.append r s with ⟨e | p, t⟩
    · exact (Op.wp_of_error hx).1 touches (h e t hx)
    · exact (Op.wp_of_ok hx).1 touches
  · exact (Op.wp_of_error h).1 (Memory.append_runs r ontime)

/-- A run of two cases, the second of which has its result. -/
def secondDone : List Request := [
  .run (.create {id := "run", status := some "running"} none),
  .attempt (.begin {record := {id := some "a", generatedId := "", runId := "run", caseId := "late"}}),
  .attempt (.dispatch {
    attemptId := "a", expectedRevision := 1, runId := "run", expectedRunRevision := 1,
    expectedRunStatus := "running", now := "t" }),
  .attempt (.complete {attemptId := "a", expectedRevision := 2, caseRun := some ⟨"run", "late", ∅⟩})]

/-- The run is cancelled with a row for each of its cases. -/
def cancelBoth : AppendRequest where
  id := some "pass"
  generatedId := ""
  runId := "run"
  scores := []
  expectedRunRevision := some 1
  expectedRunStatus := some "running"
  finalStatus := some "cancelled"
  caseRows := [⟨"run", "early", ∅⟩, ⟨"run", "late", ∅⟩]

/-- The append raises at the second row and leaves the first. -/
theorem late_row_leaves_first :
    (Memory.append cancelBoth (run Memory.step ∅ secondDone).toAudit).1.isOk = false ∧
    ((run Memory.step ∅ secondDone).caseRuns.get ("run", "early")).isSome = false ∧
    ((Memory.append cancelBoth (run Memory.step ∅ secondDone).toAudit).2.caseRuns.get
      ("run", "early")).isSome = true := by decide

end Motte.Storage
