import Motte.Foundation.History
import Motte.Service.Calls
import Motte.Storage.AttemptSafety

/-! Case rows under the calls of the service.

No call of any method, on either store, takes a stored row back or overwrites it.
So a row that one call has found or stored is there for every call after it, and
a method may rely on the others for that. -/
namespace Motte.Service
open Foundation Storage

/-- The calls of the service on one store. -/
abbrev Made (σ : Type) := Exchange σ Ask Answer Exn

/-- What is used of a store: no request takes a row back. -/
structure Platform.RowLaws {σ : Type} (P : Platform σ) : Prop where
  served : ∀ r s, ResultsKept (P.caseRuns s) (P.caseRuns (P.serve r s).2)
  setCaseRuns : ∀ rows s, P.caseRuns (P.setCaseRuns rows s) = rows
  setEvents : ∀ events s, P.caseRuns (P.setEvents events s) = P.caseRuns s

theorem memoryRows : memory.RowLaws where
  served r s := (AttemptSystem.moves (S := memoryAttempts) r s).2
  setCaseRuns _ _ := rfl
  setEvents _ _ := rfl

theorem sqliteRows : sqlite.RowLaws where
  served r s := (AttemptSystem.moves (S := sqliteAttempts) r s).2
  setCaseRuns _ _ := rfl
  setEvents _ _ := rfl

theorem mapErr_state {σ ε δ α : Type} (f : ε → δ) (x : Op σ ε α) (s : σ) : (Op.mapErr f x s).2 = (x s).2 := by
  unfold Op.mapErr
  split <;> simp_all

section Rows
variable {σ : Type} (P : Platform σ)

/-- Every row is still there. -/
def RowsKept (s t : σ) : Prop := ResultsKept (P.caseRuns s) (P.caseRuns t)

variable {P}

theorem RowsKept.refl (s : σ) : RowsKept P s s := ResultsKept.refl _

theorem answer_rows (L : P.RowLaws) (o : Oracle) (q : Ask) (s : σ) : RowsKept P s (P.answer o q s).2 := by
  cases q with
  | store r =>
    have hstate : (P.answer o (.store r) s).2 = (P.serve r s).2 := mapErr_state _ _ s
    rw [RowsKept, hstate]
    exact L.served r s
  | upsert row =>
    show ResultsKept _ (P.caseRuns (P.setCaseRuns _ s))
    rw [L.setCaseRuns]
    exact ResultsKept.upsert _ row
  | emit event =>
    simp only [Platform.answer]
    split
    · exact ResultsKept.refl _
    · rw [RowsKept, L.setEvents]
      exact ResultsKept.refl _
  | _ => exact ResultsKept.refl _

/-- Once a row is stored its case has that row, or the row it had before. -/
theorem answer_upsert (L : P.RowLaws) (o : Oracle) (row : CaseRow) (s : σ) :
    ∃ found, (P.caseRuns (P.answer o (.upsert row) s).2).get (row.runId, row.caseId) = some found ∧
      (found.2 = row ∨ (P.caseRuns s).get (row.runId, row.caseId) = some found) := by
  show ∃ found, (P.caseRuns (P.setCaseRuns _ s)).get _ = some found ∧ _
  rw [L.setCaseRuns, CaseRuns.upsert]
  cases hrow : (P.caseRuns s).get (row.runId, row.caseId) with
  | some found => exact ⟨found, hrow, .inr rfl⟩
  | none => exact ⟨_, Table.get_set_self _ _ _, .inl rfl⟩

end Rows

theorem mem_rowsOf {rows : CaseRuns} {runId : String} {row : CaseRow} :
    row ∈ rowsOf rows runId ↔ ∃ caseId ordinal, rows.get (runId, caseId) = some (ordinal, row) := by
  simp only [rowsOf, List.mem_map, List.mem_filter, decide_eq_true_eq, Table.get_eq_some_iff]
  constructor
  · rintro ⟨⟨⟨_, caseId⟩, ordinal, _⟩, ⟨hmem, rfl⟩, rfl⟩
    exact ⟨caseId, ordinal, hmem⟩
  · rintro ⟨caseId, ordinal, hmem⟩
    exact ⟨⟨⟨runId, caseId⟩, ordinal, row⟩, ⟨hmem, rfl⟩, rfl⟩

theorem mem_rowsOf_kept {rows rows' : CaseRuns} (h : ResultsKept rows rows') {runId : String} {row : CaseRow}
    (hrow : row ∈ rowsOf rows runId) : row ∈ rowsOf rows' runId := by
  obtain ⟨caseId, ordinal, hget⟩ := mem_rowsOf.1 hrow
  exact mem_rowsOf.2 ⟨caseId, ordinal, h _ _ hget⟩

end Motte.Service
