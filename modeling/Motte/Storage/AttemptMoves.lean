import Motte.Storage.Memory
import Motte.Storage.Sqlite

/-! What one request can do to the attempts and the case results.

A request begins one attempt in a scope that no open attempt blocks, or moves some
attempts on, each along the transition table and none changing its identity
(`AttemptsMoved`). A case result is written once: by the completion of an attempt
that belongs to no trial, or by the append of a pass. -/
namespace Motte.Storage
open Foundation

/-! ### Moves of a table of attempts -/

/-- The attempt moves on as the transition table allows. -/
structure Advances (a a' : Attempt) : Prop where
  identity : a'.identity = a.identity
  legal : a'.status ∈ a.status.transitions

/-- Each attempt is kept or moves on. -/
def Advanced (s t : String → Option Attempt) : Prop :=
  ∀ k, t k = s k ∨ ∃ a a', s k = some a ∧ t k = some a' ∧ Advances a a'

/-- The table after a request: one attempt was begun, or some moved on. -/
inductive AttemptsMoved (s t : String → Option Attempt) : Prop where
  | begun (a : Attempt) (fresh : s a.id = none)
      (unblocked : ∀ k old, s k = some old → old.scope = a.scope → old.status.isOpen = false)
      (added : ∀ k, t k = if k = a.id then some a else s k)
  | advanced (h : Advanced s t)

theorem Advanced.same {s t : String → Option Attempt} (h : t = s) : Advanced s t := fun k => .inl (by rw [h])

theorem AttemptsMoved.same {s t : String → Option Attempt} (h : t = s) : AttemptsMoved s t :=
  .advanced (.same h)

theorem advances_of_ok {a u : Attempt} {rev : Int} {st st' : AttemptStatus} {changes : Fields}
    (h : advanceRecord a rev st st' changes = .ok u) : Advances a u := by
  obtain ⟨-, hst, hlegal, rfl⟩ := advanceRecord_ok h
  exact ⟨rfl, by rw [hst]; exact hlegal⟩

/-- Assigning an attempt, as it was at the start or moved on from there. -/
theorem Advanced.assign {s t u : String → Option Attempt} {id : String} {a a' : Attempt} (hst : Advanced s t)
    (ha : s id = some a) (h : a' = a ∨ Advances a a') (hu : ∀ k, u k = if k = id then some a' else t k) :
    Advanced s u := by
  intro k
  rw [hu k]
  split
  · rename_i hk
    rw [hk]
    rcases h with rfl | h
    · exact .inl ha.symm
    · exact .inr ⟨a, a', ha, rfl, h⟩
  · exact hst k

/-- Moving one attempt on. -/
theorem Advanced.set {s t : String → Option Attempt} {id : String} {a a' : Attempt} (ha : s id = some a)
    (h : Advances a a') (ht : ∀ k, t k = if k = id then some a' else s k) : Advanced s t :=
  (Advanced.same rfl).assign ha (.inr h) ht

/-! ### Case results -/

/-- Results that are stored stay as they are. -/
def ResultsKept (results results' : CaseRuns) : Prop :=
  ∀ key row, results.get key = some row → results'.get key = some row

theorem ResultsKept.refl (results : CaseRuns) : ResultsKept results results := fun _ _ h => h

theorem ResultsKept.trans {a b c : CaseRuns} (h : ResultsKept a b) (h' : ResultsKept b c) : ResultsKept a c :=
  fun key row hr => h' key row (h key row hr)

theorem ResultsKept.insert {results : CaseRuns} {row : CaseRow} (h : results.get (row.runId, row.caseId) = none) :
    ResultsKept results (results.insert row) := by
  intro key old hold
  rw [CaseRuns.insert, Table.get_set_ne _ _ ?_]
  · exact hold
  · rintro rfl
    cases h.symm.trans hold

theorem ResultsKept.upsert (results : CaseRuns) (row : CaseRow) : ResultsKept results (results.upsert row) := by
  unfold CaseRuns.upsert
  split
  · exact ResultsKept.refl results
  · rename_i h
    exact ResultsKept.insert h

/-- The completion of an attempt that belongs to no trial stores the result of its case. -/
def WritesResult (c : AttemptCommand) (s : String → Option Attempt) (results results' : CaseRuns) : Prop :=
  ∃ r a row, c = .complete r ∧ s r.attemptId = some a ∧ a.trialId = "" ∧ r.caseRun = some row ∧
    row.runId = a.runId ∧ row.caseId = a.caseId ∧ results' = results.upsert row

/-- What an operation on attempts leaves. -/
structure AttemptServed (c : AttemptCommand) (s t : String → Option Attempt) (results results' : CaseRuns) :
    Prop where
  moved : AttemptsMoved s t
  written : results' = results ∨ WritesResult c s results results'

theorem AttemptServed.same {c : AttemptCommand} {s : String → Option Attempt} {results : CaseRuns} :
    AttemptServed c s s results results := ⟨.same rfl, .inl rfl⟩

theorem AttemptServed.kept {c : AttemptCommand} {s t : String → Option Attempt} {results results' : CaseRuns}
    (h : AttemptServed c s t results results') : ResultsKept results results' := by
  rcases h.written with rfl | ⟨_, _, row, _, _, _, _, _, _, rfl⟩
  · exact ResultsKept.refl _
  · exact ResultsKept.upsert _ row

/-- What the append of a pass leaves: the attempts, and every result that was stored. -/
structure AppendKept (s t : String → Option Attempt) (results results' : CaseRuns) : Prop where
  attempts : t = s
  kept : ResultsKept results results'

/-! ### The SQLite store -/

namespace Sqlite
variable {s : Audit} {c : AttemptCommand}

theorem attempt_setAttempt (id k : String) (a : Attempt) :
    (setAttempt id a s).attempt k = if k = id then some a else s.attempt k := by
  simp only [Audit.attempt, setAttempt, Table.get_set]
  split <;> rfl

/-- What an answered request on attempts leaves of the tables; only a quarantine writes a run. -/
structure Served (c : AttemptCommand) (s t : Audit) : Prop
    extends AttemptServed c s.attempt t.attempt s.caseRuns t.caseRuns where
  runs : (∀ r, c ≠ .quarantine r) → t.runs = s.runs

theorem wp_readAttempt {id : String} {ok : Attempt → Audit → Prop} {err : Err → Audit → Prop}
    (found : ∀ a, s.attempt id = some a → ok a s) (lost : ∀ e, err e s) :
    Op.wp (readAttempt id) s ok err := by
  simp only [readAttempt, Op.wp_bind, Op.wp_gets]
  split
  · exact lost _
  · rename_i row hrow
    simp only [Op.wp_lift, indexedAttempt_eq]
    refine ⟨fun a ha => found a ?_, fun _ he => (by cases he)⟩
    cases ha
    rw [Audit.attempt, hrow]
    rfl

theorem wp_updateAttempt {id : String} {a : Attempt} {st : AttemptStatus} {rev : Int} {ok : Unit → Audit → Prop}
    {err : Err → Audit → Prop} (done : ok () (setAttempt id a s)) (refused : ∀ e, err e s) :
    Op.wp (updateAttempt id a st rev) s ok err := by
  simp only [updateAttempt, Op.wp_bind, Op.wp_gets]
  split
  · exact refused _
  · simp only [Op.wp_bind, Op.wp_lift, Op.wp_modify]
    exact ⟨fun _ _ => done, fun e _ => refused e⟩

theorem beginAttempt_served (r : BeginAttemptRequest) :
    Op.wp (beginAttempt r) s (fun _ t => Served (.begin r) s t) (fun _ t => t = s) := by
  simp only [beginAttempt, Op.wp_bind, Op.wp_lift, Op.wp_atomically, Op.wp_gets, Op.wp_modify, Op.wp_pure,
    ensure_ok_iff]
  refine ⟨fun stored _ => ⟨fun _ _ => ⟨fun _ _ => ⟨fun _ _ => ⟨fun _ hopen => ⟨fun _ hid => ?_, ?_⟩, ?_⟩, ?_⟩, ?_⟩, ?_⟩, ?_⟩
  · refine ⟨⟨.begun stored ?_ (fun k old hold hscope => ?_) (fun k => attempt_setAttempt _ _ _), .inl rfl⟩,
      fun _ => rfl⟩
    · rw [Audit.attempt, Option.map_eq_none_iff, Table.get_eq_none_iff, List.mem_map]
      rintro ⟨row, hrow, hkey⟩
      exact (hid row hrow).1 hkey
    · obtain ⟨row, hrow, rfl⟩ := Option.map_eq_some_iff.1 hold
      have hne := hopen (k, row) (Table.mem_of_get hrow)
      obtain ⟨hst, -, htrial⟩ := row.indexed
      simp only [Attempt.scope, Prod.mk.injEq] at hscope
      by_contra hop
      exact hne ⟨hscope.1, hscope.2.1, htrial.trans hscope.2.2, by rw [hst]; simpa using hop⟩
  all_goals exact fun _ _ => trivial

theorem dispatch_served (r : DispatchRequest) :
    Op.wp (dispatch r) s (fun _ t => Served (.dispatch r) s t ∧ ∃ run, s.run r.runId = some run ∧
        run.revision = r.expectedRunRevision ∧ run.status = some r.expectedRunStatus ∧
        (run.fields.get "cancellation").truthy = false)
      (fun _ t => t = s) := by
  simp only [dispatch, Op.wp_atomically, Op.wp_bind, Op.wp_gets]
  split
  · exact trivial
  · rename_i run hrun
    simp only [Op.wp_bind, Op.wp_lift, ensure_ok_iff]
    refine ⟨fun _ hrev => ⟨fun _ hready => ?_, fun _ _ => trivial⟩, fun _ _ => trivial⟩
    refine wp_readAttempt (fun a ha => ?_) (fun _ => trivial)
    refine ⟨fun _ _ => ⟨fun u hu => ?_, fun _ _ => trivial⟩, fun _ _ => trivial⟩
    refine wp_updateAttempt ⟨⟨⟨.advanced ?_, .inl rfl⟩, fun _ => rfl⟩, run, hrun, hrev, hready⟩ (fun _ => trivial)
    exact Advanced.set ha (advances_of_ok hu) (fun k => attempt_setAttempt _ _ _)

theorem transitionAttempt_served (r : AttemptTransitionRequest) :
    Op.wp (transitionAttempt r) s (fun _ t => Served (.transition r) s t) (fun _ t => t = s) := by
  simp only [transitionAttempt, Op.wp_atomically, Op.wp_bind, Op.wp_lift, Op.wp_pure]
  refine wp_readAttempt (fun a ha => ⟨fun u hu => ?_, fun _ _ => trivial⟩) (fun _ => trivial)
  refine wp_updateAttempt ⟨⟨.advanced ?_, .inl rfl⟩, fun _ => rfl⟩ (fun _ => trivial)
  exact Advanced.set ha (advances_of_ok hu) (fun k => attempt_setAttempt _ _ _)

theorem completeAttempt_served (r : CompleteRequest) :
    Op.wp (completeAttempt r) s (fun _ t => Served (.complete r) s t) (fun _ t => t = s) := by
  simp only [completeAttempt, Op.wp_bind, Op.wp_lift, Op.wp_atomically]
  refine ⟨fun _ _ => ?_, fun _ _ => trivial⟩
  refine wp_readAttempt (fun a ha => ⟨fun p hp => ?_, fun _ _ => trivial⟩) (fun _ => trivial)
  obtain ⟨pending, u⟩ := p
  obtain ⟨htrial, hcase, hu⟩ := completeAttempt_ok hp
  simp only [Op.wp_gets, Op.wp_modify, onRuns, Op.wp_zoom, Op.wp_pure]
  refine ⟨fun _ _ => wp_updateAttempt ⟨⟨.advanced ?_, ?_⟩, fun _ => rfl⟩ (fun _ => trivial), fun _ _ => trivial⟩
  · exact Advanced.set ha (advances_of_ok hu) (fun k => attempt_setAttempt _ _ _)
  · cases hrow : r.caseRun with
    | none => exact .inl (by simp only [setAttempt])
    | some row =>
      have hbound := hcase row (by rw [hrow]; rfl)
      exact .inr ⟨r, a, row, rfl, ha, htrial (by rw [hrow]; simp), hrow, hbound.1, hbound.2,
        by simp only [setAttempt]⟩

/-- The loop over the rows of a `SELECT` moves each of them on from what it was then. -/
theorem isolateRows_advanced {s₀ : Audit} (rows : List (String × AttemptRow))
    (hrows : ∀ r ∈ rows, s₀.attempts.get r.1 = some r.2) (hs : Advanced s₀.attempt s.attempt)
    (hc : s.caseRuns = s₀.caseRuns) :
    Op.wp (isolateRows rows) s (fun _ t => Advanced s₀.attempt t.attempt ∧ t.caseRuns = s₀.caseRuns ∧
      t.toRunLog = s.toRunLog) (fun _ _ => False) := by
  induction rows generalizing s with
  | nil => exact ⟨hs, hc, rfl⟩
  | cons r rest ih =>
    obtain ⟨id, row⟩ := r
    have hrest : ∀ r ∈ rest, s₀.attempts.get r.1 = some r.2 := fun r hr => hrows r (List.mem_cons_of_mem _ hr)
    simp only [isolateRows, Op.wp_bind, Op.wp_lift, indexedAttempt_eq]
    refine ⟨fun a ha => ?_, fun _ he => (by cases he)⟩
    cases ha
    split
    · rename_i hst
      have hadvance := advanceRecord_indeterminate hst
      simp only [Op.wp_bind, Op.wp_lift, Op.wp_modify, Op.wp_pure]
      refine ⟨fun u hu => ?_, fun _ he => ?_⟩
      · have hid : s₀.attempt id = some row.payload := by
          rw [Audit.attempt, hrows (id, row) (List.mem_cons_self ..)]
          rfl
        exact ih hrest (hs.assign hid (.inr (advances_of_ok hu)) (fun k => attempt_setAttempt _ _ _)) hc
      · rw [hadvance] at he
        cases he
    · simp only [Op.wp_bind, Op.wp_pure]
      exact ih hrest hs hc

theorem isolate_served {p : String × AttemptRow → Bool} :
    Op.wp (isolateRows (s.attempts.rows.filter p)) s (fun _ t => Advanced s.attempt t.attempt ∧
      t.caseRuns = s.caseRuns ∧ t.toRunLog = s.toRunLog) (fun _ _ => False) :=
  isolateRows_advanced _ (fun _ hr => Table.get_of_mem (List.mem_of_mem_filter hr)) (.same rfl) rfl

theorem markIndeterminate_served (runId : String) :
    Op.wp (markIndeterminate runId) s (fun _ t => Served (.markIndeterminate runId) s t)
      (fun _ t => t = s) := by
  simp only [markIndeterminate, Op.wp_atomically, Op.wp_bind, Op.wp_gets]
  exact Op.wp_mono isolate_served (fun _ t h => ⟨⟨.advanced h.1, .inl h.2.1⟩, fun _ => congrArg (·.runs) h.2.2⟩) (fun _ _ h => h.elim)

theorem quarantine_served (r : QuarantineRequest) :
    Op.wp (quarantine r) s (fun _ t => Served (.quarantine r) s t) (fun _ t => t = s) := by
  simp only [quarantine, Op.wp_bind, Op.wp_lift, Op.wp_atomically, Op.wp_gets]
  refine ⟨fun pending _ => ⟨fun _ _ => ⟨fun _ _ => ?_, fun _ _ => trivial⟩, fun _ _ => trivial⟩,
    fun _ _ => trivial⟩
  split
  · exact trivial
  · rename_i run hrun
    simp only [Op.wp_bind, Op.wp_lift, Op.wp_gets]
    refine ⟨fun _ _ => ⟨fun _ _ => ?_, fun _ _ => trivial⟩, fun _ _ => trivial⟩
    refine Op.wp_mono isolate_served (fun uncertain t h => ?_) (fun _ _ h => h.elim)
    have served {log : RunLog} : Served (.quarantine r) s {t with toRunLog := log} := ⟨⟨.advanced h.1, .inl h.2.1⟩, fun hq => absurd rfl (hq r)⟩
    split
    · exact ⟨⟨.advanced h.1, .inl h.2.1⟩, fun hq => absurd rfl (hq r)⟩
    · simp only [Op.wp_bind, Op.wp_lift, onRuns, Op.wp_zoom, Op.wp_modify, Op.wp_pure]
      refine ⟨fun updated _ => ?_, fun _ _ => trivial⟩
      exact wp_updateRow (fun _ _ _ => served) trivial

theorem serveAttempt_served (c : AttemptCommand) :
    Op.wp (serveAttempt c) s (fun _ t => Served c s t) (fun _ t => t = s) := by
  cases c <;> simp only [serveAttempt, Op.wp_bind, Op.wp_pure]
  · exact beginAttempt_served _
  · exact Op.wp_mono (dispatch_served _) (fun _ _ h => h.1) (fun _ _ h => h)
  · exact transitionAttempt_served _
  · exact completeAttempt_served _
  · exact markIndeterminate_served _
  · exact quarantine_served _

/-- Looking for the run to move on changes nothing, and finds the one that is expected. -/
theorem appendTarget_found (r : AppendRequest) (passId : String) :
    Op.wp (appendTarget r passId) s (fun updated t => t = s ∧
      ((updated = none ∧ (r.expectedRunRevision = none ∨ r.expectedRunStatus = none)) ∨
        ∃ a u, updated = some u ∧ s.run r.runId = some a ∧ some a.revision = r.expectedRunRevision ∧
          a.status = r.expectedRunStatus ∧ scoredRun r passId a a.revision = .ok u)) (fun _ _ => True) := by
  unfold appendTarget
  split
  · rename_i revision status hrev hst
    simp only [Op.wp_bind, Op.wp_gets]
    split
    · trivial
    · rename_i run hrun
      simp only [Op.wp_bind, Op.wp_gets, Op.wp_lift, Op.wp_pure, ensure_ok_iff]
      refine ⟨fun _ hr => ⟨fun _ hs => ⟨fun _ _ => ⟨fun u hu => ⟨trivial, .inr ⟨run, u, rfl, hrun, ?_⟩⟩,
        fun _ _ => trivial⟩, fun _ _ => trivial⟩, fun _ _ => trivial⟩, fun _ _ => trivial⟩
      rw [hr, hrev, hst]
      exact ⟨rfl, hs, hu⟩
  · rename_i hnone
    refine ⟨rfl, .inl ⟨rfl, ?_⟩⟩
    cases hr : r.expectedRunRevision with
    | none => exact .inl rfl
    | some revision =>
      cases hs : r.expectedRunStatus with
      | none => exact .inr rfl
      | some status => exact (hnone revision status hr hs).elim

abbrev Kept (s t : Audit) : Prop := AppendKept s.attempt t.attempt s.caseRuns t.caseRuns

theorem Kept.same : Kept s s := ⟨rfl, ResultsKept.refl _⟩

theorem insertCaseRows_kept (rows : List CaseRow) :
    Op.wp (insertCaseRows rows) s (fun _ t => Kept s t) (fun _ _ => True) := by
  induction rows generalizing s with
  | nil => exact Kept.same
  | cons row rest ih =>
    simp only [insertCaseRows, Op.wp_bind, Op.wp_gets, Op.wp_lift, Op.wp_modify, ensure_ok_iff]
    refine ⟨fun _ hnone => ?_, fun _ _ => trivial⟩
    refine Op.wp_mono ih (fun _ _ h => ?_) (fun _ _ _ => trivial)
    exact ⟨h.attempts, (ResultsKept.insert hnone).trans h.kept⟩

theorem append_kept (r : AppendRequest) : Op.wp (append r) s (fun _ t => Kept s t) (fun _ t => Kept s t) := by
  simp only [append, Op.wp_bind, Op.wp_lift, Op.wp_atomically]
  refine ⟨fun prepared _ => ?_, fun _ _ => Kept.same⟩
  refine Op.wp_mono (appendTarget_found r prepared.stored.id) ?_ (fun _ _ _ => Kept.same)
  rintro updated t ⟨rfl, -⟩
  refine Op.wp_mono (insertCaseRows_kept r.caseRows) (fun _ t h => ?_) (fun _ _ _ => Kept.same)
  simp only [insertPass, Op.wp_mapErr, Op.wp_bind, Op.wp_gets, Op.wp_lift, Op.wp_modify, onRuns, Op.wp_zoom,
    Op.wp_pure]
  refine ⟨fun _ _ => ⟨fun rows _ => ?_, fun _ _ => Kept.same⟩, fun _ _ => Kept.same⟩
  exact Op.wp_always (fun _ _ => ⟨h.attempts, h.kept⟩) (fun _ _ => Kept.same)

end Sqlite

/-! ### The in-memory store -/

namespace Memory
variable {s : Audit} {c : AttemptCommand}

theorem attempt_setAttempt (id k : String) (a : Attempt) :
    (setAttempt id a s).attempt k = if k = id then some a else s.attempt k := Table.get_set _ _ _ _

/-- What an answered request on attempts leaves of the repositories; only a quarantine writes a run. -/
structure Served (c : AttemptCommand) (s t : Audit) : Prop
    extends AttemptServed c s.attempt t.attempt s.caseRuns t.caseRuns where
  runs : (∀ r, c ≠ .quarantine r) → t.runs = s.runs

theorem wp_readAttempt {id : String} {ok : Attempt → Audit → Prop} {err : Err → Audit → Prop}
    (found : ∀ a, s.attempt id = some a → ok a s) (lost : ∀ e, err e s) :
    Op.wp (readAttempt id) s ok err := by
  simp only [readAttempt, Op.wp_bind, Op.wp_gets]
  split
  · exact lost _
  · rename_i a ha
    exact found a ha

theorem beginAttempt_served (r : BeginAttemptRequest) :
    Op.wp (beginAttempt r) s (fun _ t => Served (.begin r) s t) (fun _ t => t = s) := by
  simp only [beginAttempt, Op.wp_bind, Op.wp_lift, Op.wp_gets, Op.wp_modify, Op.wp_pure, ensure_ok_iff]
  refine ⟨fun stored _ => ⟨fun _ _ => ⟨fun _ _ => ⟨fun _ _ => ⟨fun _ hopen => ⟨fun _ hid => ?_, ?_⟩, ?_⟩, ?_⟩, ?_⟩, ?_⟩, ?_⟩
  · refine ⟨⟨.begun stored ?_ (fun k old hold hscope => ?_) (fun k => attempt_setAttempt _ _ _), .inl rfl⟩,
      fun _ => rfl⟩
    · rw [Audit.attempt, Table.get_eq_none_iff, List.mem_map]
      rintro ⟨row, hrow, hkey⟩
      exact (hid row hrow).1 hkey
    · have hne := hopen (k, old) (Table.mem_of_get hold)
      simp only [Attempt.scope, Prod.mk.injEq] at hscope
      by_contra hop
      exact hne ⟨hscope.1, hscope.2.1, hscope.2.2, by simpa using hop⟩
  all_goals exact fun _ _ => trivial

theorem dispatch_served (r : DispatchRequest) :
    Op.wp (dispatch r) s (fun _ t => Served (.dispatch r) s t ∧ ∃ run, s.run r.runId = some run ∧
        run.revision = r.expectedRunRevision ∧ run.status = some r.expectedRunStatus ∧
        (run.fields.get "cancellation").truthy = false)
      (fun _ t => t = s) := by
  simp only [dispatch, Op.wp_bind, Op.wp_gets]
  split
  · rfl
  · rename_i run hrun
    simp only [Op.wp_bind, Op.wp_lift, ensure_ok_iff, Op.wp_modify, Op.wp_pure]
    refine ⟨fun _ hready => ?_, fun _ _ => trivial⟩
    refine wp_readAttempt (fun a ha => ?_) (fun _ => rfl)
    refine ⟨fun _ _ => ⟨fun u hu => ⟨⟨⟨.advanced ?_, .inl rfl⟩, fun _ => rfl⟩, run, hrun, hready⟩, fun _ _ => rfl⟩,
      fun _ _ => rfl⟩
    exact Advanced.set ha (advances_of_ok hu) (fun k => attempt_setAttempt _ _ _)

theorem transitionAttempt_served (r : AttemptTransitionRequest) :
    Op.wp (transitionAttempt r) s (fun _ t => Served (.transition r) s t) (fun _ t => t = s) := by
  simp only [transitionAttempt, Op.wp_bind, Op.wp_lift, Op.wp_modify, Op.wp_pure]
  refine wp_readAttempt (fun a ha => ⟨fun u hu => ⟨⟨.advanced ?_, .inl rfl⟩, fun _ => rfl⟩, fun _ _ => rfl⟩)
    (fun _ => rfl)
  exact Advanced.set ha (advances_of_ok hu) (fun k => attempt_setAttempt _ _ _)

theorem completeAttempt_served (r : CompleteRequest) :
    Op.wp (completeAttempt r) s (fun _ t => Served (.complete r) s t) (fun _ t => t = s) := by
  simp only [completeAttempt, Op.wp_bind, Op.wp_lift]
  refine ⟨fun _ _ => ?_, fun _ _ => trivial⟩
  refine wp_readAttempt (fun a ha => ⟨fun p hp => ?_, fun _ _ => rfl⟩) (fun _ => rfl)
  obtain ⟨pending, u⟩ := p
  obtain ⟨htrial, hcase, hu⟩ := completeAttempt_ok hp
  simp only [Op.wp_gets, Op.wp_modify, onRuns, Op.wp_zoom, Op.wp_pure]
  refine ⟨fun _ _ => ⟨⟨.advanced ?_, ?_⟩, fun _ => rfl⟩, fun _ _ => trivial⟩
  · exact Advanced.set ha (advances_of_ok hu) (fun k => attempt_setAttempt _ _ _)
  · cases hrow : r.caseRun with
    | none => exact .inl (by simp only [setAttempt])
    | some row =>
      have hbound := hcase row (by rw [hrow]; rfl)
      exact .inr ⟨r, a, row, rfl, ha, htrial (by rw [hrow]; simp), hrow, hbound.1, hbound.2,
        by simp only [setAttempt]⟩

/-- Isolating attempts gives each as it was or isolated, under its own id. -/
theorem isolated_ok {rows changed : List (String × Attempt)} (h : isolated rows = .ok changed) :
    ∀ r ∈ changed, ∃ a, (r.1, a) ∈ rows ∧
      (r.2 = a ∨ advanceRecord a a.revision .dispatching .indeterminate ∅ = .ok r.2) := by
  induction rows generalizing changed with
  | nil =>
    cases h
    exact fun r hr => nomatch hr
  | cons row rest ih =>
    obtain ⟨id, current⟩ := row
    have either : ∃ stored more, (stored = current ∨
        advanceRecord current current.revision .dispatching .indeterminate ∅ = .ok stored) ∧
        isolated rest = .ok more ∧ changed = (id, stored) :: more := by
      unfold isolated at h
      split at h
      · simp only [except_bind_ok_iff, except_pure_ok_iff] at h
        obtain ⟨stored, hstored, more, hmore, rfl⟩ := h
        exact ⟨stored, more, .inr hstored, hmore, rfl⟩
      · simp only [except_bind_ok_iff, except_pure_ok_iff] at h
        obtain ⟨stored, hstored, more, hmore, rfl⟩ := h
        exact ⟨stored, more, .inl hstored.symm, hmore, rfl⟩
    obtain ⟨stored, more, hstored, hmore, rfl⟩ := either
    intro r hr
    rcases List.mem_cons.1 hr with rfl | hr
    · exact ⟨current, List.mem_cons_self .., hstored⟩
    · obtain ⟨a, ha, h⟩ := ih hmore r hr
      exact ⟨a, List.mem_cons_of_mem _ ha, h⟩

theorem setAttempts_advanced {s₀ : Audit} (changed : List (String × Attempt))
    (h : ∀ r ∈ changed, ∃ a, s₀.attempt r.1 = some a ∧ (r.2 = a ∨ Advances a r.2))
    (hs : Advanced s₀.attempt s.attempt) :
    Advanced s₀.attempt (setAttempts changed s).attempt ∧ (setAttempts changed s).caseRuns = s.caseRuns := by
  induction changed generalizing s with
  | nil => exact ⟨hs, rfl⟩
  | cons r rest ih =>
    obtain ⟨a, ha, hr⟩ := h r (List.mem_cons_self ..)
    exact ih (fun r' hr' => h r' (List.mem_cons_of_mem _ hr'))
      (hs.assign ha hr (fun k => attempt_setAttempt _ _ _))

theorem setAttempts_runs (changed : List (String × Attempt)) : (setAttempts changed s).toRunLog = s.toRunLog := by
  induction changed generalizing s with
  | nil => rfl
  | cons r rest ih => exact ih

theorem isolated_served {p : String × Attempt → Bool} {changed : List (String × Attempt)} {s' : Audit}
    (h : isolated (s.attempts.rows.filter p) = .ok changed) (ha : s'.attempt = s.attempt)
    (hc : s'.caseRuns = s.caseRuns) :
    AttemptServed c s.attempt (setAttempts changed s').attempt s.caseRuns (setAttempts changed s').caseRuns := by
  have found : ∀ r ∈ changed, ∃ a, s.attempt r.1 = some a ∧ (r.2 = a ∨ Advances a r.2) := by
    intro r hr
    obtain ⟨a, hrow, h⟩ := isolated_ok h r hr
    exact ⟨a, Table.get_of_mem (List.mem_of_mem_filter hrow), h.imp_right advances_of_ok⟩
  obtain ⟨hadv, hres⟩ := setAttempts_advanced changed found (.same ha)
  exact ⟨.advanced hadv, .inl (hres.trans hc)⟩

theorem markIndeterminate_served (runId : String) :
    Op.wp (markIndeterminate runId) s (fun _ t => Served (.markIndeterminate runId) s t)
      (fun _ t => t = s) := by
  simp only [markIndeterminate, Op.wp_bind, Op.wp_gets, Op.wp_lift, Op.wp_modify, Op.wp_pure]
  exact ⟨fun changed h => ⟨isolated_served h rfl rfl, fun _ => congrArg (·.runs) (setAttempts_runs changed)⟩,
    fun _ _ => trivial⟩

/-- A transition of a run that is refused has written nothing. -/
theorem transitionRun_refused {s : RunLog} (r : RunTransitionRequest) :
    Op.wp (transitionRun r) s (fun _ _ => True) (fun _ t => t = s) := by
  simp only [transitionRun, Op.wp_bind, Op.wp_lift, Op.wp_gets]
  refine ⟨fun _ _ => ⟨fun _ _ => ?_, fun _ _ => trivial⟩, fun _ _ => trivial⟩
  split
  · rfl
  · simp only [Op.wp_bind, Op.wp_lift, publishRun, Op.wp_modify, Op.wp_pure]
    exact ⟨fun _ _ => trivial, fun _ _ => trivial⟩

theorem quarantine_served (r : QuarantineRequest) :
    Op.wp (quarantine r) s (fun _ t => Served (.quarantine r) s t) (fun _ t => t = s) := by
  simp only [quarantine, Op.wp_bind, Op.wp_lift, Op.wp_gets]
  refine ⟨fun pending _ => ⟨fun _ _ => ?_, fun _ _ => trivial⟩, fun _ _ => trivial⟩
  split
  · rfl
  · simp only [Op.wp_bind, Op.wp_lift, Op.wp_gets]
    refine ⟨fun _ _ => ⟨fun _ _ => ⟨fun changed h => ?_, fun _ _ => trivial⟩, fun _ _ => trivial⟩,
      fun _ _ => trivial⟩
    split
    · exact ⟨⟨.same rfl, .inl rfl⟩, fun _ => rfl⟩
    · simp only [Op.wp_bind, Op.wp_modify, Op.wp_pure, onRuns, Op.wp_zoom]
      exact Op.wp_mono (transitionRun_refused _)
        (fun _ _ _ => ⟨isolated_served h rfl rfl, fun hq => absurd rfl (hq r)⟩) (fun _ _ ht => by rw [ht])

theorem serveAttempt_served (c : AttemptCommand) :
    Op.wp (serveAttempt c) s (fun _ t => Served c s t) (fun _ t => t = s) := by
  cases c <;> simp only [serveAttempt, Op.wp_bind, Op.wp_pure]
  · exact beginAttempt_served _
  · exact Op.wp_mono (dispatch_served _) (fun _ _ h => h.1) (fun _ _ h => h)
  · exact transitionAttempt_served _
  · exact completeAttempt_served _
  · exact markIndeterminate_served _
  · exact quarantine_served _

abbrev Kept (s t : Audit) : Prop := AppendKept s.attempt t.attempt s.caseRuns t.caseRuns

theorem Kept.same : Kept s s := ⟨rfl, ResultsKept.refl _⟩

/-- Rows stored before a conflict stay, but none that was there is changed. -/
theorem insertCaseRows_kept (rows : List CaseRow) :
    Op.wp (insertCaseRows rows) s (fun _ t => Kept s t) (fun _ t => Kept s t) := by
  induction rows generalizing s with
  | nil => exact Kept.same
  | cons row rest ih =>
    simp only [insertCaseRows, Op.wp_bind, Op.wp_gets, Op.wp_lift, Op.wp_modify, ensure_ok_iff]
    refine ⟨fun _ hnone => ?_, fun _ _ => Kept.same⟩
    exact Op.wp_mono ih (fun _ _ h => ⟨h.attempts, (ResultsKept.insert hnone).trans h.kept⟩)
      (fun _ _ h => ⟨h.attempts, (ResultsKept.insert hnone).trans h.kept⟩)

theorem append_kept (r : AppendRequest) : Op.wp (append r) s (fun _ t => Kept s t) (fun _ t => Kept s t) := by
  simp only [append, Op.wp_bind, Op.wp_lift, Op.wp_gets, Op.wp_modify, Op.wp_pure, onRuns, Op.wp_zoom]
  refine ⟨fun prepared _ => ⟨fun _ _ => ⟨fun _ _ => ⟨fun _ _ => ⟨fun updated _ => ?_, ?_⟩, ?_⟩, ?_⟩, ?_⟩, ?_⟩
  · refine Op.wp_mono (insertCaseRows_kept r.caseRows) (fun _ t h => ?_) (fun _ _ h => h)
    exact Op.wp_always (fun _ _ => ⟨h.attempts, h.kept⟩) (fun _ _ => ⟨h.attempts, h.kept⟩)
  all_goals exact fun _ _ => Kept.same

end Memory

end Motte.Storage
