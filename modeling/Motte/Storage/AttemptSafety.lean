import Motte.Storage.AttemptMoves
import Motte.Storage.Publish

/-! Attempts are safe under any interleaving.

At most one attempt of a case and trial is open, an attempt that has ended stays
as it ended, none changes its identity, a case result is written once and never
for a trial, and a dispatch goes through only against the run it was prepared
for: at the expected revision, in the expected status, with no cancellation
recorded. The status alone does not stop a dispatch that expects a cancelled run. -/
namespace Motte.Storage
open Foundation

/-! ### The two stores as systems of attempts -/

/-- The run is at the revision and in the status that a dispatch expects, and is not being cancelled. -/
def Dispatchable (r : DispatchRequest) (run : Option Run) : Prop :=
  ∃ found, run = some found ∧ found.revision = r.expectedRunRevision ∧
    found.status = some r.expectedRunStatus ∧ (found.fields.get "cancellation").truthy = false

structure AttemptSystem (σ : Type) where
  serve : Request → Op σ Err Reply
  attempt : σ → String → Option Attempt
  caseRuns : σ → CaseRuns
  runAt : σ → String → Option Run
  served : ∀ c s, AttemptServed c (attempt s) (attempt (serve (.attempt c) s).2) (caseRuns s)
    (caseRuns (serve (.attempt c) s).2)
  /-- The other requests leave the attempts and every result that is stored. -/
  kept : ∀ q s, (∀ c, q ≠ .attempt c) → AppendKept (attempt s) (attempt (serve q s).2) (caseRuns s)
    (caseRuns (serve q s).2)
  dispatched : ∀ r s reply t, serve (.attempt (.dispatch r)) s = (.ok reply, t) → Dispatchable r (runAt s r.runId)

namespace Sqlite

theorem serve_kept (q : Request) (s : Database) (hq : ∀ c, q ≠ .attempt c) :
    Kept s.toAudit (serve q s).2.toAudit := by
  refine Op.wp_state (Q := fun t : Database => Kept s.toAudit t.toAudit) ?_
  cases q with
  | attempt c => exact absurd rfl (hq c)
  | run c =>
    simp only [serve, onAudit, onRuns, Op.wp_zoom]
    exact Op.wp_always (fun _ _ => Kept.same) (fun _ _ => Kept.same)
  | append r =>
    simp only [serve, onAudit, Op.wp_bind, Op.wp_pure, Op.wp_zoom]
    exact append_kept r
  | job c =>
    simp only [serve, onJobs, Op.wp_bind, Op.wp_pure, Op.wp_zoom]
    exact Op.wp_always (fun _ _ => Kept.same) (fun _ _ => Kept.same)
  | publish r =>
    simp only [serve, Op.wp_bind, Op.wp_pure]
    refine Op.wp_mono (publish_spec r s) (fun reply t h => ?_) (fun _ _ h => h ▸ Kept.same)
    rcases h with ⟨-, j, u, -, hp⟩ | ⟨-, rfl, -⟩
    · obtain ⟨_, _, _, _, _, _, _, _, rfl⟩ := hp.state
      exact Kept.same
    · exact Kept.same

theorem serve_served (c : AttemptCommand) (s : Database) :
    AttemptServed c s.attempt (serve (.attempt c) s).2.attempt s.caseRuns (serve (.attempt c) s).2.caseRuns := by
  refine Op.wp_state (x := serveAttempt c) (Q := fun t : Audit =>
    AttemptServed c s.attempt t.attempt s.caseRuns t.caseRuns) ?_
  exact Op.wp_mono (serveAttempt_served c) (fun _ _ h => h.toAttemptServed) (fun _ _ h => h ▸ .same)

theorem serve_dispatched {r : DispatchRequest} {s t : Database} {reply : Reply}
    (h : serve (.attempt (.dispatch r)) s = (.ok reply, t)) : Dispatchable r (s.run r.runId) := by
  have hd : Op.wp (serve (.attempt (.dispatch r))) s (fun _ _ => Dispatchable r (s.run r.runId))
      (fun _ _ => True) := by
    simp only [serve, serveAttempt, onAudit, Op.wp_zoom, Op.wp_bind, Op.wp_pure]
    exact Op.wp_mono (dispatch_served r) (fun _ _ h => h.2) (fun _ _ _ => trivial)
  rwa [Op.wp_of_ok h] at hd

end Sqlite

namespace Memory

theorem serve_kept (q : Request) (s : Store) (hq : ∀ c, q ≠ .attempt c) :
    Kept s.toAudit (serve q s).2.toAudit := by
  refine Op.wp_state (Q := fun t : Store => Kept s.toAudit t.toAudit) ?_
  cases q with
  | attempt c => exact absurd rfl (hq c)
  | run c =>
    simp only [serve, onAudit, onRuns, Op.wp_zoom]
    exact Op.wp_always (fun _ _ => Kept.same) (fun _ _ => Kept.same)
  | append r =>
    simp only [serve, onAudit, Op.wp_bind, Op.wp_pure, Op.wp_zoom]
    exact append_kept r
  | job c =>
    simp only [serve, onJobs, Op.wp_bind, Op.wp_pure, Op.wp_zoom]
    exact Op.wp_always (fun _ _ => Kept.same) (fun _ _ => Kept.same)
  | publish r =>
    have published {j u : StoredJob} {result : Except Err Unit} {t : Store}
        (hp : Publication r s j u result t) : Kept s.toAudit t.toAudit := by
      obtain ⟨log, -, -, ht⟩ := hp.state
      rw [ht]
      exact Kept.same
    simp only [serve, Op.wp_bind, Op.wp_pure]
    refine Op.wp_mono (publish_spec r s) (fun reply t h => ?_) (fun e t h => ?_)
    · rcases h with ⟨-, j, u, -, hp⟩ | ⟨-, rfl, -⟩
      · exact published hp
      · exact Kept.same
    · rcases h with ⟨rfl, -⟩ | ⟨j, u, log, -, -, rfl⟩ | ⟨j, u, hp⟩
      · exact Kept.same
      · exact Kept.same
      · exact published hp

theorem serve_served (c : AttemptCommand) (s : Store) :
    AttemptServed c s.attempt (serve (.attempt c) s).2.attempt s.caseRuns (serve (.attempt c) s).2.caseRuns := by
  refine Op.wp_state (x := serveAttempt c) (Q := fun t : Audit =>
    AttemptServed c s.attempt t.attempt s.caseRuns t.caseRuns) ?_
  exact Op.wp_mono (serveAttempt_served c) (fun _ _ h => h.toAttemptServed) (fun _ _ h => h ▸ .same)

theorem serve_dispatched {r : DispatchRequest} {s t : Store} {reply : Reply}
    (h : serve (.attempt (.dispatch r)) s = (.ok reply, t)) : Dispatchable r (s.run r.runId) := by
  have hd : Op.wp (serve (.attempt (.dispatch r))) s (fun _ _ => Dispatchable r (s.run r.runId))
      (fun _ _ => True) := by
    simp only [serve, serveAttempt, onAudit, Op.wp_zoom, Op.wp_bind, Op.wp_pure]
    exact Op.wp_mono (dispatch_served r) (fun _ _ h => h.2) (fun _ _ _ => trivial)
  rwa [Op.wp_of_ok h] at hd

end Memory

def sqliteAttempts : AttemptSystem Sqlite.Database where
  serve := Sqlite.serve
  attempt s := s.attempt
  caseRuns s := s.caseRuns
  runAt s := s.run
  served := Sqlite.serve_served
  kept := Sqlite.serve_kept
  dispatched _ _ _ _ h := Sqlite.serve_dispatched h

def memoryAttempts : AttemptSystem Memory.Store where
  serve := Memory.serve
  attempt s := s.attempt
  caseRuns s := s.caseRuns
  runAt s := s.run
  served := Memory.serve_served
  kept := Memory.serve_kept
  dispatched _ _ _ _ h := Memory.serve_dispatched h

/-! ### One open attempt -/

/-- At most one attempt of a run, case and trial is open. -/
def Exclusive (attempts : String → Option Attempt) : Prop :=
  ∀ k k' a a', attempts k = some a → attempts k' = some a' → a.scope = a'.scope →
    a.status.isOpen = true → a'.status.isOpen = true → k = k'

theorem Attempt.scope_of_identity {a a' : Attempt} (h : a'.identity = a.identity) : a'.scope = a.scope := by
  simp only [Attempt.identity, Prod.mk.injEq] at h
  simp only [Attempt.scope, h.2.1, h.2.2.1, h.2.2.2.2]

/-- Only an open attempt moves on. -/
theorem AttemptStatus.isOpen_of_transition {st st' : AttemptStatus} (h : st' ∈ st.transitions) :
    st.isOpen = true := by
  cases st <;> first | rfl | cases h

/-- An attempt that is open after a move was open, in the same scope, before it. -/
theorem Advanced.origin {s t : String → Option Attempt} (h : Advanced s t) {k : String} {a' : Attempt}
    (ha : t k = some a') (ho : a'.status.isOpen = true) :
    ∃ a, s k = some a ∧ a.scope = a'.scope ∧ a.status.isOpen = true := by
  rcases h k with hs | ⟨a, a'', hs, ht, hadv⟩
  · exact ⟨a', hs.symm.trans ha, rfl, ho⟩
  · cases ht.symm.trans ha
    exact ⟨a, hs, (Attempt.scope_of_identity hadv.identity).symm,
      AttemptStatus.isOpen_of_transition hadv.legal⟩

theorem Exclusive.moved {s t : String → Option Attempt} (h : Exclusive s) (hm : AttemptsMoved s t) :
    Exclusive t := by
  intro k k' a a' ha ha' hscope ho ho'
  cases hm with
  | begun new fresh unblocked added =>
    -- an old attempt that is open cannot share the scope of the new one
    have blocked {k : String} {old : Attempt} (hk : k ≠ new.id) (hold : t k = some old)
        (hs : old.scope = new.scope) (hop : old.status.isOpen = true) : False := by
      rw [added, if_neg hk] at hold
      rw [unblocked k old hold hs] at hop
      cases hop
    by_cases hk : k = new.id
    · by_cases hk' : k' = new.id
      · rw [hk, hk']
      · rw [added, if_pos hk] at ha
        cases ha
        exact (blocked hk' ha' hscope.symm ho').elim
    · by_cases hk' : k' = new.id
      · rw [added, if_pos hk'] at ha'
        cases ha'
        exact (blocked hk ha hscope ho).elim
      · rw [added, if_neg hk] at ha
        rw [added, if_neg hk'] at ha'
        exact h k k' a a' ha ha' hscope ho ho'
  | advanced hadv =>
    obtain ⟨b, hb, hbs, hbo⟩ := hadv.origin ha ho
    obtain ⟨b', hb', hbs', hbo'⟩ := hadv.origin ha' ho'
    exact h k k' b b' hb hb' (hbs.trans (hscope.trans hbs'.symm)) hbo hbo'

/-! ### What stays -/

/-- Attempts stay who they are, and those that have ended stay as they ended. -/
def Persist (s t : String → Option Attempt) : Prop :=
  ∀ k a, s k = some a → ∃ a', t k = some a' ∧ a'.identity = a.identity ∧
    (a.status.terminal = true → a' = a)

theorem Persist.refl (s : String → Option Attempt) : Persist s s := fun _ a ha => ⟨a, ha, rfl, fun _ => rfl⟩

theorem Persist.trans {s t u : String → Option Attempt} (h : Persist s t) (h' : Persist t u) : Persist s u := by
  intro k a ha
  obtain ⟨b, hb, hid, hterm⟩ := h k a ha
  obtain ⟨c, hc, hid', hterm'⟩ := h' k b hb
  refine ⟨c, hc, hid'.trans hid, fun ht => ?_⟩
  obtain rfl := hterm ht
  exact hterm' ht

theorem AttemptsMoved.persist {s t : String → Option Attempt} (h : AttemptsMoved s t) : Persist s t := by
  intro k a ha
  cases h with
  | begun new fresh _ added =>
    refine ⟨a, ?_, rfl, fun _ => rfl⟩
    rw [added, if_neg]
    · exact ha
    · rintro rfl
      cases fresh.symm.trans ha
  | advanced hadv =>
    rcases hadv k with hs | ⟨b, b', hb, hb', hadv⟩
    · exact ⟨a, hs.trans ha, rfl, fun _ => rfl⟩
    · cases hb.symm.trans ha
      refine ⟨b', hb', hadv.identity, fun ht => ?_⟩
      have hnone : a.status.transitions = [] := List.isEmpty_iff.1 ht
      have hlegal := hadv.legal
      rw [hnone] at hlegal
      cases hlegal

/-! ### Runs -/

namespace AttemptSystem
variable {σ : Type} (S : AttemptSystem σ)

def step (q : Request) (s : σ) : σ := (S.serve q s).2

/-- The state holds no attempt. -/
def Empty (s : σ) : Prop := ∀ k, S.attempt s k = none

variable {S}

theorem moves (q : Request) (s : σ) : AttemptsMoved (S.attempt s) (S.attempt (S.step q s)) ∧
    ResultsKept (S.caseRuns s) (S.caseRuns (S.step q s)) := by
  have other (hq : ∀ c, q ≠ .attempt c) : AttemptsMoved (S.attempt s) (S.attempt (S.step q s)) ∧
      ResultsKept (S.caseRuns s) (S.caseRuns (S.step q s)) :=
    ⟨.same (S.kept q s hq).attempts, (S.kept q s hq).kept⟩
  cases q with
  | attempt c => exact ⟨(S.served c s).moved, (S.served c s).kept⟩
  | run => exact other (fun _ h => nomatch h)
  | append => exact other (fun _ h => nomatch h)
  | job => exact other (fun _ h => nomatch h)
  | publish => exact other (fun _ h => nomatch h)

theorem exclusive_run {s : σ} (h : Exclusive (S.attempt s)) (requests : List Request) :
    Exclusive (S.attempt (run S.step s requests)) :=
  run_keeps (I := fun s => Exclusive (S.attempt s)) (fun s q hs => hs.moved (moves q s).1) requests h

theorem persist_run (s : σ) (requests : List Request) :
    Persist (S.attempt s) (S.attempt (run S.step s requests)) ∧
      ResultsKept (S.caseRuns s) (S.caseRuns (run S.step s requests)) := by
  exact run_relates
    (R := fun s t => Persist (S.attempt s) (S.attempt t) ∧ ResultsKept (S.caseRuns s) (S.caseRuns t))
    (fun s => ⟨Persist.refl _, ResultsKept.refl _⟩) (fun _ _ _ h h' => ⟨h.1.trans h'.1, h.2.trans h'.2⟩)
    (fun s q => ⟨(moves q s).1.persist, (moves q s).2⟩) s requests

end AttemptSystem

/-- What holds of the attempts in the state `s`, and of those in `s` in the later state `t`. -/
structure SafeAttempts {σ : Type} (S : AttemptSystem σ) (s t : σ) : Prop where
  exclusive : Exclusive (S.attempt s)
  identity : ∀ k a, S.attempt s k = some a → ∃ a', S.attempt t k = some a' ∧ a'.identity = a.identity
  ended : ∀ k a, S.attempt s k = some a → a.status.terminal = true → S.attempt t k = some a
  results : ∀ key row, (S.caseRuns s).get key = some row → (S.caseRuns t).get key = some row
  /-- Only the completion of an attempt that belongs to no trial writes a result, of its own case. -/
  writes : ∀ c, S.caseRuns (S.step (.attempt c) s) = S.caseRuns s ∨
    WritesResult c (S.attempt s) (S.caseRuns s) (S.caseRuns (S.step (.attempt c) s))
  dispatches : ∀ r reply u, S.serve (.attempt (.dispatch r)) s = (.ok reply, u) →
    Dispatchable r (S.runAt s r.runId)

/-- Attempts are safe in every state that requests of any kind reach, and in every later one. -/
def AttemptSafety {σ : Type} (S : AttemptSystem σ) (start : σ) : Prop :=
  ∀ before after, SafeAttempts S (run S.step start before) (run S.step start (before ++ after))

theorem AttemptSystem.Empty.safety {σ : Type} {S : AttemptSystem σ} {start : σ} (h : S.Empty start) :
    AttemptSafety S start := by
  intro before after
  rw [run_append]
  obtain ⟨persist, results⟩ := AttemptSystem.persist_run (S := S) (run S.step start before) after
  refine ⟨AttemptSystem.exclusive_run (fun k _ a _ ha => ?_) before, fun k a ha => ?_, fun k a ha ht => ?_, results,
    fun c => (S.served c _).written, fun r reply u => S.dispatched r _ reply u⟩
  · cases (h k).symm.trans ha
  · obtain ⟨a', ha', hid, -⟩ := persist k a ha
    exact ⟨a', ha', hid⟩
  · obtain ⟨a', ha', -, hend⟩ := persist k a ha
    rw [ha', hend ht]

theorem attempts_safe : AttemptSafety sqliteAttempts ∅ ∧ AttemptSafety memoryAttempts ∅ :=
  ⟨AttemptSystem.Empty.safety (fun _ => rfl), AttemptSystem.Empty.safety (fun _ => rfl)⟩

/-- A run with one attempt prepared is cancelled by a change of status alone. -/
def cancelledRun : List Request := [
  .run (.create {id := "run", status := some "running"} none),
  .attempt (.begin {record := {id := some "a", generatedId := "", runId := "run", caseId := "case"}}),
  .run (.transition {runId := "run", expectedRevision := 1, expectedStatus := "running", status := "cancelled"})]

/-- The dispatch of the attempt of a cancelled run, asked for in that status. -/
def dispatchCancelled : DispatchRequest where
  attemptId := "a"
  expectedRevision := 1
  runId := "run"
  expectedRunRevision := 2
  expectedRunStatus := "cancelled"
  now := "t"

/-- The status of the attempt that a request answers with. -/
def attemptStatus : Except Err Reply → Option AttemptStatus
  | .ok (.attempt a) => some a.status
  | _ => none

theorem cancelled_run_dispatched :
    ((sqliteAttempts.runAt (run sqliteAttempts.step ∅ cancelledRun) "run").bind (·.status) = some "cancelled" ∧
      attemptStatus (sqliteAttempts.serve (.attempt (.dispatch dispatchCancelled))
        (run sqliteAttempts.step ∅ cancelledRun)).1 = some .dispatching) ∧
    (memoryAttempts.runAt (run memoryAttempts.step ∅ cancelledRun) "run").bind (·.status) = some "cancelled" ∧
      attemptStatus (memoryAttempts.serve (.attempt (.dispatch dispatchCancelled))
        (run memoryAttempts.step ∅ cancelledRun)).1 = some .dispatching := by decide

end Motte.Storage
