import Motte.Storage.PassAppend
import Motte.Storage.StoreMirror

/-! The SQLite and the in-memory repositories of attempts and scoring passes are
observationally equivalent.

The rows of `case_attempts` repeat members of the payload in columns, and the two
stores order their checks differently; both matter only to which exception is
raised. What does tell the stores apart is left out by `AuditRule`: an append that
the in-memory store gives up halfway, one that asks for no open attempt without
naming the run it expects, and a quarantine that isolates nothing and yet has
changes the run would refuse. -/
namespace Motte.Storage
open Foundation

/-- The tables of attempts and passes hold what the in-memory repositories hold. -/
structure MirrorsAudit (s : Sqlite.Audit) (m : Memory.Audit) : Prop where
  runs : MirrorsRuns s.toRunLog m.toRunLog
  caseRuns : s.caseRuns = m.caseRuns
  attempts : s.attempts = m.attempts.map Sqlite.AttemptRow.of
  passes : s.passes = m.passes
  scored : ∀ row ∈ s.scoreSets, s.passes.get row.passId ≠ none

/-- Both repositories answer alike and stay mirrored, or both raise and do. -/
abbrev AuditAlike {α : Type} (x : Sqlite.AuditHandler α) (s : Sqlite.Audit) (y : Memory.AuditHandler α)
    (m : Memory.Audit) : Prop :=
  Op.sim x s y m (fun a s' b m' => a = b ∧ MirrorsAudit s' m') MirrorsAudit

/-- Events do not matter. -/
theorem MirrorsRuns.same {s s' : Sqlite.RunLog} {m m' : Memory.RunLog} (h : MirrorsRuns s m)
    (hs : s'.runs = s.runs) (hm : m'.runs = m.runs) : MirrorsRuns s' m' := by
  refine ⟨by rw [hs, hm, h.rows], fun k a ha => h.sound k a ?_⟩
  rw [Memory.RunLog.run, hm] at ha
  exact ha

section Audit
variable {s : Sqlite.Audit} {m : Memory.Audit}

/-- Only the runs have moved. -/
theorem MirrorsAudit.withRuns (h : MirrorsAudit s m) {t : Sqlite.RunLog} {n : Memory.RunLog}
    (runs : MirrorsRuns t n) : MirrorsAudit {s with toRunLog := t} {m with toRunLog := n} :=
  ⟨runs, h.caseRuns, h.attempts, h.passes, h.scored⟩

/-! ### Attempts -/

theorem MirrorsAudit.attempt (h : MirrorsAudit s m) (id : String) :
    s.attempts.get id = (m.attempt id).map Sqlite.AttemptRow.of := by
  rw [h.attempts, Table.get_map]
  rfl

theorem MirrorsAudit.setAttempt (h : MirrorsAudit s m) (id : String) (a : Attempt) :
    MirrorsAudit (Sqlite.setAttempt id a s) (Memory.setAttempt id a m) := by
  refine ⟨h.runs, h.caseRuns, ?_, h.passes, h.scored⟩
  simp only [Sqlite.setAttempt, Memory.setAttempt, h.attempts]
  exact Table.set_map Sqlite.AttemptRow.of m.attempts id a

/-- An attempt is read in both stores or missing in both. -/
theorem readAttempt_alike (h : MirrorsAudit s m) (id : String) {α : Type}
    {f : Attempt → Sqlite.AuditHandler α} {g : Attempt → Memory.AuditHandler α}
    {ok : α → Sqlite.Audit → α → Memory.Audit → Prop} {err : Sqlite.Audit → Memory.Audit → Prop} (missing : err s m)
    (found : ∀ a, m.attempt id = some a → Op.sim (f a) s (g a) m ok err) :
    Op.sim (Sqlite.readAttempt id >>= f) s (Memory.readAttempt id >>= g) m ok err := by
  cases ha : m.attempt id with
  | none =>
    have hrow : s.attempts.get id = none := by rw [h.attempt, ha]; rfl
    have hs : Sqlite.readAttempt id s = (.error (.runConflict ("attempt missing: " ++ id)), s) := by
      rw [Sqlite.readAttempt, Op.bind_of_ok (Op.gets_apply _), hrow]
      rfl
    have hm : Memory.readAttempt id m = (.error (.runConflict ("attempt missing: " ++ id)), m) := by
      rw [Memory.readAttempt, Op.bind_of_ok (Op.gets_apply _), ha]
      rfl
    exact Op.sim_raises (Op.bind_of_error hs) (Op.bind_of_error hm) missing
  | some a =>
    have hrow : s.attempts.get id = some (.of a) := by rw [h.attempt, ha]; rfl
    have hs : Sqlite.readAttempt id s = (.ok a, s) := by
      rw [Sqlite.readAttempt, Op.bind_of_ok (Op.gets_apply _), hrow]
      simp only [Sqlite.indexedAttempt_eq, Op.lift_apply]
      rfl
    have hm : Memory.readAttempt id m = (.ok a, m) := by
      rw [Memory.readAttempt, Op.bind_of_ok (Op.gets_apply _), ha]
      rfl
    exact Op.sim_bind (Op.sim_returns hs hm (found a ha))

/-- The `UPDATE` of an attempt that was read goes through. -/
theorem updateAttempt_of_match (h : MirrorsAudit s m) {id : String} {a stored : Attempt}
    (ha : m.attempt id = some a) :
    Sqlite.updateAttempt id stored a.status a.revision s = (.ok (), Sqlite.setAttempt id stored s) := by
  have hrow : s.attempts.get id = some (.of a) := by rw [h.attempt, ha]; rfl
  unfold Sqlite.updateAttempt
  rw [Op.bind_of_ok (Op.gets_apply _), hrow]
  show (Op.lift _ >>= fun _ => Op.modify _) s = _
  rw [Op.bind_of_ok (Op.lift_ensure_of ⟨rfl, rfl⟩)]
  rfl

/-- An advance of an attempt is written in both stores. -/
theorem advance_alike (h : MirrorsAudit s m) {id : String} {a : Attempt} (ha : m.attempt id = some a) {rev : Int}
    {st st' : AttemptStatus} {changes : Fields} {err : Sqlite.Audit → Memory.Audit → Prop} (refused : err s m) :
    Op.sim
      (do
        let stored ← Op.lift (advanceRecord a rev st st' changes)
        Sqlite.updateAttempt id stored st rev
        return stored) s
      (do
        let stored ← Op.lift (advanceRecord a rev st st' changes)
        Op.modify (Memory.setAttempt id stored)
        return stored) m (fun a s' b m' => a = b ∧ MirrorsAudit s' m') err := by
  refine Op.sim_bind (Op.sim_lift (fun u hu => ?_) (fun _ _ => refused))
  obtain ⟨rfl, rfl, _, _⟩ := advanceRecord_ok hu
  refine Op.sim_left (updateAttempt_of_match h ha) ?_
  exact Op.sim_returns rfl rfl ⟨rfl, h.setAttempt id u⟩

theorem beginAttempt_alike (h : MirrorsAudit s m) (r : BeginAttemptRequest) :
    AuditAlike (Sqlite.beginAttempt r) s (Memory.beginAttempt r) m := by
  refine Op.sim_bind (Op.sim_lift (fun stored _ => ?_) (fun _ _ => h))
  refine Op.sim_atomically (Op.sim_bind (Op.sim_lift (fun _ _ => ?_) (fun _ _ => h)))
  refine Op.sim_bind (Op.sim_gets ?_)
  have hrev : (s.runs.get stored.runId).map (·.revision) = (m.run stored.runId).map (·.revision) := by
    rw [h.runs.get, Option.map_map]
    rfl
  have hst : (s.runs.get stored.runId).bind (·.payload.status) = (m.run stored.runId).bind (·.status) := by
    rw [h.runs.get, Option.bind_map]
    rfl
  rw [hrev, hst]
  refine Op.sim_bind (Op.sim_lift (fun _ _ => ?_) (fun _ _ => h))
  refine Op.sim_bind (Op.sim_gets ?_)
  rw [h.caseRuns]
  refine Op.sim_bind (Op.sim_lift (fun _ _ => ?_) (fun _ _ => h))
  refine Op.sim_bind (Op.sim_gets ?_)
  simp only [h.attempts, Table.map_rows, List.forall_mem_map]
  refine Op.sim_bind (Op.sim_lift (fun _ _ => ?_) (fun _ _ => h))
  refine Op.sim_bind (Op.sim_lift (fun _ _ => ?_) (fun _ _ => h))
  exact Op.sim_returns rfl rfl ⟨rfl, h.setAttempt stored.id stored⟩

theorem dispatch_alike (h : MirrorsAudit s m) (r : DispatchRequest) :
    AuditAlike (Sqlite.dispatch r) s (Memory.dispatch r) m := by
  refine Op.sim_atomically (Op.sim_bind (Op.sim_gets ?_))
  rw [h.runs.run]
  cases m.run r.runId with
  | none => exact Op.sim_raise h
  | some run =>
    by_cases hrev : run.revision = r.expectedRunRevision
    · refine Op.sim_left (Op.lift_ensure_of hrev) ?_
      refine Op.sim_bind (Op.sim_ensure ⟨fun h => ⟨hrev, h⟩, fun h => h.2⟩ (fun _ => ?_) (fun _ => h))
      refine readAttempt_alike h _ h (fun a ha => ?_)
      refine Op.sim_bind (Op.sim_lift (fun _ _ => ?_) (fun _ _ => h))
      exact advance_alike h ha h
    · exact Op.sim_raises (Op.bind_of_error (Op.lift_ensure_of_not hrev))
        (Op.bind_of_error (Op.lift_ensure_of_not (fun hall => hrev hall.1))) h

theorem transitionAttempt_alike (h : MirrorsAudit s m) (r : AttemptTransitionRequest) :
    AuditAlike (Sqlite.transitionAttempt r) s (Memory.transitionAttempt r) m :=
  Op.sim_atomically (readAttempt_alike h _ h (fun _ ha => advance_alike h ha h))

theorem completeAttempt_alike (h : MirrorsAudit s m) (r : CompleteRequest) :
    AuditAlike (Sqlite.completeAttempt r) s (Memory.completeAttempt r) m := by
  refine Op.sim_bind (Op.sim_lift (fun _ _ => ?_) (fun _ _ => h))
  refine Op.sim_atomically (readAttempt_alike h _ h (fun a ha => ?_))
  refine Op.sim_bind (Op.sim_lift (fun u hu => ?_) (fun _ _ => h))
  obtain ⟨pending, stored⟩ := u
  refine Op.sim_bind (Op.sim_gets ?_)
  rw [h.caseRuns]
  refine Op.sim_bind (Op.sim_lift (fun _ _ => ?_) (fun _ _ => h))
  obtain ⟨-, -, hadvance⟩ := completeAttempt_ok hu
  obtain ⟨hrev, hst, -, -⟩ := advanceRecord_ok hadvance
  refine Op.sim_left rfl ?_
  have written {rows rows' : CaseRuns} (same : rows = rows') :
      MirrorsAudit {s with caseRuns := rows} {m with caseRuns := rows'} :=
    ⟨h.runs, same, h.attempts, h.passes, h.scored⟩
  rw [← hrev, ← hst]
  refine Op.sim_left (updateAttempt_of_match (written rfl) ha) ?_
  exact Op.sim_returns rfl rfl ⟨rfl, ((written (by cases r.caseRun <;> simp only [h.caseRuns])).setAttempt _ stored).withRuns (h.runs.same rfl rfl)⟩

/-- Isolating attempts that are stored, each under its own id. -/
theorem isolateRows_alike (h : MirrorsAudit s m) (rows : List (String × Attempt))
    (distinct : (rows.map Prod.fst).Nodup) (found : ∀ r ∈ rows, m.attempt r.1 = some r.2) :
    ∃ changed s', Sqlite.isolateRows (rows.map (fun r => (r.1, .of r.2))) s = (.ok (changed.map (·.2)), s') ∧
      Memory.isolated rows = .ok changed ∧ s'.toRunLog = s.toRunLog ∧
      MirrorsAudit s' (Memory.setAttempts changed m) := by
  induction rows generalizing s m with
  | nil => exact ⟨[], s, rfl, rfl, rfl, h⟩
  | cons r rest ih =>
    obtain ⟨id, a⟩ := r
    rw [List.map_cons, List.nodup_cons] at distinct
    have ha : m.attempt id = some a := found (id, a) (List.mem_cons_self ..)
    have hrest : ∀ r ∈ rest, m.attempt r.1 = some r.2 := fun r hr => found r (List.mem_cons_of_mem _ hr)
    have hread : ∀ t : Sqlite.Audit, (Op.lift (Sqlite.indexedAttempt (.of a)) : Sqlite.AuditHandler Attempt) t =
        (.ok a, t) := by
      intro t
      rw [Op.lift_apply, Sqlite.indexedAttempt_eq]
      rfl
    by_cases hst : a.status = .dispatching
    · have hadvance := advanceRecord_indeterminate hst
      generalize {a with status := .indeterminate, revision := a.revision + 1, fields := a.fields.merge ∅} = u at hadvance
      have hrest' : ∀ r ∈ rest, (Memory.setAttempt id u m).attempt r.1 = some r.2 := by
        intro r hr
        have hne : r.1 ≠ id := by
          rintro rfl
          have hkey : r.1 ∈ rest.map Prod.fst := List.mem_map_of_mem hr
          exact distinct.1 hkey
        exact (Table.get_set_ne m.attempts u hne).trans (hrest r hr)
      obtain ⟨changed, s', hs, hm, hlog, mirrors⟩ := ih (h.setAttempt id u) distinct.2 hrest'
      refine ⟨(id, u) :: changed, s', ?_, ?_, hlog, mirrors⟩
      · rw [List.map_cons, Sqlite.isolateRows, Op.bind_of_ok (hread s)]
        simp only [if_pos hst]
        rw [Op.bind_of_ok (by rw [Op.lift_apply, hadvance]), Op.bind_of_ok (Op.modify_apply _), Op.bind_of_ok hs]
        rfl
      · simp only [Memory.isolated, if_pos hst, hadvance, hm, bind, Except.bind, pure, Except.pure]
    · obtain ⟨changed, s', hs, hm, hlog, mirrors⟩ := ih h distinct.2 hrest
      refine ⟨(id, a) :: changed, s', ?_, ?_, hlog, ?_⟩
      · rw [List.map_cons, Sqlite.isolateRows, Op.bind_of_ok (hread s)]
        simp only [if_neg hst]
        rw [Op.bind_of_ok hs]
        rfl
      · simp only [Memory.isolated, if_neg hst, hm, bind, Except.bind, pure, Except.pure]
      · have hsame : Memory.setAttempt id a m = m := by
          simp only [Memory.setAttempt, Table.set_get ha]
        show MirrorsAudit s' (Memory.setAttempts changed (Memory.setAttempt id a m))
        rw [hsame]
        exact mirrors

/-- The rows a `SELECT` over the attempts gives are those the in-memory store finds. -/
theorem isolate_alike (h : MirrorsAudit s m) {p : String × Sqlite.AttemptRow → Bool} {q : String × Attempt → Bool}
    (same : ∀ id a, p (id, .of a) = q (id, a)) :
    ∃ changed s', Sqlite.isolateRows (s.attempts.rows.filter p) s = (.ok (changed.map (·.2)), s') ∧
      Memory.isolated (m.attempts.rows.filter q) = .ok changed ∧ s'.toRunLog = s.toRunLog ∧
      MirrorsAudit s' (Memory.setAttempts changed m) := by
  have hrows : s.attempts.rows.filter p = (m.attempts.rows.filter q).map (fun r => (r.1, .of r.2)) := by
    rw [h.attempts, Table.map_rows, List.filter_map]
    congr 1
    exact List.filter_congr (fun r _ => same r.1 r.2)
  rw [hrows]
  refine isolateRows_alike h _ ?_ (fun r hr => Table.get_of_mem (List.mem_of_mem_filter hr))
  exact m.attempts.nodup.sublist (List.filter_sublist.map _)

theorem markIndeterminate_alike (h : MirrorsAudit s m) (runId : String) :
    AuditAlike (Sqlite.markIndeterminate runId) s (Memory.markIndeterminate runId) m := by
  refine Op.sim_atomically ?_
  obtain ⟨changed, s', hs, hm, -, mirrors⟩ := isolate_alike h
    (p := fun r => r.2.payload.runId = runId ∧ r.2.status = .dispatching)
    (q := fun r => r.2.runId = runId ∧ r.2.status = .dispatching) (fun _ _ => rfl)
  refine Op.sim_returns (a := changed.map (·.2)) (b := changed.map (·.2)) ?_ ?_ ⟨rfl, mirrors⟩
  · rw [Op.bind_of_ok (Op.gets_apply _)]
    exact hs
  · rw [Memory.markIndeterminate, Op.bind_of_ok (Op.gets_apply _), Op.bind_of_ok (by rw [Op.lift_apply, hm])]
    rfl

/-- The event of an operation is bound to its run once and for all. -/
theorem validateEvent_bound {event pending : Option Event} {runId : String}
    (h : validateEvent event runId = .ok pending) : validateEvent pending runId = .ok pending := by
  cases event with
  | none =>
    cases h
    rfl
  | some e =>
    simp only [validateEvent, except_bind_ok_iff, ensure_ok_iff, except_pure_ok_iff, exists_const] at h
    obtain ⟨htype, rfl⟩ := h
    simp only [validateEvent, except_bind_ok_iff, ensure_ok_iff, except_pure_ok_iff, exists_const]
    exact ⟨⟨rfl, htype.2⟩, trivial⟩

/-- A quarantine that finds its run as expected and no attempt to isolate. -/
structure QuarantineIdle (r : QuarantineRequest) (m : Memory.Audit) : Prop where
  announced : ∃ e, validateEvent r.event r.runId = .ok (some e)
  expected : ∃ run, m.run r.runId = some run ∧ run.revision = r.expectedRunRevision ∧
    run.status = some r.expectedRunStatus
  certain : ∀ a ∈ m.attempts.rows, a.2.runId = r.runId → a.2.status ≠ .dispatching ∧ a.2.status ≠ .indeterminate

theorem isolated_length {rows changed : List (String × Attempt)} (h : Memory.isolated rows = .ok changed) :
    changed.length = rows.length := by
  induction rows generalizing changed with
  | nil =>
    cases h
    rfl
  | cons r rest ih =>
    unfold Memory.isolated at h
    split at h <;>
    · simp only [except_bind_ok_iff, except_pure_ok_iff] at h
      obtain ⟨_, _, more, hmore, rfl⟩ := h
      rw [List.length_cons, List.length_cons, ih hmore]

/-- The in-memory store refuses changes to a protected member when it comes to write the run. -/
theorem quarantine_refused {r : QuarantineRequest} (named : r.changes.names protectedRunMembers = true)
    (busy : ¬ QuarantineIdle r m) : ∃ e, Memory.quarantine r m = (.error e, m) := by
  have hspec : Op.wp (Memory.quarantine r) m (fun _ _ => False) (fun _ t => t = m) := by
    simp only [Memory.quarantine, Op.wp_bind, Op.wp_lift, Op.wp_gets, ensure_ok_iff]
    refine ⟨fun pending hp => ⟨fun _ hsome => ?_, fun _ _ => trivial⟩, fun _ _ => trivial⟩
    obtain ⟨e, rfl⟩ := Option.isSome_iff_exists.1 hsome
    split
    · rfl
    · rename_i run hrun
      simp only [Op.wp_bind, Op.wp_lift, Op.wp_gets, ensure_ok_iff]
      refine ⟨fun _ hrev => ⟨fun _ hst => ⟨fun changed hc => ?_, fun _ _ => trivial⟩, fun _ _ => trivial⟩,
        fun _ _ => trivial⟩
      split
      · rename_i hempty
        refine absurd ⟨⟨e, hp⟩, ⟨run, hrun, hrev, hst⟩, fun a ha hid => ?_⟩ busy
        have hnone : m.attempts.rows.filter (fun a => a.2.runId = r.runId ∧
            (a.2.status = .dispatching ∨ a.2.status = .indeterminate)) = [] := by
          rw [List.isEmpty_iff] at hempty
          exact List.length_eq_zero_iff.1 ((isolated_length hc).symm.trans (by rw [hempty]; rfl))
        rw [List.filter_eq_nil_iff] at hnone
        have := hnone a ha
        simpa [hid] using this
      · simp only [Memory.onRuns, Op.wp_bind, Op.wp_zoom, Memory.transitionRun, Op.wp_lift, ensure_ok_iff, named]
        exact ⟨fun _ _ => ⟨fun _ h => ((by cases h)), fun _ _ => trivial⟩, fun _ _ => trivial⟩
  rcases hx : Memory.quarantine r m with ⟨e | u, t⟩
  · rw [Op.wp_of_error hx] at hspec
    exact ⟨e, by rw [hspec]⟩
  · rw [Op.wp_of_ok hx] at hspec
    exact hspec.elim

/-- The transition of a run that is there, once its event and changes are accepted. -/
theorem memory_transitionRun {m : Memory.RunLog} {r : RunTransitionRequest} {run : Run} (hrun : m.run r.runId = some run)
    (bound : validateEvent r.event r.runId = .ok r.event) (named : r.changes.names protectedRunMembers = false) :
    Memory.transitionRun r m = (Op.lift (transitionRun r run) >>= fun u => Memory.publishRun u r.runId r.event) m := by
  rw [Memory.transitionRun, Op.bind_of_ok (by rw [Op.lift_apply, bound]), Op.bind_of_ok (Op.lift_ensure_of named),
    Op.bind_of_ok (Op.gets_apply _), hrun]

theorem setAttempts_withRuns (changed : List (String × Attempt)) (m : Memory.Audit) (n : Memory.RunLog) :
    Memory.setAttempts changed {m with toRunLog := n} = {Memory.setAttempts changed m with toRunLog := n} := by
  induction changed generalizing m with
  | nil => rfl
  | cons r rest ih => exact ih (Memory.setAttempt r.1 r.2 m)

theorem quarantine_alike (h : MirrorsAudit s m) (r : QuarantineRequest)
    (rule : QuarantineIdle r m → r.changes.names protectedRunMembers = false) :
    AuditAlike (Sqlite.quarantine r) s (Memory.quarantine r) m := by
  cases named : r.changes.names protectedRunMembers with
  | true =>
    have hs : Op.wp (Sqlite.quarantine r) s (fun _ _ => False) (fun _ t => t = s) := by
      simp only [Sqlite.quarantine, Op.wp_bind, Op.wp_lift, ensure_ok_iff, named]
      exact ⟨fun _ _ => ⟨fun _ _ => ⟨fun _ h => ((by cases h)), fun _ _ => trivial⟩, fun _ _ => trivial⟩,
        fun _ _ => trivial⟩
    obtain ⟨e, hm⟩ := quarantine_refused named (fun idle => (by cases named.symm.trans (rule idle)))
    rcases hx : Sqlite.quarantine r s with ⟨e' | u, t⟩
    · rw [Op.wp_of_error hx] at hs
      exact Op.sim_raises hx hm (hs ▸ h)
    · rw [Op.wp_of_ok hx] at hs
      exact hs.elim
  | false =>
    refine Op.sim_bind (Op.sim_lift (fun pending hp => ?_) (fun _ _ => h))
    refine Op.sim_bind (Op.sim_lift (fun _ _ => ?_) (fun _ _ => h))
    refine Op.sim_left (Op.lift_ensure_of named) ?_
    refine Op.sim_atomically (Op.sim_bind (Op.sim_gets ?_))
    rw [h.runs.run]
    cases hrun : m.run r.runId with
    | none => exact Op.sim_raise h
    | some run =>
      refine Op.sim_bind (Op.sim_ensure Iff.rfl (fun hrev => ?_) (fun _ => h))
      refine Op.sim_bind (Op.sim_ensure Iff.rfl (fun hst => ?_) (fun _ => h))
      refine Op.sim_bind (Op.sim_gets ?_)
      obtain ⟨changed, s', hs, hm, hlog, mirrors⟩ := isolate_alike h
        (p := fun a => a.2.payload.runId = r.runId ∧ (a.2.status = .dispatching ∨ a.2.status = .indeterminate))
        (q := fun a => a.2.runId = r.runId ∧ (a.2.status = .dispatching ∨ a.2.status = .indeterminate))
        (fun _ _ => rfl)
      refine Op.sim_bind (Op.sim_returns hs (by rw [Op.lift_apply, hm]) ?_)
      rw [List.isEmpty_map]
      split
      · rename_i hempty
        rw [List.isEmpty_iff] at hempty
        subst hempty
        exact Op.sim_pure ⟨rfl, mirrors⟩
      · -- SQLite has isolated the attempts by now, the in-memory store isolates them after the run
        have sound := h.runs.sound _ _ hrun
        have hpos := sound.revision
        have hmove := memory_transitionRun (r := {
          runId := r.runId
          expectedRevision := r.expectedRunRevision
          expectedStatus := r.expectedRunStatus
          status := "needs_review"
          changes := r.changes
          event := pending }) hrun (validateEvent_bound hp) named
        have hnext : transitionRun {
            runId := r.runId
            expectedRevision := r.expectedRunRevision
            expectedStatus := r.expectedRunStatus
            status := "needs_review"
            changes := r.changes
            event := pending } run =
            nextRun {run.input with status := some "needs_review", fields := run.fields.merge r.changes}
              r.expectedRunRevision := by
          simp only [transitionRun, ensure, if_pos hrev, if_pos hst, bind, Except.bind]
        rw [hnext] at hmove
        cases hu : nextRun {run.input with status := some "needs_review", fields := run.fields.merge r.changes}
            r.expectedRunRevision with
        | error e =>
          rw [hu] at hmove
          refine Op.sim_raises (Op.bind_of_error (e := e) (u := s') ?_) (Op.bind_of_error (e := e) (u := m) ?_) h
          · rfl
          · simp only [Memory.onRuns, Op.zoom, hmove]
            rfl
        | ok u =>
          rw [hu] at hmove
          have hsound : SoundRun r.runId u := by
            obtain ⟨-, rfl⟩ := nextRun_ok hu
            exact soundRun_storedRun rfl sound.id (by omega)
          have hupdate : Sqlite.onRuns (Sqlite.updateRow r.runId u r.expectedRunRevision (some r.expectedRunStatus)
              (.runConflict ("run revision or status changed: " ++ r.runId))) s' =
              (.ok (), {s' with toRunLog := Sqlite.setRun r.runId u s.toRunLog}) := by
            have hrow : Sqlite.updateRow r.runId u r.expectedRunRevision (some r.expectedRunStatus)
                (.runConflict ("run revision or status changed: " ++ r.runId)) s.toRunLog =
                (.ok (), Sqlite.setRun r.runId u s.toRunLog) :=
              Sqlite.updateRow_of_match (h.runs.row hrun) hrev (fun st hst' => by cases hst'; exact hst)
            simp only [Sqlite.onRuns, Op.zoom, hlog, hrow]
          have hreview : Memory.onRuns (Memory.transitionRun {
              runId := r.runId
              expectedRevision := r.expectedRunRevision
              expectedStatus := r.expectedRunStatus
              status := "needs_review"
              changes := r.changes
              event := pending }) m =
              (.ok u, {m with toRunLog := Memory.setRun u.id u (Memory.record r.runId pending m.toRunLog)}) := by
            simp only [Memory.onRuns, Op.zoom, hmove]
            rfl
          refine Op.sim_left (a := u) (by rw [Op.lift_apply]) (Op.sim_left hupdate ?_)
          refine Op.sim_returns rfl (Op.bind_of_ok hreview) ⟨rfl, ?_⟩
          rw [setAttempts_withRuns]
          refine mirrors.withRuns (h.runs.set hsound rfl ?_)
          rw [← hsound.id]
          rfl

theorem serveAttempt_alike (h : MirrorsAudit s m) (c : AttemptCommand)
    (rule : ∀ r, c = .quarantine r → QuarantineIdle r m → r.changes.names protectedRunMembers = false) :
    AuditAlike (Sqlite.serveAttempt c) s (Memory.serveAttempt c) m := by
  have answered {α : Type} {x : Sqlite.AuditHandler α} {y : Memory.AuditHandler α} {reply : α → Reply}
      (h : AuditAlike x s y m) :
      AuditAlike (x >>= fun a => pure (reply a)) s (y >>= fun a => pure (reply a)) m := by
    refine Op.sim_bind (Op.sim_mono h ?_ (fun _ _ h => h))
    rintro a s' _ m' ⟨rfl, mirrors⟩
    exact Op.sim_pure ⟨rfl, mirrors⟩
  cases c with
  | begin r => exact answered (beginAttempt_alike h r)
  | dispatch r => exact answered (dispatch_alike h r)
  | transition r => exact answered (transitionAttempt_alike h r)
  | complete r => exact answered (completeAttempt_alike h r)
  | markIndeterminate runId => exact answered (markIndeterminate_alike h runId)
  | quarantine r => exact answered (quarantine_alike h r (rule r rfl))

/-! ### Scoring passes -/

/-- Scores that pass the checks of an append are accepted by `score_sets`. -/
theorem validateScores_insertable {scores : List Score} {u : Unit} (h : validateScores scores = .ok u) :
    Insertable scores := by
  simp only [validateScores, except_bind_ok_iff, ensure_ok_iff, exists_const] at h
  obtain ⟨named, -, -, h⟩ := h
  refine ⟨fun x hx => ?_, ?_⟩
  · have hcase := named x hx
    rcases hc : x.caseId with _ | _ | c
    · simp [Score.caseText, hc] at hcase
    · simp [Score.caseText, hc] at hcase
    · exact ⟨c, rfl⟩
  · split at h
    · simp only [except_bind_ok_iff, ensure_ok_iff, exists_const] at h
      exact h.2
    · -- legacy rows have distinct cases, and the case is the first member of the key
      rw [ensure_ok_iff] at h
      refine List.Nodup.of_map Prod.fst ?_
      rw [List.map_map]
      exact h

theorem prepareAppend_insertable {r : AppendRequest} {p : PreparedAppend} (h : prepareAppend r = .ok p) :
    Insertable r.scores := by
  simp only [prepareAppend, except_bind_ok_iff, ensure_ok_iff, exists_const] at h
  obtain ⟨_, _, _, hscores, _⟩ := h
  exact validateScores_insertable hscores

theorem insertCaseRows_alike (h : MirrorsAudit s m) (rows : List CaseRow) :
    Op.sim (Sqlite.insertCaseRows rows) s (Memory.insertCaseRows rows) m
      (fun _ s' _ m' => MirrorsAudit s' m' ∧ s'.toRunLog = s.toRunLog ∧ s'.passes = s.passes)
      (fun _ _ => True) := by
  induction rows generalizing s m with
  | nil => exact Op.sim_pure ⟨h, rfl, rfl⟩
  | cons row rest ih =>
    refine Op.sim_bind (Op.sim_gets ?_)
    rw [h.caseRuns]
    refine Op.sim_bind (Op.sim_lift (fun _ _ => ?_) (fun _ _ => trivial))
    refine Op.sim_bind (Op.sim_modify ?_)
    exact ih ⟨h.runs, by simp only [h.caseRuns], h.attempts, h.passes, h.scored⟩

/-- An append that asks for no open attempt but names no run that it expects: only the
in-memory store asks, and nothing else is in its way. -/
structure AppendUnguarded (r : AppendRequest) (m : Memory.Audit) : Prop where
  asked : r.requireNoOpenAttempts = true
  unexpected : r.expectedRunRevision = none
  busy : ∃ a ∈ m.attempts.rows, a.2.runId = r.runId ∧ a.2.status.isOpen = true
  fresh : ∃ p, prepareAppend r = .ok p ∧ m.passes.get p.stored.id = none
  free : ∀ row ∈ r.caseRows, m.caseRuns.get (row.runId, row.caseId) = none

/-- The run that an append moves on: expected, found, and stored under its id. -/
def Targets (r : AppendRequest) (m : Memory.RunLog) : Option Run → Prop
  | none => True
  | some u => SoundRun r.runId u ∧ ∃ a, m.run r.runId = some a ∧ some a.revision = r.expectedRunRevision ∧
      a.status = r.expectedRunStatus

theorem storeScored_alike {s : Sqlite.RunLog} {m : Memory.RunLog} (h : MirrorsRuns s m) {r : AppendRequest}
    {updated : Option Run} (target : Targets r m updated) :
    ∃ s' m', Sqlite.storeScored r updated s = (.ok (), s') ∧ Memory.storeScored r updated m = (.ok (), m') ∧
      MirrorsRuns s' m' := by
  cases updated with
  | none => exact ⟨s, m, rfl, rfl, h⟩
  | some u =>
    obtain ⟨sound, a, ha, hrev, hst⟩ := target
    refine ⟨Sqlite.setRun r.runId u s, Memory.setRun r.runId u m, ?_, rfl, h.set sound rfl rfl⟩
    refine Sqlite.updateRow_of_match (h.row ha) ?_ (fun st hst' => ?_)
    · rw [← hrev]
      rfl
    · rw [Option.mem_def, ← hst] at hst'
      exact hst'

/-- What both do once the run is found: case rows, pass, scores, run and events. -/
theorem storeAppend_alike (h : MirrorsAudit s m) {r : AppendRequest} {p : PreparedAppend} {updated : Option Run}
    (hp : prepareAppend r = .ok p) (fresh : m.passes.get p.stored.id = none) (target : Targets r m.toRunLog updated)
    (ready : Memory.AppendReady r m) (ontime : ¬ Memory.AppendFailsLate r m) :
    Op.sim
      (do
        Sqlite.insertCaseRows r.caseRows
        Op.mapErr (fun e => match e with
            | .integrity _ => .runConflict ("scoring pass already exists: " ++ p.stored.id)
            | e => e)
          (Sqlite.insertPass p.stored r.scores (.runConflict ("scoring pass already exists: " ++ p.stored.id)))
        Sqlite.onRuns (Sqlite.storeScored r updated)
        Op.modify (fun s => {s with events := appendAllBound s.events r.runId p.events})
        return p.stored) s
      (do
        Memory.insertCaseRows r.caseRows
        Op.modify (fun s => {s with
          passes := s.passes.set p.stored.id p.stored
          scoreSets := s.scoreSets.set p.stored.id r.scores})
        Memory.onRuns (Memory.storeScored r updated)
        Op.modify (fun s => {s with events := appendAllBound s.events r.runId p.events})
        return p.stored) m
      (fun a s' b m' => a = b ∧ MirrorsAudit s' m') (fun _ m' => MirrorsAudit s m') := by
  refine Op.sim_bind (Op.sim_mono (Op.sim_and_right (insertCaseRows_alike h r.caseRows)
    (Memory.insertCaseRows_served ready ontime)) ?_ ?_)
  · rintro _ s' _ m' ⟨⟨h', hruns, hpasses⟩, hlog⟩
    have fresh' : s'.passes.get p.stored.id = none := by rw [hpasses, h.passes, fresh]
    obtain ⟨rows, hrows⟩ := insertScores_of_insertable p.stored.id s'.scoreSets (prepareAppend_insertable hp)
      (fun row hrow hpass => absurd fresh' (hpass ▸ h'.scored row hrow))
    have hinsert : Op.mapErr (fun e => match e with
          | .integrity _ => Err.runConflict ("scoring pass already exists: " ++ p.stored.id)
          | e => e)
        (Sqlite.insertPass p.stored r.scores (.runConflict ("scoring pass already exists: " ++ p.stored.id))) s' =
        (.ok (), {s' with passes := s'.passes.set p.stored.id p.stored, scoreSets := rows}) := by
      have hplain : Sqlite.insertPass p.stored r.scores
          (.runConflict ("scoring pass already exists: " ++ p.stored.id)) s' =
          (.ok (), {s' with passes := s'.passes.set p.stored.id p.stored, scoreSets := rows}) := by
        rw [Sqlite.insertPass, Op.bind_of_ok (Op.gets_apply _), Op.bind_of_ok (Op.lift_ensure_of (by rw [fresh']; rfl)),
          Op.bind_of_ok (Op.gets_apply _), Op.bind_of_ok (by rw [Op.lift_apply, hrows])]
        rfl
      simp only [Op.mapErr, hplain]
    refine Op.sim_left hinsert (Op.sim_right (Op.modify_apply _) ?_)
    obtain ⟨s₂, m₂, hs, hm, runs⟩ := storeScored_alike h'.runs (hlog ▸ target)
    have hs₂ : Sqlite.onRuns (Sqlite.storeScored r updated)
        {s' with passes := s'.passes.set p.stored.id p.stored, scoreSets := rows} =
        (.ok (), {s' with toRunLog := s₂, passes := s'.passes.set p.stored.id p.stored, scoreSets := rows}) := by
      simp only [Sqlite.onRuns, Op.zoom, hs]
    have hm₂ : Memory.onRuns (Memory.storeScored r updated) {m' with
          passes := m'.passes.set p.stored.id p.stored
          scoreSets := m'.scoreSets.set p.stored.id r.scores} =
        (.ok (), {m' with
          toRunLog := m₂
          passes := m'.passes.set p.stored.id p.stored
          scoreSets := m'.scoreSets.set p.stored.id r.scores}) := by
      simp only [Memory.onRuns, Op.zoom, hm]
    refine Op.sim_left hs₂ (Op.sim_right hm₂ ?_)
    refine Op.sim_returns rfl rfl ⟨rfl, ⟨runs.same rfl rfl, h'.caseRuns, h'.attempts, ?_, fun row hrow => ?_⟩⟩
    · simp only [h'.passes]
    · show (s'.passes.set p.stored.id p.stored).get row.passId ≠ none
      rw [Table.get_set]
      split
      · simp
      · rename_i hne
        exact h'.scored row ((mem_of_insertScores hrows row hrow).resolve_right hne)
  · rintro s' m' ⟨-, e, rfl⟩
    exact h

/-- A run that an append finds and scores is a target of it. -/
theorem targets_scored (h : MirrorsAudit s m) {r : AppendRequest} {passId : String} {a u : Run}
    (ha : m.run r.runId = some a) (hrev : some a.revision = r.expectedRunRevision)
    (hst : a.status = r.expectedRunStatus) (hu : scoredRun r passId a a.revision = .ok u) :
    Targets r m.toRunLog (some u) := by
  have sound := h.runs.sound _ _ ha
  have hpos := sound.revision
  obtain ⟨-, rfl⟩ := nextRun_ok hu
  exact ⟨soundRun_storedRun rfl sound.id (by omega), a, ha, hrev, hst⟩

/-- SQLite finds the run that a ready append moves on. -/
theorem appendTarget_of_ready (h : MirrorsAudit s m) {r : AppendRequest} {p : PreparedAppend} {updated : Option Run}
    (hp : prepareAppend r = .ok p) (ready : Memory.AppendReady r m)
    (hupdated : Memory.appendTarget r p.stored.id (m.run r.runId) = .ok updated) :
    Sqlite.appendTarget r p.stored.id s = (.ok updated, s) ∧ Targets r m.toRunLog updated := by
  rcases Memory.appendTarget_found ready.scored hupdated with ⟨rfl, hnone⟩ | ⟨a, u, rfl, ha, hrev, hst, hu⟩
  · refine ⟨?_, trivial⟩
    simp only [Sqlite.appendTarget, hnone]
    rfl
  · refine ⟨?_, targets_scored h ha hrev hst hu⟩
    have hsome : ∃ status, r.expectedRunStatus = some status := by
      refine Option.ne_none_iff_exists'.1 (fun hnone => ?_)
      have := (prepareAppend_expected hp).2 hnone
      rw [this] at hrev
      cases hrev
    obtain ⟨status, hstatus⟩ := hsome
    have closed : r.requireNoOpenAttempts → ∀ a ∈ s.attempts.rows,
        ¬ (a.2.payload.runId = r.runId ∧ a.2.status.isOpen) := by
      simp only [h.attempts, Table.map_rows, List.forall_mem_map]
      exact ready.closed
    simp only [Sqlite.appendTarget, ← hrev, hstatus]
    rw [Op.bind_of_ok (Op.gets_apply _), h.runs.run, ha]
    show (Op.lift _ >>= _) s = _
    rw [Op.bind_of_ok (Op.lift_ensure_of rfl), Op.bind_of_ok (Op.lift_ensure_of (hst.trans hstatus)),
      Op.bind_of_ok (Op.gets_apply _), Op.bind_of_ok (Op.lift_ensure_of closed), Op.bind_of_ok (Op.lift_of_ok hu)]
    rfl

/-- The in-memory store gives up an append that is not ready before it writes anything. -/
theorem memory_append_unready {r : AppendRequest} (unready : ¬ Memory.AppendReady r m) :
    ∃ e, Memory.append r m = (.error e, m) := by
  have hspec : Op.wp (Memory.append r) m (fun _ _ => False) (fun _ t => t = m) := by
    simp only [Memory.append, Op.wp_bind, Op.wp_lift, Op.wp_gets, ensure_ok_iff, Option.isNone_iff_eq_none]
    refine ⟨fun p hp => ⟨fun _ hnew => ⟨fun _ hcheck => ⟨fun _ hclosed => ⟨fun updated hupdated => ?_, ?_⟩, ?_⟩, ?_⟩, ?_⟩, ?_⟩
    · exact absurd ⟨⟨p, hp, hnew, updated, hupdated⟩, hcheck, hclosed⟩ unready
    all_goals exact fun _ _ => trivial
  rcases hx : Memory.append r m with ⟨e | u, t⟩
  · rw [Op.wp_of_error hx] at hspec
    exact ⟨e, by rw [hspec]⟩
  · rw [Op.wp_of_ok hx] at hspec
    exact hspec.elim

/-- The checks of the run that SQLite has made are those of the in-memory store, but for
the open attempts when no run is expected. -/
theorem appendTarget_checked (h : MirrorsAudit s m) {r : AppendRequest} {p : PreparedAppend}
    (hp : prepareAppend r = .ok p) :
    Op.wp (Sqlite.appendTarget r p.stored.id) s (fun updated t => t = s ∧
        Memory.checkScored r (m.run r.runId) = .ok () ∧
        Memory.appendTarget r p.stored.id (m.run r.runId) = .ok updated ∧
        (r.expectedRunRevision ≠ none → r.requireNoOpenAttempts →
          ∀ a ∈ m.attempts.rows, ¬ (a.2.runId = r.runId ∧ a.2.status.isOpen)))
      (fun _ _ => True) := by
  cases hrev : r.expectedRunRevision with
  | none =>
    simp only [Sqlite.appendTarget, Memory.checkScored, Memory.appendTarget, hrev]
    exact ⟨rfl, rfl, rfl, fun hne => absurd rfl hne⟩
  | some revision =>
    cases hst : r.expectedRunStatus with
    | none => exact nomatch hrev.symm.trans ((prepareAppend_expected hp).2 hst)
    | some status =>
      simp only [Sqlite.appendTarget, hrev, hst, Op.wp_bind, Op.wp_gets, h.runs.run]
      cases ha : m.run r.runId with
      | none => trivial
      | some a =>
        simp only [Op.wp_bind, Op.wp_lift, Op.wp_gets, Op.wp_pure, ensure_ok_iff, Memory.checkScored,
          Memory.appendTarget, hrev]
        refine ⟨fun _ harev => ⟨fun _ hast => ⟨fun _ hclosed => ⟨fun u hu => ⟨trivial, ?_, ?_, fun _ hask => ?_⟩,
          fun _ _ => trivial⟩, fun _ _ => trivial⟩, fun _ _ => trivial⟩, fun _ _ => trivial⟩
        · simp [hast, hst, harev, ensure, bind, Except.bind]
        · rw [hu]
          rfl
        · simp only [h.attempts, Table.map_rows, List.forall_mem_map] at hclosed
          exact hclosed hask

/-- SQLite gives up an append that is not ready, at the latest when it stores the pass. -/
theorem sqlite_append_unready (h : MirrorsAudit s m) {r : AppendRequest} (unready : ¬ Memory.AppendReady r m)
    (guarded : ¬ AppendUnguarded r m) : ∃ e, Sqlite.append r s = (.error e, s) := by
  have hspec : Op.wp (Sqlite.append r) s (fun _ _ => False) (fun _ t => t = s) := by
    simp only [Sqlite.append, Op.wp_bind, Op.wp_lift, Op.wp_atomically]
    refine ⟨fun p hp => ?_, fun _ _ => trivial⟩
    refine Op.wp_mono (appendTarget_checked h hp) ?_ (fun _ _ _ => trivial)
    rintro updated t ⟨rfl, hcheck, hupdated, hclosed⟩
    rcases (insertCaseRows_alike h r.caseRows).cases with ⟨_, s', _, m', hs, hm, -, -, hpasses⟩ | ⟨_, _, _, _, hs, -⟩
    · rw [Op.wp_of_ok hs]
      simp only [Op.wp_mapErr, Sqlite.insertPass, Op.wp_bind, Op.wp_gets, Op.wp_lift, ensure_ok_iff,
        Option.isNone_iff_eq_none, hpasses, h.passes]
      refine ⟨fun _ hnew => ?_, fun _ _ => trivial⟩
      have free : ∀ row ∈ r.caseRows, m.caseRuns.get (row.runId, row.caseId) = none := by
        intro row hrow
        by_contra htaken
        exact (Op.wp_of_ok hm).1 (Memory.insertCaseRows_taken r.caseRows ⟨row, hrow, htaken⟩)
      refine absurd ⟨⟨p, hp, hnew, updated, hupdated⟩, hcheck, fun hask a ha hopen => ?_⟩ unready
      by_cases hexp : r.expectedRunRevision = none
      · exact guarded ⟨hask, hexp, ⟨a, ha, hopen⟩, ⟨p, hp, hnew⟩, free⟩
      · exact hclosed hexp hask a ha hopen
    · exact (Op.wp_of_error hs).2 trivial
  rcases hx : Sqlite.append r s with ⟨e | u, t⟩
  · rw [Op.wp_of_error hx] at hspec
    exact ⟨e, by rw [hspec]⟩
  · rw [Op.wp_of_ok hx] at hspec
    exact hspec.elim

theorem append_alike (h : MirrorsAudit s m) (r : AppendRequest) (ontime : ¬ Memory.AppendFailsLate r m)
    (guarded : ¬ AppendUnguarded r m) : AuditAlike (Sqlite.append r) s (Memory.append r) m := by
  by_cases ready : Memory.AppendReady r m
  · obtain ⟨p, hp, fresh, updated, hupdated⟩ := ready.prepared
    obtain ⟨hs, target⟩ := appendTarget_of_ready h hp ready hupdated
    refine Op.sim_bind (Op.sim_lift (fun p' hp' => ?_) (fun _ _ => h))
    cases hp.symm.trans hp'
    refine Op.sim_atomically (Op.sim_left hs ?_)
    refine Op.sim_right (Op.gets_apply _) (Op.sim_right (Op.lift_ensure_of (by rw [fresh]; rfl)) ?_)
    refine Op.sim_right (Op.gets_apply _) (Op.sim_right (Op.lift_of_ok ready.scored) ?_)
    refine Op.sim_right (Op.gets_apply _) (Op.sim_right (Op.lift_ensure_of ready.closed) ?_)
    exact Op.sim_right (Op.lift_of_ok hupdated) (storeAppend_alike h hp fresh target ready ontime)
  · obtain ⟨e, hs⟩ := sqlite_append_unready h ready guarded
    obtain ⟨e', hm⟩ := memory_append_unready ready
    exact Op.sim_raises hs hm h

end Audit

/-! ### Runs of the two stores -/

/-- The requests to the repositories of runs, attempts and passes that both stores serve alike. -/
def AuditRule (m : Memory.Store) : Request → Prop
  | .run _ => True
  | .attempt (.quarantine r) => QuarantineIdle r m.toAudit → r.changes.names protectedRunMembers = false
  | .attempt _ => True
  | .append r => ¬ Memory.AppendFailsLate r m.toAudit ∧ ¬ AppendUnguarded r m.toAudit
  | .job _ | .publish _ => False

theorem MirrorsAudit.step {s : Sqlite.Database} {m : Memory.Store} (h : MirrorsAudit s.toAudit m.toAudit)
    {q : Request} (rule : AuditRule m q) : (Sqlite.serve q s).1.isOk = (Memory.serve q m).1.isOk ∧
      MirrorsAudit (Sqlite.step q s).toAudit (Memory.step q m).toAudit := by
  have alike : Op.sim (Sqlite.serve q) s (Memory.serve q) m (fun _ s' _ m' => MirrorsAudit s'.toAudit m'.toAudit)
      (fun s' m' => MirrorsAudit s'.toAudit m'.toAudit) := by
    cases q with
    | run c =>
      exact Op.sim_zoom (Op.sim_zoom (Op.sim_mono (serveRun_alike h.runs c)
        (fun _ _ _ _ hruns => h.withRuns hruns.2) (fun _ _ hruns => h.withRuns hruns)))
    | attempt c =>
      refine Op.sim_zoom (Op.sim_mono (serveAttempt_alike h c ?_) (fun _ _ _ _ h' => h'.2) (fun _ _ h' => h'))
      rintro r rfl
      exact rule
    | append r =>
      exact Op.sim_bind (Op.sim_zoom (Op.sim_mono (append_alike h r rule.1 rule.2)
        (fun _ _ _ _ h' => Op.sim_pure h'.2) (fun _ _ h' => h')))
    | job c => exact rule.elim
    | publish r => exact rule.elim
  unfold Sqlite.step Memory.step
  rcases alike.cases with ⟨a, s', b, m', hx, hy, h'⟩ | ⟨e, s', e', m', hx, hy, h'⟩
  · rw [hx, hy]
    exact ⟨rfl, h'⟩
  · rw [hx, hy]
    exact ⟨rfl, h'⟩

theorem mirrorsAudit_run {s : Sqlite.Database} {m : Memory.Store} (h : MirrorsAudit s.toAudit m.toAudit)
    {requests : List Request} (rule : Along Memory.step AuditRule m requests) :
    MirrorsAudit (run Sqlite.step s requests).toAudit (run Memory.step m requests).toAudit := by
  induction requests generalizing s m with
  | nil => exact h
  | cons q rest ih => exact ih (h.step rule.1).2 rule.2

theorem mirrorsAudit_empty : MirrorsAudit (∅ : Sqlite.Database).toAudit (∅ : Memory.Store).toAudit where
  runs := ⟨rfl, fun _ _ h => nomatch h⟩
  caseRuns := rfl
  attempts := rfl
  passes := rfl
  scored _ h := nomatch h

/-- The attempts, case rows, runs and passes that the two stores read back are the same. -/
structure AuditAgrees (s : Sqlite.Database) (m : Memory.Store) : Prop where
  attempt : ∀ id, s.attempt id = m.attempt id
  listed : s.attempts.rows.map (fun r => r.2.payload) = m.attempts.rows.map (·.2)
  caseRuns : s.caseRuns = m.caseRuns
  run : ∀ id, s.run id = m.run id
  passes : s.passes = m.passes

theorem MirrorsAudit.agrees {s : Sqlite.Database} {m : Memory.Store} (h : MirrorsAudit s.toAudit m.toAudit) :
    AuditAgrees s m where
  attempt id := by
    rw [Sqlite.Audit.attempt, h.attempt, Option.map_map]
    exact Option.map_id'
  listed := by
    rw [h.attempts, Table.map_rows, List.map_map]
    rfl
  caseRuns := h.caseRuns
  run := h.runs.run
  passes := h.passes

/-- A run with an attempt under way. -/
def oneOpen : List Request := [
  .run (.create {id := "run", status := some "running"} none),
  .attempt (.begin {record := {id := some "a", generatedId := "", runId := "run", caseId := "case"}}),
  .attempt (.dispatch {
    attemptId := "a", expectedRevision := 1, runId := "run", expectedRunRevision := 1,
    expectedRunStatus := "running", now := "t" })]

/-- A pass that asks for no open attempt, with or without the run it expects. -/
def closedPass (expected : Option (Int × String)) : Request := .append {
  id := some "pass"
  generatedId := ""
  runId := "run"
  scores := []
  expectedRunRevision := expected.map (·.1)
  expectedRunStatus := expected.map (·.2)
  requireNoOpenAttempts := true }

end Motte.Storage
