import Motte.Foundation.Run
import Motte.Storage.JobMoves
import Motte.Storage.Memory
import Motte.Storage.Sqlite

/-! What publication does to a store.

A publication that goes through finds the job settled or prepared, at the
revision expected, with the pass it reserved; it completes the job, stores the
pass and its scores, moves the subject run on to the pass and records the events
(`Publication`). The SQLite store does all of that or nothing. The in-memory store
has two ways to raise after it has begun to write. -/
namespace Motte.Storage
open Foundation

/-- A publication finds the job `j`, ready and with its pass reserved, and completes it as `u`. -/
structure Publishes (r : PublishRequest) (job : Option StoredJob) (j u : StoredJob) : Prop where
  found : job = some j
  status : j.1.status = .settled ∨ j.1.status = .prepared
  reserved : checkReserved r j = .ok ()
  completed : completedRecord r j = .ok u

theorem Publishes.edit {r : PublishRequest} {job : Option StoredJob} {j u : StoredJob}
    (h : Publishes r job j u) : JobEdit (.publish r) r.jobId j u := .publish h.status h.reserved h.completed

theorem Publishes.record {r : PublishRequest} {job : Option StoredJob} {j u : StoredJob}
    (h : Publishes r job j u) :
    u.1 = {j.1 with
      status := .completed
      receipt := r.receipt.getD (.obj [("job_id", .str j.1.jobId), ("published_at", .str r.now),
        ("scoring_pass_id", .str r.passRecord.id)])
      result := r.result.getD j.1.result
      fields := j.1.fields.insert "completed_at" (.str r.now)
      revision := j.1.revision + 1} := nextRevision_ok_iff.1 h.completed

theorem completedRecord_stored {r : PublishRequest} {j : StoredJob} {e : Err}
    (h : completedRecord r j = .error e) : False := by
  obtain ⟨u, hu, _⟩ := completedRecord_ok r j
  rw [hu] at h
  cases h

namespace Sqlite

/-- The runs after a publication has moved the subject run on, if it may. -/
def movedRuns (r : PublishRequest) (j : StoredJob) (s : RunLog) : Option RunLog :=
  match j.1.ownerKind with
  | .calibration => some s
  | .subject =>
    match s.runs.get j.1.runId with
    | none => none
    | some row =>
      if some row.revision = r.expectedRunRevision ∧ row.payload.status = r.expectedRunStatus then
        some (setRun j.1.runId (advancedRun r row.payload row.revision) s)
      else none

/-- A publication that goes through, and the database it leaves. -/
structure Publication (r : PublishRequest) (s : Database) (j u : StoredJob) (t : Database) : Prop
    extends Publishes r (sqliteJobs.job s.toLedgers r.jobId) j u where
  quiet : j.1.status = .prepared → j.1.inFlight = false
  fresh : s.passes.get r.passRecord.id = none
  expected : r.expectedRunRevision = none ↔ r.expectedRunStatus = none
  matched : sqliteJobs.Matches s.toLedgers u j.1.revision j.1.status
  state : ∃ scores rows log events,
    bindScores r.passRecord.id r.scores = .ok scores ∧
    insertScores r.passRecord.id s.scoreSets scores = .ok rows ∧
    movedRuns r j s.toRunLog = some log ∧
    appendEvents log.events r.events = (events, .ok ()) ∧
    t = { toLedgers := sqliteJobs.put (sqliteJobs.target r.jobId u) u s.toLedgers
          toAudit := {s.toAudit with
            toRunLog := {log with events}
            passes := s.passes.set r.passRecord.id r.passRecord
            scoreSets := rows} }

/-- The run is compared when it is read and again when it is written; both see the same row. -/
theorem target_moves {r : PublishRequest} {j : StoredJob} {s : RunLog} :
    Op.wp (publishTarget r j) s
      (fun updated t => t = s ∧ ∃ log, movedRuns r j s = some log ∧
        storeTarget r j.1.runId updated s = (.ok (), log)) (fun _ _ => movedRuns r j s = none) := by
  unfold publishTarget movedRuns
  cases j.1.ownerKind with
  | calibration => exact ⟨rfl, s, rfl, rfl⟩
  | subject =>
    simp only [Op.wp_bind, Op.wp_gets]
    cases hrow : s.runs.get j.1.runId with
    | none => rfl
    | some row =>
      simp only [Op.wp_bind, Op.wp_lift, Op.wp_pure, checkRun, ensure_ok_iff, ensure_error_iff]
      refine ⟨fun _ h => ⟨trivial, _, if_pos h, ?_⟩, fun _ h => if_neg h.1⟩
      obtain ⟨hrev, hstatus⟩ := h
      exact updateRow_of_match hrow (by rw [← hrev]; rfl) (fun st hst => hstatus.trans hst)

theorem publishPass_spec {r : PublishRequest} {s : Database} {scores : List Score} {j : StoredJob}
    (hj : sqliteJobs.job s.toLedgers r.jobId = some j)
    (hst : j.1.status = .settled ∨ j.1.status = .prepared)
    (quiet : j.1.status = .prepared → j.1.inFlight = false)
    (expected : r.expectedRunRevision = none ↔ r.expectedRunStatus = none)
    (hscores : bindScores r.passRecord.id r.scores = .ok scores) :
    Op.wp (publishPass r scores j) s
      (fun reply t => reply.published = true ∧ ∃ u, reply.job = u.1 ∧ Publication r s j u t)
      (fun _ _ => True) := by
  simp only [publishPass, Op.wp_bind, Op.wp_lift, onAudit, onRuns, onJobs, Op.wp_zoom]
  refine ⟨fun _ hr => ?_, fun _ _ => trivial⟩
  refine Op.wp_mono target_moves ?_ (fun _ _ _ => trivial)
  rintro updated t ⟨rfl, log, hlog, hstore⟩
  simp only [insertPass, Op.wp_bind, Op.wp_gets, Op.wp_lift, Op.wp_modify, ensure_ok_iff]
  refine ⟨fun _ hfresh => ⟨fun rows hrows => ?_, fun _ _ => trivial⟩, fun _ _ => trivial⟩
  rw [Op.wp_of_ok hstore]
  refine ⟨fun u hu => ?_, fun _ _ => trivial⟩
  refine Backend.wp_write (fun hm => ?_) (fun _ => trivial)
  rw [wp_recordAll]
  refine ⟨fun hev => ⟨rfl, u, rfl, ?_⟩, fun _ _ => trivial⟩
  exact {
    found := hj
    status := hst
    reserved := hr
    completed := hu
    quiet := quiet
    fresh := Option.isNone_iff_eq_none.1 hfresh
    expected := expected
    matched := hm
    state := ⟨scores, rows, log, _, hscores, hrows, hlog, Prod.ext rfl hev, rfl⟩ }

/-- What a `publish` that returns has done. -/
def PublishReturns (r : PublishRequest) (s : Database) (reply : PublishReply) (t : Database) : Prop :=
  (reply.published = true ∧ ∃ j u, reply.job = u.1 ∧ Publication r s j u t) ∨
    (reply.published = false ∧ t = s ∧ ∃ j, sqliteJobs.job s.toLedgers r.jobId = some j ∧
      (j.1.status = .completed ∨ j.1.status = .cancelled))

/-- Publication in SQLite goes through, finds the job decided already, or changes nothing. -/
theorem publish_spec (r : PublishRequest) (s : Database) :
    Op.wp (publish r) s (PublishReturns r s) (fun _ t => t = s) := by
  simp only [publish, Op.wp_bind, Op.wp_lift, Op.wp_atomically]
  refine ⟨fun _ _ => ⟨fun scores hscores => ⟨fun _ hexp => ?_, fun _ _ => trivial⟩,
    fun _ _ => trivial⟩, fun _ _ => trivial⟩
  simp only [checkPublishRequest, ensure_ok_iff] at hexp
  simp only [onJobs, Op.wp_zoom]
  refine Backend.wp_require (fun j hj => ?_) (fun _ => trivial)
  have published (hst : j.1.status = .settled ∨ j.1.status = .prepared)
      (quiet : j.1.status = .prepared → j.1.inFlight = false) :
      Op.wp (publishPass r scores j) s (PublishReturns r s) (fun _ _ => True) :=
    Op.wp_mono (publishPass_spec hj hst quiet hexp hscores) (fun _ _ h => .inl ⟨h.1, j, h.2⟩)
      (fun _ _ _ => trivial)
  split
  · rename_i hst
    exact .inr ⟨rfl, rfl, j, hj, .inl hst⟩
  · rename_i hst
    exact .inr ⟨rfl, rfl, j, hj, .inr hst⟩
  · rename_i hst
    exact published (.inl hst) (fun h => absurd (hst.symm.trans h) (by decide))
  · rename_i hst
    simp only [Op.wp_bind, Op.wp_lift, ensure_ok_iff]
    exact ⟨fun _ quiet => published (.inr hst) (fun _ => quiet), fun _ _ => trivial⟩
  · trivial

end Sqlite

namespace Memory

/-- The runs after a publication has moved the subject run on, if it may. -/
def movedRuns (r : PublishRequest) (j : StoredJob) (s : RunLog) : Option RunLog :=
  match j.1.ownerKind with
  | .calibration => some s
  | .subject =>
    match s.runs.get j.1.runId with
    | none => none
    | some run =>
      if some run.revision = r.expectedRunRevision ∧ run.status = r.expectedRunStatus then
        some (setRun j.1.runId (advancedRun r run run.revision) s)
      else none

/-- A publication that has passed every check that comes before its first write. -/
structure Begins (r : PublishRequest) (s : Store) (j u : StoredJob) (log : RunLog) : Prop
    extends Publishes r (memoryJobs.job s.toLedgers r.jobId) j u where
  expected : r.expectedRunRevision = none ↔ r.expectedRunStatus = none
  named : r.passRecord.id ≠ ""
  bound : ∃ scores, bindScores r.passRecord.id r.scores = .ok scores
  moved : movedRuns r j s.toRunLog = some log

/-- The store a publication leaves once it has written everything but the events. -/
def written (r : PublishRequest) (s : Store) (u : StoredJob) (log : RunLog) (events : List StoredEvent) :
    Store where
  toLedgers := memoryJobs.put r.jobId u s.toLedgers
  toAudit := {s.toAudit with
    toRunLog := {log with events}
    passes := s.passes.set r.passRecord.id r.passRecord
    scoreSets := s.scoreSets.set r.passRecord.id (r.scores.map (bindScore r.passRecord.id))}

/-- A publication that went through all its writes and recorded `events` on the way. -/
structure Publication (r : PublishRequest) (s : Store) (j u : StoredJob) (result : Except Err Unit)
    (t : Store) : Prop where
  fresh : s.passes.get r.passRecord.id = none
  state : ∃ log, Begins r s j u log ∧ appendEvents log.events r.events = (t.events, result) ∧
    t = written r s u log t.events

theorem moveRun_spec {r : PublishRequest} {j : StoredJob} {s : RunLog} :
    Op.wp (moveRun r j) s (fun _ t => movedRuns r j s = some t) (fun _ t => movedRuns r j s = none ∧ t = s) := by
  unfold moveRun movedRuns
  cases j.1.ownerKind with
  | calibration => rfl
  | subject =>
    simp only [Op.wp_bind, Op.wp_gets, RunLog.run]
    cases hrow : s.runs.get j.1.runId with
    | none => exact ⟨rfl, rfl⟩
    | some run =>
      simp only [Op.wp_bind, Op.wp_lift, Op.wp_modify, checkRun, ensure_ok_iff, ensure_error_iff]
      exact ⟨fun _ h => if_pos h, fun _ h => ⟨if_neg h.1, trivial⟩⟩

/-- What a `publish` that returns has done. -/
def PublishReturns (r : PublishRequest) (s : Store) (reply : PublishReply) (t : Store) : Prop :=
  (reply.published = true ∧ ∃ j u, reply.job = u.1 ∧ Publication r s j u (.ok ()) t) ∨
    (reply.published = false ∧ t = s ∧ ∃ j, memoryJobs.job s.toLedgers r.jobId = some j ∧
      (j.1.status = .completed ∨ j.1.status = .cancelled))

/-- What a `publish` that raises has done: nothing, if a check before the first
write failed; the move of the run, if the pass is stored already; everything, if
an event names no run. -/
def PublishRaises (r : PublishRequest) (s : Store) (e : Err) (t : Store) : Prop :=
  (t = s ∧ ¬ ∃ j u log, Begins r s j u log) ∨
    (∃ j u log, Begins r s j u log ∧ s.passes.get r.passRecord.id ≠ none ∧
      t = {s with toAudit := {s.toAudit with toRunLog := log}}) ∨
    ∃ j u, Publication r s j u (.error e) t

theorem publishPass_spec {r : PublishRequest} {s : Store} {scores : List Score} {j : StoredJob}
    (hj : memoryJobs.job s.toLedgers r.jobId = some j)
    (hst : j.1.status = .settled ∨ j.1.status = .prepared)
    (expected : r.expectedRunRevision = none ↔ r.expectedRunStatus = none) (named : r.passRecord.id ≠ "")
    (hscores : bindScores r.passRecord.id r.scores = .ok scores) :
    Op.wp (publishPass r scores j) s (PublishReturns r s) (PublishRaises r s) := by
  obtain ⟨u, hu, -⟩ := completedRecord_ok r j
  have hmap : scores = r.scores.map (bindScore r.passRecord.id) := by
    simp only [bindScores, except_bind_ok_iff, ensure_ok_iff, except_pure_ok_iff, exists_const] at hscores
    exact hscores.2.symm
  simp only [publishPass, Op.wp_bind, Op.wp_lift, onAudit, onRuns, onJobs, Op.wp_zoom]
  refine ⟨fun _ hr => ?_, fun e he => .inl ⟨rfl, ?_⟩⟩
  · refine Op.wp_mono moveRun_spec ?_ ?_
    · intro _ log hlog
      have begins : Begins r s j u log := ⟨⟨hj, hst, hr, hu⟩, expected, named, ⟨_, hscores⟩, hlog⟩
      simp only [Op.wp_gets, Op.wp_modify, ensure_ok_iff, ensure_error_iff]
      refine ⟨fun _ hfresh => ?_, fun e he => .inr (.inl ⟨j, u, log, begins, ?_, rfl⟩)⟩
      · have fresh : s.passes.get r.passRecord.id = none := Option.isNone_iff_eq_none.1 hfresh
        rw [hu]
        refine ⟨fun u' hu' => ?_, fun e he => (by cases he)⟩
        cases hu'
        rw [Backend.wp_assign rfl, wp_recordAll]
        subst hmap
        exact ⟨fun hev => .inl ⟨rfl, j, u, rfl, fresh, log, begins, Prod.ext rfl hev, rfl⟩,
          fun e hev => .inr (.inr ⟨j, u, fresh, log, begins, Prod.ext rfl hev, rfl⟩)⟩
      · intro h
        exact he.1 (by rw [h]; rfl)
    · rintro e t ⟨hnone, rfl⟩
      refine .inl ⟨rfl, ?_⟩
      rintro ⟨j', u', log, b⟩
      obtain rfl : j = j' := Option.some.inj (hj.symm.trans b.found)
      rw [b.moved] at hnone
      cases hnone
  · rintro ⟨j', u', log, b⟩
    obtain rfl : j = j' := Option.some.inj (hj.symm.trans b.found)
    rw [b.reserved] at he
    cases he

theorem publish_spec (r : PublishRequest) (s : Store) :
    Op.wp (publish r) s (PublishReturns r s) (PublishRaises r s) := by
  -- a check that fails before the job is ready leaves the store and cannot begin to write
  have refused {e : Err} (h : ¬ ∃ j u log, Begins r s j u log) : PublishRaises r s e s := .inl ⟨rfl, h⟩
  simp only [publish, Op.wp_bind, Op.wp_lift]
  refine ⟨fun _ hid => ?_, fun e he => refused ?_⟩
  · rw [ensure_ok_iff] at hid
    refine ⟨fun scores hscores => ?_, fun e he => refused ?_⟩
    · refine ⟨fun _ hexp => ?_, fun e he => refused ?_⟩
      · simp only [checkPublishRequest, ensure_ok_iff] at hexp
        simp only [onJobs, Op.wp_zoom]
        refine Backend.wp_require (fun j hj => ?_) (fun hnone => refused ?_)
        · split
          · rename_i hst
            exact .inr ⟨rfl, rfl, j, hj, .inl hst⟩
          · rename_i hst
            exact .inr ⟨rfl, rfl, j, hj, .inr hst⟩
          · rename_i hst
            exact publishPass_spec hj (.inl hst) hexp hid hscores
          · rename_i hst
            exact publishPass_spec hj (.inr hst) hexp hid hscores
          · rename_i hset hprep
            refine refused ?_
            rintro ⟨j', u, log, b⟩
            obtain rfl : j = j' := Option.some.inj (hj.symm.trans b.found)
            exact b.status.elim hset hprep
        · rintro ⟨j, u, log, b⟩
          cases hnone.symm.trans b.found
      · rintro ⟨j, u, log, b⟩
        simp only [checkPublishRequest, ensure_error_iff] at he
        exact he.1 b.expected
    · rintro ⟨j, u, log, b⟩
      obtain ⟨scores, hs⟩ := b.bound
      rw [hs] at he
      cases he
  · rintro ⟨j, u, log, b⟩
    rw [ensure_error_iff] at he
    exact he.1 b.named

/-! ### All or nothing -/

/-- Every check that comes before the first write of a publication passes for the job `j`. -/
structure Ready (r : PublishRequest) (s : Store) (j : StoredJob) : Prop where
  found : memoryJobs.job s.toLedgers r.jobId = some j
  status : j.1.status = .settled ∨ j.1.status = .prepared
  reserved : checkReserved r j = .ok ()
  expected : r.expectedRunRevision = none ↔ r.expectedRunStatus = none
  named : r.passRecord.id ≠ ""
  bound : ∀ x ∈ r.scores, x.scoringPassId = none ∨ x.scoringPassId = some (some r.passRecord.id)
  run : j.1.ownerKind = .subject → ∃ run, s.runs.get j.1.runId = some run ∧
    some run.revision = r.expectedRunRevision ∧ run.status = r.expectedRunStatus

theorem Begins.ready {r : PublishRequest} {s : Store} {j u : StoredJob} {log : RunLog}
    (h : Begins r s j u log) : Ready r s j where
  found := h.found
  status := h.status
  reserved := h.reserved
  expected := h.expected
  named := h.named
  bound := by
    obtain ⟨scores, hs⟩ := h.bound
    simp only [bindScores, except_bind_ok_iff, ensure_ok_iff, exists_const] at hs
    exact hs.1
  run := by
    intro hk
    have hm := h.moved
    simp only [movedRuns, hk] at hm
    split at hm
    · cases hm
    · rename_i run hrun
      split at hm
      · rename_i hcheck
        exact ⟨run, hrun, hcheck⟩
      · cases hm

theorem Ready.begins {r : PublishRequest} {s : Store} {j : StoredJob} (h : Ready r s j) :
    ∃ u log, Begins r s j u log := by
  obtain ⟨u, hu, -⟩ := completedRecord_ok r j
  have moved : ∃ log, movedRuns r j s.toRunLog = some log := by
    unfold movedRuns
    cases hk : j.1.ownerKind with
    | calibration => exact ⟨_, rfl⟩
    | subject =>
      obtain ⟨run, hrun, hcheck⟩ := h.run hk
      simp only [hrun, if_pos hcheck]
      exact ⟨_, rfl⟩
  obtain ⟨log, hlog⟩ := moved
  have bound : bindScores r.passRecord.id r.scores = .ok (r.scores.map (bindScore r.passRecord.id)) := by
    simp only [bindScores, except_bind_ok_iff, ensure_ok_iff, except_pure_ok_iff, exists_const]
    exact ⟨h.bound, trivial⟩
  exact ⟨u, log, ⟨h.found, h.status, h.reserved, hu⟩, h.expected, h.named, ⟨_, bound⟩, hlog⟩

/-- The two ways a publication raises after its first write: the pass is stored
already and a subject run has been moved, or an event names no run. -/
def FailsLate (r : PublishRequest) (s : Store) : Prop :=
  ∃ j, Ready r s j ∧
    ((s.passes.get r.passRecord.id ≠ none ∧ j.1.ownerKind = .subject) ∨
      (s.passes.get r.passRecord.id = none ∧ ∃ e ∈ r.events, e.runId = none))

/-- The tables a publication writes are as they were. -/
structure Untouched (s t : Store) : Prop where
  jobs : t.jobs = s.jobs
  runs : t.runs = s.runs
  passes : t.passes = s.passes
  scoreSets : t.scoreSets = s.scoreSets
  caseRuns : t.caseRuns = s.caseRuns
  events : t.events = s.events

theorem Untouched.refl (s : Store) : Untouched s s := ⟨rfl, rfl, rfl, rfl, rfl, rfl⟩

/-- A run that has been moved on is not the run it was. -/
theorem movedRuns_subject {r : PublishRequest} {j : StoredJob} {s log : RunLog}
    (h : movedRuns r j s = some log) (hk : j.1.ownerKind = .subject) : log.runs ≠ s.runs := by
  simp only [movedRuns, hk] at h
  split at h
  · cases h
  · rename_i run hrun
    split at h
    · cases h
      intro he
      have hg := congrArg (fun t => t.get j.1.runId) he
      simp only [setRun, Table.get_set_self, hrun, Option.some.injEq] at hg
      have hrev := congrArg Run.revision hg
      simp only [advancedRun] at hrev
      omega
    · cases h

theorem movedRuns_calibration {r : PublishRequest} {j : StoredJob} {s log : RunLog}
    (h : movedRuns r j s = some log) (hk : j.1.ownerKind = .calibration) : log = s := by
  simp only [movedRuns, hk, Option.some.injEq] at h
  exact h.symm

/-- A publication that completed the job touched the job table. -/
theorem Publication.touches {r : PublishRequest} {s t : Store} {j u : StoredJob} {result : Except Err Unit}
    (h : Publication r s j u result t) : t.jobs ≠ s.jobs := by
  obtain ⟨log, b, -, ht⟩ := h.state
  intro he
  have hjob : memoryJobs.job t.toLedgers r.jobId = memoryJobs.job s.toLedgers r.jobId := by
    simp only [Backend.job, he]
  rw [ht, b.found] at hjob
  simp only [written, Backend.job_put, if_true, Option.some.injEq] at hjob
  have hst := congrArg (fun j : StoredJob => j.1.status) hjob
  simp only [b.toPublishes.record] at hst
  rcases b.status with h | h
  · rw [h] at hst; cases hst
  · rw [h] at hst; cases hst

/-- Recording events fails exactly when one of them names no run. -/
theorem appendEvents_error_iff (stored : List StoredEvent) (events : List Event) :
    (∃ e, (appendEvents stored events).2 = .error e) ↔ ∃ e ∈ events, e.runId = none := by
  induction events generalizing stored with
  | nil => simp [appendEvents]
  | cons event rest ih =>
    cases hid : event.runId with
    | none =>
      have : appendEvents stored (event :: rest) = (stored, .error (.key "run_id")) := by
        simp [appendEvents, appendEvent, hid, throw, throwThe, MonadExceptOf.throw]
      rw [this]
      exact ⟨fun _ => ⟨event, List.mem_cons_self .., hid⟩, fun _ => ⟨_, rfl⟩⟩
    | some runId =>
      have : appendEvents stored (event :: rest) =
          appendEvents (stored ++ [⟨runId, nextSeq stored runId, event.type, event.fields⟩]) rest := by
        simp [appendEvents, appendEvent, hid, pure, Except.pure]
      rw [this, ih]
      simp [hid]

/-- A raising publication leaves the store as it was unless it fails late. -/
theorem publishRaises_same {r : PublishRequest} {s t : Store} {e : Err}
    (h : PublishRaises r s e t) (ontime : ¬ FailsLate r s) : t = s := by
  rcases h with ⟨rfl, -⟩ | ⟨j, u, log, b, hpass, rfl⟩ | ⟨j, u, hp⟩
  · rfl
  · cases hk : j.1.ownerKind with
    | subject => exact absurd ⟨j, b.ready, .inl ⟨hpass, hk⟩⟩ ontime
    | calibration => rw [movedRuns_calibration b.moved hk]
  · obtain ⟨log, b, hev, -⟩ := hp.state
    have late := (appendEvents_error_iff log.events r.events).1 ⟨e, by rw [hev]⟩
    exact absurd ⟨j, b.ready, .inr ⟨hp.fresh, late⟩⟩ ontime

/-- A publication that fails late raises and has touched a table. -/
theorem failsLate_touches {r : PublishRequest} {s : Store} (h : FailsLate r s) :
    ∃ e t, publish r s = (.error e, t) ∧ ¬ Untouched s t := by
  obtain ⟨j, ready, hlate⟩ := h
  obtain ⟨u, log, b⟩ := ready.begins
  have hspec := publish_spec r s
  rcases hx : publish r s with ⟨e | reply, t⟩
  · rw [Op.wp_of_error hx] at hspec
    refine ⟨e, t, rfl, fun hu => ?_⟩
    rcases hspec with ⟨-, hnone⟩ | ⟨j', u', log', b', hpass, rfl⟩ | ⟨j', u', hp⟩
    · exact hnone ⟨j, u, log, b⟩
    · obtain rfl : j = j' := Option.some.inj (b.found.symm.trans b'.found)
      rcases hlate with ⟨-, hk⟩ | ⟨hnone, -⟩
      · exact movedRuns_subject b'.moved hk hu.runs
      · exact hpass hnone
    · exact hp.touches hu.jobs
  · -- it cannot return: a published pass was not stored before, and all its events name a run
    rw [Op.wp_of_ok hx] at hspec
    exfalso
    rcases hspec with ⟨-, j', u', -, hp⟩ | ⟨-, -, j', hj', hst⟩
    · obtain ⟨log', b', hev, -⟩ := hp.state
      rcases hlate with ⟨hpass, -⟩ | ⟨-, hevents⟩
      · exact hpass hp.fresh
      · obtain ⟨e, he⟩ := (appendEvents_error_iff log'.events r.events).2 hevents
        rw [hev] at he
        cases he
    · obtain rfl : j = j' := Option.some.inj (b.found.symm.trans hj')
      rcases b.status with h | h <;> rw [h] at hst <;> simp at hst

end Memory

/-- A raising publication leaves the tables it writes exactly as they were. -/
def Memory.AllOrNothing (r : PublishRequest) (s : Memory.Store) : Prop :=
  ∀ e t, Memory.publish r s = (.error e, t) → Memory.Untouched s t

/-- A raising publication leaves the database exactly as it was. -/
def Sqlite.AllOrNothing (r : PublishRequest) (s : Sqlite.Database) : Prop :=
  ∀ e t, Sqlite.publish r s = (.error e, t) → t = s

theorem publish_all_or_nothing_iff (r : PublishRequest) (db : Sqlite.Database) (s : Memory.Store) :
    Sqlite.AllOrNothing r db ∧ (Memory.AllOrNothing r s ↔ ¬ Memory.FailsLate r s) := by
  refine ⟨fun e t h => ?_, fun h late => ?_, fun ontime e t h => ?_⟩
  · exact (Op.wp_of_error h).1 (Sqlite.publish_spec r db)
  · obtain ⟨e, t, hx, hu⟩ := Memory.failsLate_touches late
    exact hu (h e t hx)
  · rw [Memory.publishRaises_same ((Op.wp_of_error h).1 (Memory.publish_spec r s)) ontime]
    exact Memory.Untouched.refl s

/-- A job that scores the run `run`, and reserves the pass `pass`. -/
def sampleJob : ScoringJob where
  jobId := "job"
  requestKey := "request"
  fingerprint := "sha256:0"
  owner := .subject "run" ∅
  ownerRef := "run:run"
  ownerKind := .subject
  runId := "run"
  status := .queued
  revision := 1
  reservedPassId := "pass"
  judgeSpec := (∅ : Fields).insert "model" (.str "judge")

/-- The publication of the sample job, once it is prepared. -/
def samplePublish : PublishRequest where
  jobId := "job"
  expectedRevision := 2
  passRecord := {id := "pass", runId := "run"}
  expectedRunRevision := some 1
  expectedRunStatus := some "scoring"
  now := "t"

/-- The sample job is prepared, but a pass was appended under the id it reserved. -/
def takenPass : Memory.Store := run Memory.step ∅ [
  .run (.create {id := "run", status := some "scoring"} none),
  .append {id := some "pass", generatedId := "", runId := "run", scores := []},
  .job (.submit sampleJob),
  .job (.claim "job" "t")]

/-- The run is moved on, then the pass is found to exist. -/
theorem publish_taken_pass_moves_run : ¬ Memory.AllOrNothing samplePublish takenPass := by
  intro h
  have raised : (Memory.publish samplePublish takenPass).1.toOption.isNone = true := by decide
  have moved : ((Memory.publish samplePublish takenPass).2.run "run").map Run.revision = some 2 := by decide
  rcases hx : Memory.publish samplePublish takenPass with ⟨e | reply, t⟩
  · rw [hx] at moved
    rw [Memory.RunLog.run, (h e t hx).runs] at moved
    revert moved
    decide
  · rw [hx] at raised
    cases raised

end Motte.Storage
