import Motte.Storage.JobMirror
import Motte.Storage.RunMoves

/-! The SQLite and the in-memory store are observationally equivalent.

Starting empty, the two stores end every request of the job repository and of the
run repository the same way, and read back the same jobs, passes and runs, as long
as each request meets `PortableRule`: the in-memory store does not raise halfway,
no changes rename a job or a run, and the score rows of a publication are ones
that both stores accept. -/
namespace Motte.Storage
open Foundation

/-! ### Runs -/

/-- A run as `create` and the other operations store it under a key. -/
structure SoundRun (k : String) (a : Run) : Prop where
  id : a.id = k
  revision : 1 ≤ a.revision
  schemaVersion : a.schemaVersion = 2

/-- The row that holds a run. -/
def Sqlite.RunRow.of (a : Run) : Sqlite.RunRow := ⟨a, a.revision⟩

/-- The rows of `runs` hold what the in-memory repository holds. -/
structure MirrorsRuns (s : Sqlite.RunLog) (m : Memory.RunLog) : Prop where
  rows : s.runs = m.runs.map Sqlite.RunRow.of
  sound : ∀ k a, m.run k = some a → SoundRun k a

theorem soundRun_stored (r : RunInput) {rev : Int} (h : 1 ≤ rev) : SoundRun r.id (r.stored rev) :=
  ⟨rfl, h, if_neg (by omega)⟩

theorem soundRun_storedRun {r u : Run} {k : String} {rev : Int} (hu : u = storedRun r rev) (hid : r.id = k)
    (h : 1 ≤ rev) : SoundRun k u := by
  rw [hu]
  exact ⟨hid, h, if_neg (by omega)⟩

section Runs
variable {s : Sqlite.RunLog} {m : Memory.RunLog} {k : String} {a u : Run}

/-- A sound run is read from its row as it was stored. -/
theorem SoundRun.run_of (h : SoundRun k a) : (Sqlite.RunRow.of a).run = a := by
  have hrev := h.revision
  simp only [Sqlite.RunRow.of, Sqlite.RunRow.run, storedRun, if_neg (show a.revision ≠ 0 by omega),
    ← h.schemaVersion]

theorem MirrorsRuns.get (h : MirrorsRuns s m) (k : String) :
    s.runs.get k = (m.run k).map Sqlite.RunRow.of := by
  rw [h.rows, Table.get_map]
  rfl

theorem MirrorsRuns.run (h : MirrorsRuns s m) (k : String) : s.run k = m.run k := by
  rw [Sqlite.RunLog.run, h.get]
  cases ha : m.run k with
  | none => rfl
  | some a => exact congrArg some (h.sound k a ha).run_of

theorem MirrorsRuns.row (h : MirrorsRuns s m) (ha : m.run k = some a) :
    s.runs.get k = some (Sqlite.RunRow.of a) := by
  rw [h.get, ha]
  rfl

/-- Both stores assign the same sound run; events do not matter. -/
theorem MirrorsRuns.set (h : MirrorsRuns s m) (hu : SoundRun k u) {s' : Sqlite.RunLog} {m' : Memory.RunLog}
    (hs : s'.runs = (Sqlite.setRun k u s).runs) (hm : m'.runs = (Memory.setRun k u m).runs) :
    MirrorsRuns s' m' := by
  refine ⟨?_, fun k' a ha => ?_⟩
  · rw [hs, hm]
    simp only [Sqlite.setRun, Memory.setRun, h.rows]
    exact Table.set_map Sqlite.RunRow.of m.runs k u
  · rw [Memory.RunLog.run, hm] at ha
    have hrun := Memory.run_setRun m k u k'
    rw [Memory.RunLog.run, ha] at hrun
    split at hrun
    · rename_i hk
      cases hrun
      exact hk ▸ hu
    · exact h.sound k' a hrun.symm

/-- Both repositories answer alike and stay mirrored, or both raise and do. -/
abbrev RunsAlike {α : Type} (x : Sqlite.RunHandler α) (s : Sqlite.RunLog) (y : Memory.RunHandler α)
    (m : Memory.RunLog) : Prop :=
  Op.sim x s y m (fun a s' b m' => a = b ∧ MirrorsRuns s' m') MirrorsRuns

theorem createRun_alike (h : MirrorsRuns s m) (run : RunInput) (event : Option Event) :
    RunsAlike (Sqlite.createRun run event) s (Memory.createRun run event) m := by
  refine Op.sim_bind (Op.sim_lift (fun u hu => ?_) (fun _ _ => h))
  refine Op.sim_bind (Op.sim_lift (fun pending _ => ?_) (fun _ _ => h))
  refine Op.sim_atomically (Op.sim_bind (Op.sim_gets ?_))
  have hnew : (s.runs.get u.id).isNone = (m.run u.id).isNone := by rw [h.get, Option.isNone_map]
  rw [hnew]
  refine Op.sim_bind (Op.sim_lift (fun _ _ => ?_) (fun _ _ => h))
  obtain ⟨-, rfl⟩ := newRun_ok hu
  exact Op.sim_returns rfl rfl ⟨rfl, h.set (soundRun_stored run (by omega)) rfl rfl⟩

theorem updateRun_alike (h : MirrorsRuns s m) (r : RunUpdateRequest) :
    RunsAlike (Sqlite.updateRun r) s (Memory.updateRun r) m := by
  refine Op.sim_bind (Op.sim_lift (fun pending _ => ?_) (fun _ _ => h))
  refine Op.sim_atomically (Op.sim_bind (Op.sim_gets ?_))
  rw [h.run]
  cases hprev : m.run r.run.id with
  | none => exact Op.sim_raise h
  | some previous =>
    refine Op.sim_bind (Op.sim_lift (fun u hu => ?_) (fun _ _ => h))
    obtain ⟨hrev, rfl⟩ := updateRun_ok hu
    refine Op.sim_left (Sqlite.updateRow_of_match (h.row hprev) hrev (fun _ hst => nomatch hst)) ?_
    have hpos := (h.sound _ _ hprev).revision
    exact Op.sim_returns rfl rfl ⟨rfl, h.set (soundRun_stored r.run (by omega)) rfl rfl⟩

theorem transitionRun_alike (h : MirrorsRuns s m) (r : RunTransitionRequest) :
    RunsAlike (Sqlite.transitionRun r) s (Memory.transitionRun r) m := by
  refine Op.sim_bind (Op.sim_lift (fun pending _ => ?_) (fun _ _ => h))
  refine Op.sim_bind (Op.sim_lift (fun _ _ => ?_) (fun _ _ => h))
  refine Op.sim_atomically (Op.sim_bind (Op.sim_gets ?_))
  rw [h.run]
  cases hprev : m.run r.runId with
  | none => exact Op.sim_raise h
  | some previous =>
    refine Op.sim_bind (Op.sim_lift (fun u hu => ?_) (fun _ _ => h))
    obtain ⟨hrev, hst, hrecord⟩ := transitionRun_ok hu
    have sound := h.sound _ _ hprev
    have hpos := sound.revision
    have hsound : SoundRun r.runId u := soundRun_storedRun hrecord sound.id (by omega)
    refine Op.sim_left (Sqlite.updateRow_of_match (h.row hprev) hrev (fun st hst' => ?_)) ?_
    · cases hst'
      exact hst
    · refine Op.sim_returns rfl rfl ⟨rfl, h.set hsound rfl ?_⟩
      rw [← hsound.id]
      rfl

/-- A claimed run is stored under its key in both stores. -/
theorem MirrorsRuns.claimed (h : MirrorsRuns s m) (ha : m.run k = some a) (hu : claimRun k a = .ok u)
    {s' : Sqlite.RunLog} {m' : Memory.RunLog} (hs : s'.runs = (Sqlite.setRun k u s).runs)
    (hm : m'.runs = (Memory.setRun u.id u m).runs) : MirrorsRuns s' m' := by
  have sound := h.sound _ _ ha
  have hpos := sound.revision
  have hsound : SoundRun k u := soundRun_storedRun (claimRun_ok hu).2 sound.id (by omega)
  exact h.set hsound hs (by rw [hm, hsound.id])

theorem claimRun_alike (h : MirrorsRuns s m) (runId : String) :
    RunsAlike (Sqlite.claimRun runId) s (Memory.claimRun runId) m := by
  refine Op.sim_atomically (Op.sim_bind (Op.sim_gets ?_))
  rw [h.run]
  cases hprev : m.run runId with
  | none => exact Op.sim_pure ⟨rfl, h⟩
  | some previous =>
    refine Op.sim_bind (Op.sim_lift (fun u hu => ?_) (fun _ _ => h))
    refine Op.sim_left (Sqlite.updateRow_of_match (h.row hprev) rfl (fun st hst => ?_)) ?_
    · cases hst
      exact (claimRun_ok hu).1
    · exact Op.sim_returns rfl rfl ⟨rfl, h.claimed hprev hu rfl rfl⟩

theorem claimNextQueued_alike (h : MirrorsRuns s m) :
    RunsAlike Sqlite.claimNextQueued s Memory.claimNextQueued m := by
  refine Op.sim_atomically (Op.sim_bind (Op.sim_gets ?_))
  have hfind : s.runs.rows.find? (fun r => r.2.run.status = some "queued") =
      (m.runs.rows.find? (fun r => r.2.status = some "queued")).map (fun r => (r.1, Sqlite.RunRow.of r.2)) := by
    rw [h.rows, Table.map_rows, List.find?_map]
    rfl
  rw [hfind]
  cases hrow : m.runs.rows.find? (fun r => r.2.status = some "queued") with
  | none => exact Op.sim_pure ⟨rfl, h⟩
  | some r =>
    obtain ⟨runId, previous⟩ := r
    have hprev : m.run runId = some previous := Table.get_of_mem (List.mem_of_find?_eq_some hrow)
    show Op.sim (Op.lift (claimRun runId (Sqlite.RunRow.of previous).run) >>= _) _ _ _ _ _
    rw [(h.sound _ _ hprev).run_of]
    refine Op.sim_bind (Op.sim_lift (fun u hu => ?_) (fun _ _ => h))
    exact Op.sim_returns rfl rfl ⟨rfl, h.claimed hprev hu rfl rfl⟩

/-- Requeueing runs that are sound, whatever has been requeued before. -/
theorem requeueRows_alike (h : MirrorsRuns s m) (rows : List (String × Run)) (sound : ∀ r ∈ rows, SoundRun r.1 r.2) :
    Op.sim (Sqlite.requeueRows (rows.map (fun r => (r.1, Sqlite.RunRow.of r.2)))) s (Memory.requeueRows rows) m
      (fun a s' b m' => a = b ∧ MirrorsRuns s' m') (fun _ _ => False) := by
  induction rows generalizing s m with
  | nil => exact Op.sim_pure ⟨rfl, h⟩
  | cons r rest ih =>
    obtain ⟨runId, previous⟩ := r
    have hsound : SoundRun runId previous := sound (runId, previous) (List.mem_cons_self ..)
    have hrest : ∀ r ∈ rest, SoundRun r.1 r.2 := fun r hr => sound r (List.mem_cons_of_mem _ hr)
    have hpos := hsound.revision
    unfold Memory.requeueRows
    rw [List.map_cons, Sqlite.requeueRows, hsound.run_of]
    split
    · refine Op.sim_bind (Op.sim_lift (fun u hu => ?_) (fun e he => ?_))
      · have hqueued : SoundRun runId u := soundRun_storedRun (requeueRun_ok hu) hsound.id (by omega)
        refine Op.sim_bind (Op.sim_modify (Op.sim_bind (Op.sim_mono (ih (h.set hqueued rfl rfl) hrest) ?_
          (fun _ _ h => h))))
        rintro ids s' _ m' ⟨rfl, h'⟩
        exact Op.sim_pure ⟨rfl, h'⟩
      · rw [Memory.requeueRun_of_nonneg (by omega)] at he
        cases he
    · exact ih h hrest

theorem requeueInterrupted_alike (h : MirrorsRuns s m) :
    RunsAlike Sqlite.requeueInterrupted s Memory.requeueInterrupted m := by
  refine Op.sim_atomically (Op.sim_bind (Op.sim_gets ?_))
  rw [h.rows, Table.map_rows]
  exact Op.sim_mono (requeueRows_alike h m.runs.rows (fun r hr => h.sound _ _ (Table.get_of_mem hr)))
    (fun _ _ _ _ h => h) (fun _ _ h => h.elim)

theorem serveRun_alike (h : MirrorsRuns s m) (c : RunCommand) :
    RunsAlike (Sqlite.serveRun c) s (Memory.serveRun c) m := by
  have answered {α : Type} {x : Sqlite.RunHandler α} {y : Memory.RunHandler α} {reply : α → Reply}
      (h : RunsAlike x s y m) :
      RunsAlike (x >>= fun a => pure (reply a)) s (y >>= fun a => pure (reply a)) m := by
    refine Op.sim_bind (Op.sim_mono h ?_ (fun _ _ h => h))
    rintro a s' _ m' ⟨rfl, mirrors⟩
    exact Op.sim_pure ⟨rfl, mirrors⟩
  cases c with
  | create run event => exact answered (createRun_alike h run event)
  | update r => exact answered (updateRun_alike h r)
  | transition r => exact answered (transitionRun_alike h r)
  | claim runId => exact answered (claimRun_alike h runId)
  | claimNextQueued => exact answered (claimNextQueued_alike h)
  | requeueInterrupted => exact answered (requeueInterrupted_alike h)

end Runs

/-! ### Score rows -/

/-- The score rows of one pass that `score_sets` accepts: each names its case, and no two share a key. -/
def Insertable (scores : List Score) : Prop :=
  (∀ x ∈ scores, ∃ c, x.caseId = some (some c)) ∧ (scores.map Score.identity).Nodup

theorem Insertable.bound {scores : List Score} (h : Insertable scores) (passId : String) :
    Insertable (scores.map (bindScore passId)) := by
  refine ⟨fun x hx => ?_, ?_⟩
  · obtain ⟨y, hy, rfl⟩ := List.mem_map.1 hx
    exact h.1 y hy
  · rw [List.map_map]
    exact h.2

/-- Insertable rows go into a table that has no row under one of their keys. -/
theorem insertScores_of_insertable (passId : String) (rows : List ScoreRow) {scores : List Score}
    (h : Insertable scores) (free : ∀ row ∈ rows, row.passId = passId → row.key ∉ scores.map Score.identity) :
    ∃ rows', insertScores passId rows scores = .ok rows' := by
  induction scores generalizing rows with
  | nil => exact ⟨rows, rfl⟩
  | cons x rest ih =>
    obtain ⟨c, hc⟩ := h.1 x (List.mem_cons_self ..)
    obtain ⟨hnew, distinct⟩ := List.nodup_cons.1 h.2
    have free' : ∀ row ∈ rows ++ [⟨passId, x.identity, x⟩], row.passId = passId →
        row.key ∉ rest.map Score.identity := by
      intro row hrow hpass
      rcases List.mem_append.1 hrow with hrow | hrow
      · exact fun hmem => free row hrow hpass (List.mem_cons_of_mem _ hmem)
      · rw [List.mem_singleton.1 hrow]
        exact hnew
    obtain ⟨rows', hrows⟩ := ih (rows ++ [⟨passId, x.identity, x⟩]) ⟨fun y hy => h.1 y (List.mem_cons_of_mem _ hy), distinct⟩ free'
    refine ⟨rows', ?_⟩
    simp only [insertScores, scoreKey, hc, except_bind_ok_iff, except_pure_ok_iff, ensure_ok_iff, exists_const,
      exists_eq_left']
    refine ⟨fun row hrow hsame => free row hrow hsame.1 ?_, hrows⟩
    rw [hsame.2]
    exact List.mem_cons_self ..

/-- An insertion adds rows of its own pass only. -/
theorem mem_of_insertScores {passId : String} {scores : List Score} {rows rows' : List ScoreRow}
    (h : insertScores passId rows scores = .ok rows') : ∀ row ∈ rows', row ∈ rows ∨ row.passId = passId := by
  induction scores generalizing rows with
  | nil =>
    cases h
    exact fun row hrow => .inl hrow
  | cons x rest ih =>
    simp only [insertScores, except_bind_ok_iff, ensure_ok_iff, exists_const] at h
    obtain ⟨key, _, _, hrest⟩ := h
    intro row hrow
    rcases ih hrest row hrow with hrow | hpass
    · rcases List.mem_append.1 hrow with hrow | hrow
      · exact .inl hrow
      · rw [List.mem_singleton.1 hrow]
        exact .inr rfl
    · exact .inr hpass

/-- The stores bind the same scores, unless one has a null pass id. -/
theorem bindScores_eq {passId : String} {scores : List Score} (h : ∀ x ∈ scores, x.scoringPassId ≠ some none) :
    Sqlite.bindScores passId scores = Memory.bindScores passId scores := by
  have hsame : (∀ x ∈ scores, x.scoringPassId.join = none ∨ x.scoringPassId.join = some passId) ↔
      ∀ x ∈ scores, x.scoringPassId = none ∨ x.scoringPassId = some (some passId) := by
    refine forall_congr' (fun x => forall_congr' (fun hx => ?_))
    rcases hpass : x.scoringPassId with _ | _ | pass
    · simp
    · exact absurd hpass (h x hx)
    · simp
  unfold Sqlite.bindScores Memory.bindScores
  rw [show ensure _ _ = ensure _ _ from if_congr hsame rfl rfl]

/-! ### Publication -/

/-- Everything the two stores read back is the same. -/
structure Mirrors (s : Sqlite.Database) (m : Memory.Store) : Prop where
  jobs : MirrorsJobs s.toLedgers m.toLedgers
  runs : MirrorsRuns s.toRunLog m.toRunLog
  passes : s.passes = m.passes
  scored : ∀ row ∈ s.scoreSets, s.passes.get row.passId ≠ none

/-- A publication gives the run no other id and no other schema version. -/
def KeepsRun (r : PublishRequest) (runId : String) : Prop :=
  (∀ id ∈ r.runAdvance.id, id = runId) ∧ ∀ version ∈ r.runAdvance.schemaVersion, version = 2

/-- What a publication must not run into: a null pass id, which only SQLite accepts;
an exception after the in-memory store has begun to write; and, once nothing else is
in its way, a call in flight, score rows that only SQLite refuses, and members of
the run that are not the publication's to set. -/
structure PublishRule (m : Memory.Store) (r : PublishRequest) : Prop where
  given : ∀ x ∈ r.scores, x.scoringPassId ≠ some none
  ontime : ¬ Memory.FailsLate r m
  quiet : ∀ j, Memory.Ready r m j → m.passes.get r.passRecord.id = none → j.1.status = .prepared →
    j.1.inFlight = false
  insertable : ∀ j, Memory.Ready r m j → m.passes.get r.passRecord.id = none → Insertable r.scores
  keeps : ∀ j, Memory.Ready r m j → j.1.ownerKind = .subject → KeepsRun r j.1.runId

/-- The subject run is found and moved on in both stores or in neither. -/
theorem movedRuns_mirrors {s : Sqlite.RunLog} {m : Memory.RunLog} (h : MirrorsRuns s m) (r : PublishRequest)
    (j : StoredJob) : (Sqlite.movedRuns r j s = none ∧ Memory.movedRuns r j m = none) ∨
      ∃ log log', Sqlite.movedRuns r j s = some log ∧ Memory.movedRuns r j m = some log' ∧
        ((j.1.ownerKind = .subject → KeepsRun r j.1.runId) → MirrorsRuns log log') := by
  unfold Sqlite.movedRuns Memory.movedRuns
  cases j.1.ownerKind with
  | calibration => exact .inr ⟨s, m, rfl, rfl, fun _ => h⟩
  | subject =>
    cases ha : m.runs.get j.1.runId with
    | none =>
      have hrow : s.runs.get j.1.runId = none := by rw [h.get, Memory.RunLog.run, ha]; rfl
      simp only [hrow]
      exact .inl ⟨trivial, trivial⟩
    | some a =>
      have hrow : s.runs.get j.1.runId = some (Sqlite.RunRow.of a) := h.row ha
      simp only [hrow]
      by_cases hcheck : some a.revision = r.expectedRunRevision ∧ a.status = r.expectedRunStatus
      · refine .inr ⟨_, _, if_pos hcheck, if_pos hcheck, fun keeps => ?_⟩
        obtain ⟨hid, hversion⟩ := keeps trivial
        have sound := h.sound _ _ ha
        have hpos := sound.revision
        refine h.set (u := advancedRun r a a.revision) ⟨?_, by simp only [advancedRun]; omega, ?_⟩ rfl rfl
        · cases hadv : r.runAdvance.id with
          | none => simpa [advancedRun, hadv] using sound.id
          | some id => simpa [advancedRun, hadv] using hid id hadv
        · cases hadv : r.runAdvance.schemaVersion with
          | none => simpa [advancedRun, hadv] using sound.schemaVersion
          | some version => simpa [advancedRun, hadv] using hversion version hadv
      · exact .inl ⟨if_neg hcheck, if_neg hcheck⟩

/-- In SQLite a publication that nothing refuses goes through. -/
theorem publishPass_returns {r : PublishRequest} {s : Sqlite.Database} {scores : List Score} {j : StoredJob}
    {log : Sqlite.RunLog} {rows : List ScoreRow} (reserved : checkReserved r j = .ok ())
    (moved : Sqlite.movedRuns r j s.toRunLog = some log) (fresh : s.passes.get r.passRecord.id = none)
    (inserted : insertScores r.passRecord.id s.scoreSets scores = .ok rows)
    (matched : ∀ u, completedRecord r j = .ok u → sqliteJobs.Matches s.toLedgers u j.1.revision j.1.status)
    (bound : ∀ e ∈ r.events, e.runId ≠ none) :
    Op.wp (Sqlite.publishPass r scores j) s (fun _ _ => True) (fun _ _ => False) := by
  simp only [Sqlite.publishPass, Op.wp_bind, Op.wp_lift, Sqlite.onAudit, Sqlite.onRuns, Sqlite.onJobs, Op.wp_zoom]
  refine ⟨fun _ _ => ?_, fun e he => (by cases reserved.symm.trans he)⟩
  refine Op.wp_mono Sqlite.target_moves ?_ (fun _ _ hnone => (by cases moved.symm.trans hnone))
  rintro updated t ⟨rfl, log', -, hstore⟩
  simp only [Sqlite.insertPass, Op.wp_bind, Op.wp_gets, Op.wp_lift, Op.wp_modify, ensure_error_iff]
  refine ⟨fun _ _ => ⟨fun rows' _ => ?_, fun e he => (by cases inserted.symm.trans he)⟩,
    fun _ he => he.1 (by rw [fresh]; rfl)⟩
  rw [Op.wp_of_ok hstore]
  refine ⟨fun u hu => ?_, fun e he => completedRecord_stored he⟩
  rw [Backend.wp_write_of_match (matched u hu), Sqlite.wp_recordAll]
  refine ⟨fun _ => trivial, fun e he => ?_⟩
  obtain ⟨event, hevent, hnone⟩ := (Memory.appendEvents_error_iff log'.events r.events).1 ⟨e, he⟩
  exact bound event hevent hnone

section Publish
variable {s : Sqlite.Database} {m : Memory.Store} {r : PublishRequest} {j : StoredJob} {scores : List Score}

theorem Mirrors.job (h : Mirrors s m) (k : String) : sqliteJobs.job s.toLedgers k = memoryJobs.job m.toLedgers k := by
  rw [h.jobs.1, job_asRows]

/-- A published job has the names it had. -/
theorem completedRecord_names {u : StoredJob} (h : completedRecord r j = .ok u) :
    u.1.jobId = j.1.jobId ∧ u.1.requestKey = j.1.requestKey := by
  have hu := nextRevision_ok_iff.1 h
  rw [hu]
  exact ⟨rfl, rfl⟩

/-- Publications that went through leave mirrored stores. -/
theorem Mirrors.published (h : Mirrors s m) (rule : PublishRule m r) {u u' : StoredJob} {s' : Sqlite.Database}
    {m' : Memory.Store} (hs : Sqlite.Publication r s j u s') (hm : Memory.Publication r m j u' (.ok ()) m') :
    Mirrors s' m' := by
  obtain ⟨log', begins, -, hm'⟩ := hm.state
  obtain ⟨scores, rows, log, events, -, hrows, hlog, -, hs'⟩ := hs.state
  obtain rfl : u = u' := Except.ok.inj (hs.completed.symm.trans begins.completed)
  obtain ⟨hid, hreq⟩ := completedRecord_names hs.completed
  have hkey : u.1.jobId = r.jobId := hid.trans (h.jobs.2 _ _ begins.found)
  rcases movedRuns_mirrors h.runs r j with ⟨hnone, -⟩ | ⟨_, _, hlog₁, hlog₂, mirrors⟩
  · cases hnone.symm.trans hlog
  · cases hlog₁.symm.trans hlog
    cases hlog₂.symm.trans begins.moved
    have runs := mirrors (rule.keeps j begins.ready)
    rw [hs', hm']
    refine ⟨?_, ⟨runs.rows, runs.sound⟩, ?_, fun row hrow => ?_⟩
    · have htarget : sqliteJobs.target r.jobId u = r.jobId := hkey
      simp only [Memory.written, htarget, h.jobs.1]
      exact .put h.jobs.2 begins.found hkey hreq
    · simp only [Memory.written, h.passes]
    · show (s.passes.set r.passRecord.id r.passRecord).get row.passId ≠ none
      rw [Table.get_set]
      split
      · simp
      · rename_i hne
        exact h.scored row ((mem_of_insertScores hrows row hrow).resolve_right hne)

/-- The in-memory store publishes what SQLite publishes. -/
theorem memory_publishes (h : Mirrors s m) {u : StoredJob} {s' : Sqlite.Database} {e : Err} {m' : Memory.Store}
    (hs : Sqlite.Publication r s j u s') (named : r.passRecord.id ≠ "")
    (bound : Memory.bindScores r.passRecord.id r.scores = .ok scores) : ¬ Memory.PublishRaises r m e m' := by
  obtain ⟨_, _, log, events, _, _, hlog, hev, _⟩ := hs.state
  have found : memoryJobs.job m.toLedgers r.jobId = some j := (h.job _).symm.trans hs.found
  rcases movedRuns_mirrors h.runs r j with ⟨hnone, -⟩ | ⟨_, log', _, hlog', -⟩
  · cases hnone.symm.trans hlog
  · rintro (⟨-, hnone⟩ | ⟨_, _, _, _, hpass, -⟩ | ⟨_, _, hp⟩)
    · exact hnone ⟨j, u, log', ⟨found, hs.status, hs.reserved, hs.completed⟩, hs.expected, named, ⟨_, bound⟩, hlog'⟩
    · exact hpass (h.passes ▸ hs.fresh)
    · obtain ⟨log'', _, hev', -⟩ := hp.state
      obtain ⟨e', he'⟩ := (Memory.appendEvents_error_iff log.events r.events).2
        ((Memory.appendEvents_error_iff log''.events r.events).1 ⟨e, by rw [hev']⟩)
      rw [hev] at he'
      cases he'

/-- SQLite publishes what the in-memory store publishes within the rule. -/
theorem sqlite_publishes (h : Mirrors s m) (rule : PublishRule m r) {u : StoredJob} {m' : Memory.Store}
    (hm : Memory.Publication r m j u (.ok ()) m') :
    Op.wp (Sqlite.publishPass r (r.scores.map (bindScore r.passRecord.id)) j) s (fun _ _ => True)
      (fun _ _ => False) := by
  obtain ⟨log', begins, hev, -⟩ := hm.state
  have fresh : s.passes.get r.passRecord.id = none := by rw [h.passes]; exact hm.fresh
  obtain ⟨rows, hrows⟩ := insertScores_of_insertable r.passRecord.id s.scoreSets
    ((rule.insertable j begins.ready hm.fresh).bound r.passRecord.id) (fun row hrow hpass =>
      absurd fresh (hpass ▸ h.scored row hrow))
  rcases movedRuns_mirrors h.runs r j with ⟨-, hnone⟩ | ⟨log, _, hlog, -, -⟩
  · cases hnone.symm.trans begins.moved
  · refine publishPass_returns begins.reserved hlog fresh hrows (fun u hu _ => ?_) (fun e he hnone => ?_)
    · refine ⟨j, ?_, rfl, rfl⟩
      rw [h.job, (completedRecord_names hu).1, h.jobs.2 _ _ begins.found]
      exact begins.found
    · obtain ⟨e', he'⟩ := (Memory.appendEvents_error_iff log'.events r.events).2 ⟨e, he, hnone⟩
      rw [hev] at he'
      cases he'

/-- What both do once the job may be published. -/
theorem publishPass_alike (h : Mirrors s m) (rule : PublishRule m r)
    (hj : memoryJobs.job m.toLedgers r.jobId = some j) (hst : j.1.status = .settled ∨ j.1.status = .prepared)
    (quiet : j.1.status = .prepared → j.1.inFlight = false)
    (expected : r.expectedRunRevision = none ↔ r.expectedRunStatus = none) (named : r.passRecord.id ≠ "")
    (bound : Memory.bindScores r.passRecord.id r.scores = .ok scores) :
    Op.sim (Sqlite.publishPass r scores j) s (Memory.publishPass r scores j) m (fun _ s' _ m' => Mirrors s' m')
      (fun _ m' => Mirrors s m') := by
  have hscores : scores = r.scores.map (bindScore r.passRecord.id) := by
    simp only [Memory.bindScores, except_bind_ok_iff, ensure_ok_iff, except_pure_ok_iff, exists_const] at bound
    exact bound.2.symm
  have hsqlite := Sqlite.publishPass_spec ((h.job _).trans hj) hst quiet expected
    ((bindScores_eq rule.given).trans bound)
  have hmemory := Memory.publishPass_spec hj hst expected named bound
  -- the in-memory store cannot find the job decided
  have undecided {reply : PublishReply} {m' : Memory.Store} (hret : Memory.PublishReturns r m reply m') :
      ∃ u, Memory.Publication r m j u (.ok ()) m' := by
    rcases hret with ⟨-, j', u, -, hp⟩ | ⟨-, -, j', hj', hdone⟩
    · obtain ⟨_, begins, -⟩ := hp.state
      cases hj.symm.trans begins.found
      exact ⟨u, hp⟩
    · cases hj.symm.trans hj'
      rcases hst with hst | hst <;> rw [hst] at hdone <;> simp at hdone
  rcases hx : Sqlite.publishPass r scores j s with ⟨e | reply, s'⟩
  · rcases hy : Memory.publishPass r scores j m with ⟨e' | reply', m'⟩
    · rw [Op.wp_of_error hy] at hmemory
      rw [Memory.publishRaises_same hmemory rule.ontime] at hy
      exact Op.sim_raises hx hy h
    · rw [Op.wp_of_ok hy] at hmemory
      obtain ⟨u, hp⟩ := undecided hmemory
      have hreturns := sqlite_publishes h rule hp
      rw [← hscores, Op.wp_of_error hx] at hreturns
      exact hreturns.elim
  · rw [Op.wp_of_ok hx] at hsqlite
    obtain ⟨-, u, -, hp⟩ := hsqlite
    rcases hy : Memory.publishPass r scores j m with ⟨e' | reply', m'⟩
    · rw [Op.wp_of_error hy] at hmemory
      exact (memory_publishes h hp named bound hmemory).elim
    · rw [Op.wp_of_ok hy] at hmemory
      obtain ⟨u', hp'⟩ := undecided hmemory
      exact Op.sim_returns hx hy (h.published rule hp hp')

/-- A prepared job with a call in flight is refused by the in-memory store as well, for another reason. -/
theorem publishPass_refused (rule : PublishRule m r) (hj : memoryJobs.job m.toLedgers r.jobId = some j)
    (hst : j.1.status = .prepared) (busy : j.1.inFlight ≠ false)
    (expected : r.expectedRunRevision = none ↔ r.expectedRunStatus = none) (named : r.passRecord.id ≠ "")
    (bound : Memory.bindScores r.passRecord.id r.scores = .ok scores) :
    ∃ e, Memory.publishPass r scores j m = (.error e, m) := by
  have hmemory := Memory.publishPass_spec hj (.inr hst) expected named bound
  rcases hy : Memory.publishPass r scores j m with ⟨e | reply, m'⟩
  · rw [Op.wp_of_error hy] at hmemory
    rw [Memory.publishRaises_same hmemory rule.ontime]
    exact ⟨e, rfl⟩
  · rw [Op.wp_of_ok hy] at hmemory
    rcases hmemory with ⟨-, j', u, -, hp⟩ | ⟨-, -, j', hj', hdone⟩
    · obtain ⟨_, begins, -⟩ := hp.state
      cases hj.symm.trans begins.found
      exact absurd (rule.quiet j begins.ready hp.fresh hst) busy
    · cases hj.symm.trans hj'
      rw [hst] at hdone
      simp at hdone

theorem publish_alike (h : Mirrors s m) (rule : PublishRule m r) :
    Op.sim (Sqlite.publish r) s (Memory.publish r) m (fun _ s' _ m' => Mirrors s' m') Mirrors := by
  refine Op.sim_bind (Op.sim_lift (fun _ named => ?_) (fun _ _ => h))
  rw [bindScores_eq rule.given]
  refine Op.sim_bind (Op.sim_lift (fun scores bound => ?_) (fun _ _ => h))
  refine Op.sim_bind (Op.sim_lift (fun _ expected => ?_) (fun _ _ => h))
  simp only [checkPublishRequest, ensure_ok_iff] at named expected
  refine Op.sim_atomically (Op.sim_bind (Op.sim_zoom (sim_require (h.job _) (fun j hj => ?_) h)))
  cases hst : j.1.status with
  | completed => exact Op.sim_pure h
  | cancelled => exact Op.sim_pure h
  | settled =>
    exact publishPass_alike h rule hj (.inl hst) (fun hp => (by cases hst.symm.trans hp)) expected named bound
  | prepared =>
    by_cases quiet : j.1.inFlight = false
    · refine Op.sim_left (a := ()) ?_ (publishPass_alike h rule hj (.inr hst) (fun _ => quiet) expected named bound)
      rw [Op.lift_apply, ensure, if_pos quiet]
    · obtain ⟨e, he⟩ := publishPass_refused rule hj hst quiet expected named bound
      have hbusy : (Op.lift (ensure (j.1.inFlight = false) (.scoringJob "job has an unsettled dispatching call")) :
          Sqlite.Handler Unit) s = (.error (.scoringJob "job has an unsettled dispatching call"), s) := by
        rw [Op.lift_apply, ensure, if_neg quiet]
      exact Op.sim_raises (Op.bind_of_error hbusy) he h
  | _ => exact Op.sim_raise h

end Publish

/-! ### Runs of the two stores -/

/-- The requests to the job and the run repository that both stores serve alike. -/
def PortableRule (m : Memory.Store) : Request → Prop
  | .run _ => True
  | .job c => MirrorRule m.toLedgers c
  | .publish r => PublishRule m r
  | .attempt _ | .append _ => False

/-- From mirrored stores a request within the rule ends the same way in both and leaves mirrored stores. -/
theorem serve_mirrors {s : Sqlite.Database} {m : Memory.Store} (h : Mirrors s m) {q : Request}
    (rule : PortableRule m q) :
    Op.sim (Sqlite.serve q) s (Memory.serve q) m (fun _ s' _ m' => Mirrors s' m') Mirrors := by
  cases q with
  | attempt c => exact rule.elim
  | append r => exact rule.elim
  | run c =>
    exact Op.sim_zoom (Op.sim_zoom (Op.sim_mono (serveRun_alike h.runs c)
      (fun _ _ _ _ hruns => ⟨h.jobs, hruns.2, h.passes, h.scored⟩)
      (fun _ _ hruns => ⟨h.jobs, hruns, h.passes, h.scored⟩)))
  | job c =>
    have alike := serve_alike h.jobs.2 c rule
    rw [Alike, ← h.jobs.1] at alike
    exact Op.sim_bind (Op.sim_zoom (Op.sim_mono alike
      (fun _ _ _ _ hjobs => Op.sim_pure ⟨hjobs.2, h.runs, h.passes, h.scored⟩)
      (fun _ _ hjobs => ⟨hjobs, h.runs, h.passes, h.scored⟩)))
  | publish r =>
    exact Op.sim_bind (Op.sim_mono (publish_alike h rule) (fun _ _ _ _ h' => Op.sim_pure h') (fun _ _ h' => h'))

theorem Mirrors.step {s : Sqlite.Database} {m : Memory.Store} (h : Mirrors s m) {q : Request}
    (rule : PortableRule m q) : (Sqlite.serve q s).1.isOk = (Memory.serve q m).1.isOk ∧
      Mirrors (Sqlite.step q s) (Memory.step q m) := by
  unfold Sqlite.step Memory.step
  rcases (serve_mirrors h rule).cases with ⟨a, s', b, m', hx, hy, h'⟩ | ⟨e, s', e', m', hx, hy, h'⟩
  · rw [hx, hy]
    exact ⟨rfl, h'⟩
  · rw [hx, hy]
    exact ⟨rfl, h'⟩

theorem mirrors_empty : Mirrors ∅ ∅ where
  jobs := ⟨rfl, fun _ _ h => nomatch h⟩
  runs := ⟨rfl, fun _ _ h => nomatch h⟩
  passes := rfl
  scored _ h := nomatch h

theorem mirrors_run {s : Sqlite.Database} {m : Memory.Store} (h : Mirrors s m) {requests : List Request}
    (rule : Along Memory.step PortableRule m requests) :
    Mirrors (run Sqlite.step s requests) (run Memory.step m requests) := by
  induction requests generalizing s m with
  | nil => exact h
  | cons q rest ih => exact ih (h.step rule.1).2 rule.2

/-- The jobs, passes and runs that the two stores read back are the same. -/
structure ReadAlike (s : Sqlite.Database) (m : Memory.Store) : Prop where
  job : ∀ key, sqliteJobs.job s.toLedgers key = memoryJobs.job m.toLedgers key
  byRequestKey : ∀ key, sqliteJobs.byRequestKey s.toLedgers key = memoryJobs.byRequestKey m.toLedgers key
  listed : s.jobs.rows.map (fun r => r.2.payload) = m.jobs.rows.map (·.2)
  pass : ∀ id, s.passes.get id = m.passes.get id
  run : ∀ id, s.run id = m.run id

theorem Mirrors.readAlike {s : Sqlite.Database} {m : Memory.Store} (h : Mirrors s m) : ReadAlike s m where
  job := h.job
  byRequestKey key := by rw [h.jobs.1, byRequestKey_asRows]
  listed := by
    have hrows : s.jobs = m.jobs.map sqliteJobs.fresh := congrArg (·.jobs) h.jobs.1
    rw [hrows, Table.map_rows, List.map_map]
    rfl
  pass id := by rw [h.passes]
  run := h.runs.run

/-- The sample job is claimed; its run waits to be scored. -/
def scoring : List Request := [
  .run (.create {id := "run", status := some "scoring"} none),
  .job (.submit sampleJob),
  .job (.claim "job" "t")]

/-- The sample publication with one score, its pass id given or left out. -/
def scored (scoringPassId : Option (Option String)) : Request :=
  .publish {samplePublish with scores := [{caseId := some (some "case"), scoringPassId}]}

/-- The publication of the sample job is within the rule when its score has no pass id. -/
theorem scored_portable : PortableRule (run Memory.step ∅ scoring) (scored none) where
  given x hx := by
    rw [List.mem_singleton.1 hx]
    exact fun h => nomatch h
  ontime := by
    rintro ⟨j, -, ⟨hpass, -⟩ | ⟨-, e, he, -⟩⟩
    · exact hpass rfl
    · cases he
  quiet j ready _ _ := by
    have quiet : (memoryJobs.job (run Memory.step ∅ scoring).toLedgers "job").map (·.1.inFlight) = some false := by
      decide
    have found : memoryJobs.job (run Memory.step ∅ scoring).toLedgers "job" = some j := ready.found
    rw [found] at quiet
    exact Option.some.inj quiet
  insertable _ _ _ := by
    refine ⟨fun x hx => ⟨"case", ?_⟩, List.nodup_singleton _⟩
    rw [List.mem_singleton.1 hx]
  keeps _ _ _ := ⟨(fun _ h => nomatch h), fun _ h => nomatch h⟩

end Motte.Storage
