import Motte.Storage.AttemptMoves
import Motte.Storage.Publish

/-! What one request can do to the runs.

Every write of a run is one of a few edits (`RunEdit`), computed from the run that
is stored when it is written and one revision on. A request that is answered moves
the runs by such edits only, and the run it was asked to write is among those that
moved; a request that raises leaves the store as it was, in SQLite by its
transaction and in memory unless it is one of two that fail late. -/
namespace Motte.Storage
open Foundation

/-! ### Edits of one run -/

/-- The ways a request turns the run stored under a key into the next. -/
inductive RunEdit : Request → String → Run → Run → Prop where
  | update {r a u} (h : updateRun r a = .ok u) : RunEdit (.run (.update r)) r.run.id a u
  | transition {r a u} (h : transitionRun r a = .ok u) : RunEdit (.run (.transition r)) r.runId a u
  | claim {k a u} (h : claimRun k a = .ok u) : RunEdit (.run (.claim k)) k a u
  | claimNext {k a u} (h : claimRun k a = .ok u) : RunEdit (.run .claimNextQueued) k a u
  | requeue {k a u} (h : requeueRun a = .ok u) : RunEdit (.run .requeueInterrupted) k a u
  | quarantine {r : QuarantineRequest} {a u} (hrev : a.revision = r.expectedRunRevision)
      (hst : a.status = some r.expectedRunStatus)
      (h : nextRun {a.input with status := some "needs_review", fields := a.fields.merge r.changes}
        r.expectedRunRevision = .ok u) : RunEdit (.attempt (.quarantine r)) r.runId a u
  | append {r : AppendRequest} {passId a u} (hrev : some a.revision = r.expectedRunRevision)
      (hst : a.status = r.expectedRunStatus) (h : scoredRun r passId a a.revision = .ok u) :
      RunEdit (.append r) r.runId a u
  /-- A run is read with the schema version its revision stands for, whatever the publication named. -/
  | publish {r : PublishRequest} {k a schemaVersion} (hrev : some a.revision = r.expectedRunRevision)
      (hst : a.status = r.expectedRunStatus) :
      RunEdit (.publish r) k a {advancedRun r a a.revision with schemaVersion}

theorem RunEdit.revision {q : Request} {k : String} {a u : Run} (h : RunEdit q k a u) :
    u.revision = a.revision + 1 := by
  cases h with
  | update h =>
    obtain ⟨hrev, rfl⟩ := updateRun_ok h
    rw [hrev]
    rfl
  | transition h =>
    obtain ⟨hrev, -, rfl⟩ := transitionRun_ok h
    rw [hrev]
    rfl
  | claim h => rw [(claimRun_ok h).2]; rfl
  | claimNext h => rw [(claimRun_ok h).2]; rfl
  | requeue h => rw [requeueRun_ok h]; rfl
  | quarantine hrev _ h => rw [(nextRun_ok h).2, hrev]; rfl
  | append _ _ h => rw [(nextRun_ok h).2]; rfl
  | publish => rfl

/-- The run under the key was rewritten from what it was. -/
def Revised (q : Request) (k : String) (s t : String → Option Run) : Prop :=
  ∃ a u, s k = some a ∧ t k = some u ∧ RunEdit q k a u

/-- The run under the key was created. -/
def Created (q : Request) (k : String) (s t : String → Option Run) : Prop :=
  s k = none ∧ ∃ u, t k = some u ∧ u.id = k ∧ u.revision = 1 ∧ ∃ run event, q = .run (.create run event)

/-- Each run is as it was, was created, or was rewritten. -/
def RunsMoved (q : Request) (s t : String → Option Run) : Prop :=
  ∀ k, t k = s k ∨ Created q k s t ∨ Revised q k s t

/-- What an answer says was written. -/
def Wrote (s t : String → Option Run) : Request → Reply → Prop
  | .run (.create run event), .run (some u) => Created (.run (.create run event)) u.id s t ∧ t u.id = some u
  | .run (.update r), .run (some u) => Revised (.run (.update r)) r.run.id s t ∧ t r.run.id = some u
  | .run (.transition r), .run (some u) => Revised (.run (.transition r)) r.runId s t ∧ t r.runId = some u
  | .run (.claim k), .run (some u) => Revised (.run (.claim k)) k s t ∧ t k = some u
  | .run .claimNextQueued, .run (some u) => ∃ k, Revised (.run .claimNextQueued) k s t ∧ t k = some u
  | .run .requeueInterrupted, .requeued ids => ∀ k ∈ ids, Revised (.run .requeueInterrupted) k s t
  | .attempt (.quarantine r), .attempts (_ :: _) => Revised (.attempt (.quarantine r)) r.runId s t
  | .append r, .appended _ => r.expectedRunRevision ≠ none → Revised (.append r) r.runId s t
  | .publish r, .published p =>
    p.published = true → p.job.ownerKind = .subject → Revised (.publish r) p.job.runId s t
  | _, _ => True

/-- What an answered request did to the runs. -/
structure RunsServed (q : Request) (reply : Reply) (s t : String → Option Run) : Prop where
  moved : RunsMoved q s t
  wrote : Wrote s t q reply

theorem RunsMoved.same {q : Request} {s t : String → Option Run} (h : t = s) : RunsMoved q s t :=
  fun k => .inl (by rw [h])

/-- One run is assigned an edit of what it was at the start. -/
theorem RunsMoved.assign {q : Request} {s t t' : String → Option Run} {key : String} {a u : Run}
    (h : RunsMoved q s t) (ha : s key = some a) (he : RunEdit q key a u)
    (ht : ∀ k, t' k = if k = key then some u else t k) : RunsMoved q s t' := by
  intro k
  by_cases hk : k = key
  · have hu : t' k = some u := by rw [ht, if_pos hk]
    exact .inr (.inr ⟨a, u, by rw [hk]; exact ha, hu, hk ▸ he⟩)
  · have hsame : t' k = t k := by rw [ht, if_neg hk]
    rcases h k with hs | ⟨hnone, u', hu', hrest⟩ | ⟨b, v, hb, hv, hedit⟩
    · exact .inl (hsame.trans hs)
    · exact .inr (.inl ⟨hnone, u', hsame.trans hu', hrest⟩)
    · exact .inr (.inr ⟨b, v, hb, hsame.trans hv, hedit⟩)

theorem RunsMoved.one {q : Request} {s t : String → Option Run} {key : String} {a u : Run} (ha : s key = some a)
    (he : RunEdit q key a u) (ht : ∀ k, t k = if k = key then some u else s k) : RunsMoved q s t :=
  (RunsMoved.same rfl).assign ha he ht

theorem Revised.one {q : Request} {s t : String → Option Run} {key : String} {a u : Run} (ha : s key = some a)
    (he : RunEdit q key a u) (ht : ∀ k, t k = if k = key then some u else s k) :
    Revised q key s t ∧ t key = some u := by
  have hu : t key = some u := by rw [ht, if_pos rfl]
  exact ⟨⟨a, u, ha, hu, he⟩, hu⟩

/-- A run that was rewritten stays so while other runs, or it again, are assigned. -/
theorem Revised.assign {q : Request} {s t t' : String → Option Run} {key k : String} {a u : Run}
    (h : Revised q k s t) (ha : s key = some a) (he : RunEdit q key a u)
    (ht : ∀ k, t' k = if k = key then some u else t k) : Revised q k s t' := by
  by_cases hk : k = key
  · subst hk
    exact ⟨a, u, ha, by rw [ht, if_pos rfl], he⟩
  · obtain ⟨b, v, hb, hv, hedit⟩ := h
    exact ⟨b, v, hb, by rw [ht, if_neg hk]; exact hv, hedit⟩

/-- One run was rewritten, as the answer says. -/
theorem RunsServed.one {q : Request} {reply : Reply} {s t : String → Option Run} {key : String} {a u : Run}
    (ha : s key = some a) (he : RunEdit q key a u) (ht : ∀ k, t k = if k = key then some u else s k)
    (wrote : Revised q key s t ∧ t key = some u → Wrote s t q reply) : RunsServed q reply s t :=
  ⟨.one ha he ht, wrote (Revised.one ha he ht)⟩

theorem RunsMoved.created (run : RunInput) (event : Option Event) {s t : String → Option Run} {u : Run}
    (fresh : s u.id = none) (hrev : u.revision = 1) (ht : ∀ k, t k = if k = u.id then some u else s k) :
    RunsMoved (.run (.create run event)) s t ∧ Created (.run (.create run event)) u.id s t ∧ t u.id = some u := by
  have hu : t u.id = some u := by rw [ht, if_pos rfl]
  have created : Created (.run (.create run event)) u.id s t := ⟨fresh, u, hu, rfl, hrev, run, event, rfl⟩
  refine ⟨fun k => ?_, created, hu⟩
  by_cases hk : k = u.id
  · exact .inr (.inl (hk ▸ created))
  · exact .inl (by rw [ht, if_neg hk])

/-! ### Runs under their own ids -/

/-- Every run is stored under the id it carries, at a revision that counts up from zero. -/
def KeyedRuns (s : String → Option Run) : Prop := ∀ k a, s k = some a → a.id = k ∧ 0 ≤ a.revision

/-- Only a publication may name an id for the run. -/
theorem RunEdit.id {q : Request} {k : String} {a u : Run} (h : RunEdit q k a u) (ha : a.id = k)
    (hq : ∀ r, q ≠ .publish r) : u.id = k := by
  cases h with
  | update h => rw [(updateRun_ok h).2]; rfl
  | transition h => rw [(transitionRun_ok h).2.2]; exact ha
  | claim h => rw [(claimRun_ok h).2]; exact ha
  | claimNext h => rw [(claimRun_ok h).2]; exact ha
  | requeue h => rw [requeueRun_ok h]; exact ha
  | quarantine _ _ h => rw [(nextRun_ok h).2]; exact ha
  | append _ _ h => rw [(nextRun_ok h).2]; exact ha
  | publish => exact absurd rfl (hq _)

theorem KeyedRuns.moved {q : Request} {s t : String → Option Run} (hs : KeyedRuns s) (h : RunsMoved q s t)
    (hq : ∀ r, q ≠ .publish r) : KeyedRuns t := by
  intro k u hu
  rcases h k with hsame | ⟨-, u', hu', hid, hrev, -⟩ | ⟨a, u', ha, hu', he⟩
  · exact hs k u (hsame.symm.trans hu)
  · obtain rfl : u' = u := Option.some.inj (hu'.symm.trans hu)
    exact ⟨hid, by omega⟩
  · obtain rfl : u' = u := Option.some.inj (hu'.symm.trans hu)
    have hrev := he.revision
    have hpos := (hs k a ha).2
    exact ⟨he.id (hs k a ha).1 hq, by omega⟩

/-! ### The SQLite store -/

namespace Sqlite

/-- A run that was stored is read back as it is. -/
def Normal (u : Run) : Prop := storedRun u u.revision = u

theorem normal_stored (r : RunInput) (rev : Int) : Normal (r.stored rev) := rfl

theorem normal_storedRun (r : Run) (rev : Int) : Normal (storedRun r rev) := rfl

theorem run_setRun {s : RunLog} {key : String} {u : Run} (hu : Normal u) (k : String) :
    (setRun key u s).run k = if k = key then some u else s.run k := by
  simp only [RunLog.run, setRun, Table.get_set]
  split
  · exact congrArg some hu
  · rfl

/-- The revision column of every row is the revision inside its payload. -/
def Columns (s : RunLog) : Prop := ∀ k row, s.runs.get k = some row → row.revision = row.payload.revision

theorem Columns.setRun {s : RunLog} (h : Columns s) (key : String) (u : Run) : Columns (setRun key u s) := by
  intro k row hrow
  simp only [Sqlite.setRun, Table.get_set] at hrow
  split at hrow
  · cases hrow
    rfl
  · exact h k row hrow

/-- What an answered request did to the runs, the columns included. -/
structure Revises (q : Request) (reply : Reply) (s t : RunLog) : Prop extends RunsServed q reply s.run t.run where
  columns : Columns s → Columns t

/-- Nothing was written that the answer does not say. -/
theorem Revises.same {q : Request} {reply : Reply} {s t : RunLog} (h : t.runs = s.runs)
    (wrote : Wrote s.run t.run q reply) : Revises q reply s t := by
  refine ⟨⟨.same (by funext k; simp only [RunLog.run, h]), wrote⟩, fun hc k row hrow => hc k row ?_⟩
  rw [← h]
  exact hrow

/-- One row was rewritten, as the answer says. -/
theorem Revises.one {q : Request} {reply : Reply} {s t : RunLog} {key : String} {a u : Run}
    (ha : s.run key = some a) (he : RunEdit q key a u) (normal : Normal u)
    (ht : t.runs = (setRun key u s).runs)
    (wrote : Revised q key s.run t.run ∧ t.run key = some u → Wrote s.run t.run q reply) :
    Revises q reply s t := by
  have hset (k : String) : t.run k = if k = key then some u else s.run k := by
    rw [← run_setRun normal]
    simp only [RunLog.run, ht]
  refine ⟨.one ha he hset wrote, fun hc k row hrow => hc.setRun key u k row ?_⟩
  rw [← ht]
  exact hrow

section Runs
variable {s : RunLog}

theorem createRun_served (run : RunInput) (event : Option Event) :
    Op.wp (createRun run event) s (fun u t => Revises (.run (.create run event)) (.run (some u)) s t)
      (fun _ t => t = s) := by
  simp only [createRun, Op.wp_bind, Op.wp_lift, Op.wp_atomically, Op.wp_gets, Op.wp_modify, Op.wp_pure]
  refine ⟨fun u hu => ⟨fun pending _ => ⟨fun _ hnew => ?_, fun _ _ => trivial⟩, fun _ _ => trivial⟩,
    fun _ _ => trivial⟩
  obtain ⟨-, rfl⟩ := newRun_ok hu
  rw [ensure_ok_iff, Option.isNone_iff_eq_none] at hnew
  have fresh : s.run (run.stored 1).id = none := by rw [RunLog.run, hnew]; rfl
  obtain ⟨moved, wrote⟩ := RunsMoved.created run event fresh rfl
    (run_setRun (s := s) (normal_stored run 1))
  exact ⟨⟨moved, wrote⟩, fun hc => hc.setRun _ _⟩

theorem updateRun_served (r : RunUpdateRequest) :
    Op.wp (updateRun r) s (fun u t => Revises (.run (.update r)) (.run (some u)) s t)
      (fun _ t => t = s) := by
  simp only [updateRun, Op.wp_bind, Op.wp_lift, Op.wp_atomically, Op.wp_gets]
  refine ⟨fun pending _ => ?_, fun _ _ => trivial⟩
  split
  · trivial
  · rename_i previous hprev
    simp only [Op.wp_bind, Op.wp_lift, Op.wp_modify, Op.wp_pure]
    refine ⟨fun u hu => wp_updateRow (fun _ _ _ => ?_) trivial, fun _ _ => trivial⟩
    have normal : Normal u := by rw [(updateRun_ok hu).2]; exact normal_stored _ _
    exact .one hprev (.update hu) normal rfl id

theorem transitionRun_served (r : RunTransitionRequest) :
    Op.wp (transitionRun r) s (fun u t => Revises (.run (.transition r)) (.run (some u)) s t)
      (fun _ t => t = s) := by
  simp only [transitionRun, Op.wp_bind, Op.wp_lift, Op.wp_atomically, Op.wp_gets]
  refine ⟨fun pending _ => ⟨fun _ _ => ?_, fun _ _ => trivial⟩, fun _ _ => trivial⟩
  split
  · trivial
  · rename_i previous hprev
    simp only [Op.wp_bind, Op.wp_lift, Op.wp_modify, Op.wp_pure]
    refine ⟨fun u hu => wp_updateRow (fun _ _ _ => ?_) trivial, fun _ _ => trivial⟩
    have normal : Normal u := by rw [(transitionRun_ok hu).2.2]; exact normal_storedRun _ _
    exact .one hprev (.transition hu) normal rfl id

theorem claimRun_served (runId : String) :
    Op.wp (claimRun runId) s (fun u t => Revises (.run (.claim runId)) (.run u) s t)
      (fun _ t => t = s) := by
  simp only [claimRun, Op.wp_bind, Op.wp_atomically, Op.wp_gets]
  split
  · exact .same rfl trivial
  · rename_i previous hprev
    simp only [Op.wp_bind, Op.wp_lift, Op.wp_modify, Op.wp_pure]
    refine ⟨fun u hu => wp_updateRow (fun _ _ _ => ?_) trivial, fun _ _ => trivial⟩
    have normal : Normal u := by rw [(claimRun_ok hu).2]; exact normal_storedRun _ _
    exact .one hprev (.claim hu) normal rfl id

theorem run_of_mem {runId : String} {row : RunRow} (h : (runId, row) ∈ s.runs.rows) :
    s.run runId = some row.run := by
  rw [RunLog.run, Table.get_of_mem h]
  rfl

theorem claimNextQueued_served :
    Op.wp claimNextQueued s (fun u t => Revises (.run .claimNextQueued) (.run u) s t)
      (fun _ t => t = s) := by
  simp only [claimNextQueued, Op.wp_bind, Op.wp_atomically, Op.wp_gets]
  split
  · exact .same rfl trivial
  · rename_i runId row hrow
    have hprev : s.run runId = some row.run := run_of_mem (List.mem_of_find?_eq_some hrow)
    simp only [Op.wp_bind, Op.wp_lift, Op.wp_modify, Op.wp_pure]
    refine ⟨fun u hu => ?_, fun _ _ => trivial⟩
    have normal : Normal u := by rw [(claimRun_ok hu).2]; exact normal_storedRun _ _
    exact .one hprev (.claimNext hu) normal rfl (fun h => ⟨runId, h⟩)

/-- Requeueing rewrites each row from what it was at the start. -/
theorem requeueRows_served {s₀ : RunLog} (rows : List (String × RunRow))
    (hrows : ∀ r ∈ rows, s₀.run r.1 = some r.2.run) (hs : RunsMoved (.run .requeueInterrupted) s₀.run s.run)
    (hc : Columns s₀ → Columns s) (done : List String)
    (hdone : ∀ k ∈ done, Revised (.run .requeueInterrupted) k s₀.run s.run) :
    Op.wp (requeueRows rows) s (fun ids t => Revises (.run .requeueInterrupted) (.requeued (done ++ ids)) s₀ t)
      (fun _ _ => True) := by
  induction rows generalizing s done with
  | nil => exact ⟨⟨hs, fun k hk => hdone k (by simpa using hk)⟩, hc⟩
  | cons r rest ih =>
    obtain ⟨runId, row⟩ := r
    have hrest : ∀ r ∈ rest, s₀.run r.1 = some r.2.run := fun r hr => hrows r (List.mem_cons_of_mem _ hr)
    unfold requeueRows
    split
    · simp only [Op.wp_bind, Op.wp_lift, Op.wp_modify, Op.wp_pure]
      refine ⟨fun u hu => ?_, fun _ _ => trivial⟩
      have ha : s₀.run runId = some row.run := hrows (runId, row) (List.mem_cons_self ..)
      have he : RunEdit (.run .requeueInterrupted) runId row.run u := .requeue hu
      have normal : Normal u := by rw [requeueRun_ok hu]; exact normal_storedRun _ _
      have hset (k : String) : (setRun runId u s).run k = if k = runId then some u else s.run k :=
        run_setRun normal k
      refine Op.wp_mono (ih hrest (hs.assign ha he hset) (fun h => (hc h).setRun _ _) (done ++ [runId])
        (fun k hk => ?_)) (fun ids t h => ?_) (fun _ _ _ => trivial)
      · rcases List.mem_append.1 hk with hk | hk
        · exact (hdone k hk).assign ha he hset
        · rw [List.mem_singleton.1 hk]
          exact ⟨row.run, u, ha, by rw [hset, if_pos rfl], he⟩
      · rw [List.append_assoc] at h
        exact h
    · exact ih hrest hs hc done hdone

theorem requeueInterrupted_served :
    Op.wp requeueInterrupted s (fun ids t => Revises (.run .requeueInterrupted) (.requeued ids) s t)
      (fun _ t => t = s) := by
  simp only [requeueInterrupted, Op.wp_bind, Op.wp_atomically, Op.wp_gets]
  exact Op.wp_mono (requeueRows_served s.runs.rows (fun _ hr => run_of_mem hr) (.same rfl) id []
    (fun k hk => absurd hk List.not_mem_nil)) (fun ids t h => h) (fun _ _ _ => trivial)

theorem serveRun_served (c : RunCommand) :
    Op.wp (serveRun c) s (fun reply t => Revises (.run c) reply s t) (fun _ t => t = s) := by
  cases c <;> simp only [serveRun, Op.wp_bind, Op.wp_pure]
  · exact createRun_served _ _
  · exact updateRun_served _
  · exact transitionRun_served _
  · exact claimRun_served _
  · exact claimNextQueued_served
  · exact requeueInterrupted_served

end Runs

section Audit
variable {s : Audit}

theorem quarantine_runs (r : QuarantineRequest) :
    Op.wp (quarantine r) s
      (fun u t => Revises (.attempt (.quarantine r)) (.attempts u) s.toRunLog t.toRunLog) (fun _ t => t = s) := by
  simp only [quarantine, Op.wp_bind, Op.wp_lift, Op.wp_atomically, Op.wp_gets]
  refine ⟨fun pending _ => ⟨fun _ _ => ⟨fun _ _ => ?_, fun _ _ => trivial⟩, fun _ _ => trivial⟩,
    fun _ _ => trivial⟩
  split
  · trivial
  · rename_i run hrun
    simp only [Op.wp_bind, Op.wp_lift, Op.wp_gets, ensure_ok_iff]
    refine ⟨fun _ hrev => ⟨fun _ hst => ?_, fun _ _ => trivial⟩, fun _ _ => trivial⟩
    refine Op.wp_mono isolate_served (fun uncertain t h => ?_) (fun _ _ h => h.elim)
    split
    · exact .same (congrArg (·.runs) h.2.2) trivial
    · rename_i hsome
      simp only [Op.wp_bind, Op.wp_lift, onRuns, Op.wp_zoom, Op.wp_modify, Op.wp_pure]
      refine ⟨fun u hu => wp_updateRow (fun _ _ _ => ?_) trivial, fun _ _ => trivial⟩
      have normal : Normal u := by rw [(nextRun_ok hu).2]; exact normal_stored _ _
      rw [h.2.2]
      refine .one hrun (.quarantine hrev hst hu) normal rfl (fun h => ?_)
      cases uncertain with
      | nil => exact absurd rfl hsome
      | cons _ _ => exact h.1

theorem serveAttempt_runs (c : AttemptCommand) :
    Op.wp (serveAttempt c) s (fun reply t => Revises (.attempt c) reply s.toRunLog t.toRunLog)
      (fun _ t => t = s) := by
  have same {reply : Reply} {t : Audit} (h : Served c s t) (hc : ∀ r, c ≠ .quarantine r) :
      Revises (.attempt c) reply s.toRunLog t.toRunLog := by
    refine .same (h.runs hc) ?_
    cases c <;> first | trivial | exact absurd rfl (hc _)
  cases c with
  | quarantine r =>
    simp only [serveAttempt, Op.wp_bind, Op.wp_pure]
    exact quarantine_runs r
  | _ => exact Op.wp_mono (serveAttempt_served _) (fun _ _ h => same h (fun _ h => (by cases h))) (fun _ _ h => h)

theorem insertCaseRows_runs (rows : List CaseRow) :
    Op.wp (insertCaseRows rows) s (fun _ t => t.toRunLog = s.toRunLog) (fun _ _ => True) := by
  induction rows generalizing s with
  | nil => rfl
  | cons row rest ih =>
    simp only [insertCaseRows, Op.wp_bind, Op.wp_gets, Op.wp_lift, Op.wp_modify]
    exact ⟨fun _ _ => ih, fun _ _ => trivial⟩

theorem append_runs (r : AppendRequest) :
    Op.wp (append r) s (fun p t => Revises (.append r) (.appended p) s.toRunLog t.toRunLog) (fun _ t => t = s) := by
  simp only [append, Op.wp_bind, Op.wp_lift, Op.wp_atomically]
  refine ⟨fun prepared hprepared => ?_, fun _ _ => trivial⟩
  have expected := prepareAppend_expected hprepared
  refine Op.wp_mono (appendTarget_found r prepared.stored.id) ?_ (fun _ _ _ => trivial)
  rintro updated t ⟨rfl, htarget⟩
  refine Op.wp_mono (insertCaseRows_runs r.caseRows) (fun _ t' hlog => ?_) (fun _ _ _ => trivial)
  simp only [insertPass, Op.wp_mapErr, Op.wp_bind, Op.wp_gets, Op.wp_lift, Op.wp_modify, onRuns, Op.wp_zoom,
    Op.wp_pure]
  refine ⟨fun _ _ => ⟨fun rows _ => ?_, fun _ _ => trivial⟩, fun _ _ => trivial⟩
  rcases htarget with ⟨rfl, hnone⟩ | ⟨a, u, rfl, ha, hrev, hst, hu⟩
  · refine .same (congrArg (·.runs) hlog) (fun hsome => absurd ?_ hsome)
    exact hnone.elim id expected.2
  · refine wp_updateRow (fun _ _ _ => ?_) trivial
    have normal : Normal u := by rw [(nextRun_ok hu).2]; exact normal_stored _ _
    refine .one ha (.append hrev hst hu) normal ?_ (fun h _ => h.1)
    rw [hlog]

end Audit

/-- A publication moves the subject run on from the row it found. -/
theorem movedRuns_served {r : PublishRequest} {j : StoredJob} {s log : RunLog}
    (h : movedRuns r j s = some log) :
    (RunsMoved (.publish r) s.run log.run ∧
      (j.1.ownerKind = .subject → Revised (.publish r) j.1.runId s.run log.run)) ∧ (Columns s → Columns log) := by
  unfold movedRuns at h
  split at h
  · rename_i hk
    cases h
    exact ⟨⟨.same rfl, fun hs => nomatch hk.symm.trans hs⟩, id⟩
  · split at h
    · cases h
    · rename_i row hrow
      split at h
      · rename_i hcheck
        cases h
        have ha : s.run j.1.runId = some row.run := by rw [RunLog.run, hrow]; rfl
        have hset (k : String) : (setRun j.1.runId (advancedRun r row.payload row.revision) s).run k =
            if k = j.1.runId then some {advancedRun r row.run row.run.revision with
              schemaVersion := if row.revision + 1 = 0 then 1 else 2} else s.run k := by
          simp only [RunLog.run, setRun, Table.get_set]
          split <;> rfl
        have he : RunEdit (.publish r) j.1.runId row.run {advancedRun r row.run row.run.revision with
            schemaVersion := if row.revision + 1 = 0 then 1 else 2} := .publish hcheck.1 hcheck.2
        exact ⟨⟨.one ha he hset, fun _ => (Revised.one ha he hset).1⟩, fun hc => hc.setRun _ _⟩
      · cases h

/-- Every answered request moves the runs by edits, and a request that raises leaves the database. -/
theorem serve_runs (q : Request) (s : Database) :
    Op.wp (serve q) s (fun reply t => Revises q reply s.toRunLog t.toRunLog)
      (fun _ t => t.toRunLog = s.toRunLog ∧ ((∀ c, q ≠ .job c) → t = s)) := by
  cases q with
  | run c =>
    simp only [serve, onAudit, onRuns, Op.wp_zoom]
    exact Op.wp_mono (serveRun_served c) (fun _ _ h => h) (fun _ _ h => by rw [h]; exact ⟨rfl, fun _ => rfl⟩)
  | attempt c =>
    simp only [serve, onAudit, Op.wp_zoom]
    exact Op.wp_mono (serveAttempt_runs c) (fun _ _ h => h) (fun _ _ h => by rw [h]; exact ⟨rfl, fun _ => rfl⟩)
  | append r =>
    simp only [serve, onAudit, Op.wp_zoom, Op.wp_bind, Op.wp_pure]
    exact Op.wp_mono (append_runs r) (fun _ _ h => h) (fun _ _ h => by rw [h]; exact ⟨rfl, fun _ => rfl⟩)
  | job c =>
    simp only [serve, onJobs, Op.wp_zoom, Op.wp_bind, Op.wp_pure]
    exact Op.wp_always (fun _ _ => .same rfl trivial) (fun _ _ => ⟨trivial, fun h => absurd rfl (h c)⟩)
  | publish r =>
    simp only [serve, Op.wp_bind, Op.wp_pure]
    refine Op.wp_mono (publish_spec r s) (fun reply t h => ?_) (fun _ _ h => by rw [h]; exact ⟨rfl, fun _ => rfl⟩)
    rcases h with ⟨-, j, u, hreply, hp⟩ | ⟨hnone, rfl, -⟩
    · obtain ⟨_, _, log, _, _, _, hlog, _, rfl⟩ := hp.state
      obtain ⟨⟨moved, revised⟩, columns⟩ := movedRuns_served hlog
      refine ⟨⟨moved, fun _ hsubject => ?_⟩, columns⟩
      rw [hreply, hp.toPublishes.record] at hsubject ⊢
      exact revised hsubject
    · exact .same rfl (fun h => (by cases hnone.symm.trans h))

end Sqlite

/-! ### The in-memory store -/

namespace Memory

theorem run_setRun (s : RunLog) (key : String) (u : Run) (k : String) :
    (setRun key u s).run k = if k = key then some u else s.run k := Table.get_set _ _ _ _

section Runs
variable {s : RunLog}

/-- A run is stored under the id it carries, after the event. -/
theorem wp_publishRun {u : Run} {runId : String} {pending : Option Event} {ok : Run → RunLog → Prop}
    {err : Err → RunLog → Prop} :
    Op.wp (publishRun u runId pending) s ok err ↔ ok u (setRun u.id u (record runId pending s)) := by
  simp only [publishRun, Op.wp_bind, Op.wp_modify, Op.wp_pure]

/-- A run that is published under its own key was rewritten there. -/
theorem published_served {q : Request} {reply : Reply} {key runId : String} {a u : Run} {pending : Option Event}
    (ha : s.run key = some a) (he : RunEdit q key a u) (hid : u.id = key)
    (wrote : Revised q key s.run (setRun u.id u (record runId pending s)).run ∧
      (setRun u.id u (record runId pending s)).run key = some u →
      Wrote s.run (setRun u.id u (record runId pending s)).run q reply) :
    RunsServed q reply s.run (setRun u.id u (record runId pending s)).run := by
  refine .one ha he (fun k => ?_) wrote
  rw [run_setRun, hid]
  rfl

theorem createRun_served (run : RunInput) (event : Option Event) :
    Op.wp (createRun run event) s (fun u t => RunsServed (.run (.create run event)) (.run (some u)) s.run t.run)
      (fun _ t => t = s) := by
  simp only [createRun, Op.wp_bind, Op.wp_lift, Op.wp_gets, wp_publishRun]
  refine ⟨fun u hu => ⟨fun pending _ => ⟨fun _ hnew => ?_, fun _ _ => trivial⟩, fun _ _ => trivial⟩,
    fun _ _ => trivial⟩
  obtain ⟨-, rfl⟩ := newRun_ok hu
  rw [ensure_ok_iff, Option.isNone_iff_eq_none] at hnew
  obtain ⟨moved, wrote⟩ := RunsMoved.created run event hnew rfl
    (run_setRun (record (run.stored 1).id pending s) _ (run.stored 1))
  exact ⟨moved, wrote⟩

theorem updateRun_served (r : RunUpdateRequest) :
    Op.wp (updateRun r) s (fun u t => RunsServed (.run (.update r)) (.run (some u)) s.run t.run)
      (fun _ t => t = s) := by
  simp only [updateRun, Op.wp_bind, Op.wp_lift, Op.wp_gets]
  refine ⟨fun pending _ => ?_, fun _ _ => trivial⟩
  split
  · rfl
  · rename_i previous hprev
    simp only [Op.wp_bind, Op.wp_lift, wp_publishRun]
    refine ⟨fun u hu => published_served hprev (.update hu) ?_ id, fun _ _ => trivial⟩
    rw [(updateRun_ok hu).2]
    rfl

theorem transitionRun_served (keyed : KeyedRuns s.run) (r : RunTransitionRequest) :
    Op.wp (transitionRun r) s (fun u t => RunsServed (.run (.transition r)) (.run (some u)) s.run t.run)
      (fun _ t => t = s) := by
  simp only [transitionRun, Op.wp_bind, Op.wp_lift, Op.wp_gets]
  refine ⟨fun pending _ => ⟨fun _ _ => ?_, fun _ _ => trivial⟩, fun _ _ => trivial⟩
  split
  · rfl
  · rename_i previous hprev
    simp only [Op.wp_bind, Op.wp_lift, wp_publishRun]
    refine ⟨fun u hu => published_served hprev (.transition hu) ?_ id, fun _ _ => trivial⟩
    rw [(transitionRun_ok hu).2.2]
    exact (keyed _ _ hprev).1

theorem claimRun_served (keyed : KeyedRuns s.run) (runId : String) :
    Op.wp (claimRun runId) s (fun u t => RunsServed (.run (.claim runId)) (.run u) s.run t.run)
      (fun _ t => t = s) := by
  simp only [claimRun, Op.wp_bind, Op.wp_gets]
  split
  · exact ⟨.same rfl, trivial⟩
  · rename_i previous hprev
    simp only [Op.wp_bind, Op.wp_lift, wp_publishRun, Op.wp_pure]
    refine ⟨fun u hu => published_served hprev (.claim hu) ?_ id, fun _ _ => trivial⟩
    rw [(claimRun_ok hu).2]
    exact (keyed _ _ hprev).1

theorem claimNextQueued_served (keyed : KeyedRuns s.run) :
    Op.wp claimNextQueued s (fun u t => RunsServed (.run .claimNextQueued) (.run u) s.run t.run)
      (fun _ t => t = s) := by
  simp only [claimNextQueued, Op.wp_bind, Op.wp_gets]
  split
  · exact ⟨.same rfl, trivial⟩
  · rename_i runId previous hrow
    have hprev : s.run runId = some previous := Table.get_of_mem (List.mem_of_find?_eq_some hrow)
    simp only [Op.wp_bind, Op.wp_lift, wp_publishRun, Op.wp_pure]
    refine ⟨fun u hu => published_served hprev (.claimNext hu) ?_ (fun h => ⟨runId, h⟩), fun _ _ => trivial⟩
    rw [(claimRun_ok hu).2]
    exact (keyed _ _ hprev).1

/-- Requeueing a run whose revision is not negative does not raise. -/
theorem requeueRun_of_nonneg {a : Run} (h : 0 ≤ a.revision) :
    requeueRun a = .ok (storedRun {a with status := some "queued"} (a.revision + 1)) := by
  simp [requeueRun, nextRun, Run.input, RunInput.stored, storedRun, ensure, h, bind, Except.bind, pure, Except.pure]

theorem requeueRows_served {s₀ : RunLog} (rows : List (String × Run))
    (hrows : ∀ r ∈ rows, s₀.run r.1 = some r.2 ∧ 0 ≤ r.2.revision)
    (hs : RunsMoved (.run .requeueInterrupted) s₀.run s.run) (done : List String)
    (hdone : ∀ k ∈ done, Revised (.run .requeueInterrupted) k s₀.run s.run) :
    Op.wp (requeueRows rows) s
      (fun ids t => RunsServed (.run .requeueInterrupted) (.requeued (done ++ ids)) s₀.run t.run)
      (fun _ _ => False) := by
  induction rows generalizing s done with
  | nil => exact ⟨hs, fun k hk => hdone k (by simpa using hk)⟩
  | cons r rest ih =>
    obtain ⟨runId, previous⟩ := r
    obtain ⟨ha, hpos⟩ := hrows (runId, previous) (List.mem_cons_self ..)
    have hrest : ∀ r ∈ rest, s₀.run r.1 = some r.2 ∧ 0 ≤ r.2.revision :=
      fun r hr => hrows r (List.mem_cons_of_mem _ hr)
    unfold requeueRows
    split
    · simp only [Op.wp_bind, Op.wp_lift, Op.wp_modify, Op.wp_pure]
      refine ⟨fun u hu => ?_, fun e he => ?_⟩
      · have he : RunEdit (.run .requeueInterrupted) runId previous u := .requeue hu
        have hset := run_setRun s runId u
        refine Op.wp_mono (ih hrest (hs.assign ha he hset) (done ++ [runId]) (fun k hk => ?_))
          (fun ids t h => ?_) (fun _ _ h => h)
        · rcases List.mem_append.1 hk with hk | hk
          · exact (hdone k hk).assign ha he hset
          · rw [List.mem_singleton.1 hk]
            exact ⟨previous, u, ha, by rw [hset, if_pos rfl], he⟩
        · rw [List.append_assoc] at h
          exact h
      · rw [requeueRun_of_nonneg hpos] at he
        cases he
    · exact ih hrest hs done hdone

theorem requeueInterrupted_served (keyed : KeyedRuns s.run) :
    Op.wp requeueInterrupted s (fun ids t => RunsServed (.run .requeueInterrupted) (.requeued ids) s.run t.run)
      (fun _ t => t = s) := by
  simp only [requeueInterrupted, Op.wp_bind, Op.wp_gets]
  refine Op.wp_mono (requeueRows_served s.runs.rows (fun r hr => ?_) (.same rfl) []
    (fun k hk => absurd hk List.not_mem_nil)) (fun ids t h => h) (fun _ _ h => h.elim)
  have hget : s.run r.1 = some r.2 := Table.get_of_mem hr
  exact ⟨hget, (keyed _ _ hget).2⟩

theorem serveRun_served (keyed : KeyedRuns s.run) (c : RunCommand) :
    Op.wp (serveRun c) s (fun reply t => RunsServed (.run c) reply s.run t.run) (fun _ t => t = s) := by
  cases c <;> simp only [serveRun, Op.wp_bind, Op.wp_pure]
  · exact createRun_served _ _
  · exact updateRun_served _
  · exact transitionRun_served keyed _
  · exact claimRun_served keyed _
  · exact claimNextQueued_served keyed
  · exact requeueInterrupted_served keyed

end Runs

section Audit
variable {s : Audit}

theorem transitionRun_quarantines {s : RunLog} (keyed : KeyedRuns s.run) {r : QuarantineRequest}
    {pending : Option Event} (uncertain : List Attempt) :
    Op.wp (transitionRun {
        runId := r.runId
        expectedRevision := r.expectedRunRevision
        expectedStatus := r.expectedRunStatus
        status := "needs_review"
        changes := r.changes
        event := pending }) s
      (fun _ t => RunsServed (.attempt (.quarantine r)) (.attempts uncertain) s.run t.run) (fun _ t => t = s) := by
  simp only [transitionRun, Op.wp_bind, Op.wp_lift, Op.wp_gets]
  refine ⟨fun _ _ => ⟨fun _ _ => ?_, fun _ _ => trivial⟩, fun _ _ => trivial⟩
  split
  · rfl
  · rename_i previous hprev
    simp only [Op.wp_bind, Op.wp_lift, wp_publishRun]
    refine ⟨fun u hu => ?_, fun _ _ => trivial⟩
    have hid : u.id = r.runId := by
      rw [(transitionRun_ok hu).2.2]
      exact (keyed _ _ hprev).1
    simp only [Storage.transitionRun, except_bind_ok_iff, ensure_ok_iff, exists_const] at hu
    obtain ⟨hrev, hst, hu⟩ := hu
    refine published_served hprev (.quarantine hrev hst hu) hid (fun h => ?_)
    cases uncertain with
    | nil => trivial
    | cons _ _ => exact h.1

theorem quarantine_runs (keyed : KeyedRuns s.run) (r : QuarantineRequest) :
    Op.wp (quarantine r) s (fun u t => RunsServed (.attempt (.quarantine r)) (.attempts u) s.run t.run)
      (fun _ t => t = s) := by
  simp only [quarantine, Op.wp_bind, Op.wp_lift, Op.wp_gets]
  refine ⟨fun pending _ => ⟨fun _ _ => ?_, fun _ _ => trivial⟩, fun _ _ => trivial⟩
  split
  · rfl
  · simp only [Op.wp_bind, Op.wp_lift, Op.wp_gets]
    refine ⟨fun _ _ => ⟨fun _ _ => ⟨fun changed _ => ?_, fun _ _ => trivial⟩, fun _ _ => trivial⟩,
      fun _ _ => trivial⟩
    split
    · exact ⟨.same rfl, trivial⟩
    · simp only [Op.wp_bind, Op.wp_modify, Op.wp_pure, onRuns, Op.wp_zoom]
      refine Op.wp_mono (transitionRun_quarantines keyed (changed.map (·.2))) (fun _ t h => ?_) (fun _ _ ht => by rw [ht])
      rw [setAttempts_runs]
      exact h

theorem serveAttempt_runs (keyed : KeyedRuns s.run) (c : AttemptCommand) :
    Op.wp (serveAttempt c) s (fun reply t => RunsServed (.attempt c) reply s.run t.run) (fun _ t => t = s) := by
  have same {reply : Reply} {t : Audit} (h : Served c s t) (hc : ∀ r, c ≠ .quarantine r) :
      RunsServed (.attempt c) reply s.run t.run := by
    refine ⟨.same (by funext k; simp only [RunLog.run, h.runs hc]), ?_⟩
    cases c <;> first | trivial | exact absurd rfl (hc _)
  cases c with
  | quarantine r =>
    simp only [serveAttempt, Op.wp_bind, Op.wp_pure]
    exact quarantine_runs keyed r
  | _ => exact Op.wp_mono (serveAttempt_served _) (fun _ _ h => same h (fun _ h => (by cases h))) (fun _ _ h => h)

/-- Every check of an append that comes before its first write passes. -/
structure AppendReady (r : AppendRequest) (s : Audit) : Prop where
  prepared : ∃ p, prepareAppend r = .ok p ∧ s.passes.get p.stored.id = none ∧
    ∃ updated, appendTarget r p.stored.id (s.run r.runId) = .ok updated
  scored : checkScored r (s.run r.runId) = .ok ()
  closed : r.requireNoOpenAttempts → ∀ a ∈ s.attempts.rows, ¬ (a.2.runId = r.runId ∧ a.2.status.isOpen)

/-- The way an append raises after its first write: its first case row is new, but
a later one is stored already. -/
def AppendFailsLate (r : AppendRequest) (s : Audit) : Prop :=
  AppendReady r s ∧ ∃ first rest, r.caseRows = first :: rest ∧
    s.caseRuns.get (first.runId, first.caseId) = none ∧
    ∃ row ∈ rest, s.caseRuns.get (row.runId, row.caseId) ≠ none

/-- New case rows with distinct keys are all stored. -/
theorem insertCaseRows_fresh (rows : List CaseRow)
    (fresh : ∀ row ∈ rows, s.caseRuns.get (row.runId, row.caseId) = none)
    (distinct : (rows.map (fun row => (row.runId, row.caseId))).Nodup) :
    Op.wp (insertCaseRows rows) s (fun _ t => t.toRunLog = s.toRunLog) (fun _ _ => False) := by
  induction rows generalizing s with
  | nil => rfl
  | cons row rest ih =>
    rw [List.map_cons, List.nodup_cons] at distinct
    simp only [insertCaseRows, Op.wp_bind, Op.wp_gets, Op.wp_lift, Op.wp_modify, ensure_ok_iff, ensure_error_iff]
    refine ⟨fun _ _ => ?_, fun _ h => h.1 (fresh row (List.mem_cons_self ..))⟩
    refine Op.wp_mono (ih (fun row' hrow => ?_) distinct.2) (fun _ _ h => h) (fun _ _ h => h)
    rw [CaseRuns.insert, Table.get_set_ne]
    · exact fresh row' (List.mem_cons_of_mem _ hrow)
    · exact fun he => distinct.1 (he ▸ List.mem_map_of_mem hrow)

/-- An append that is not late stores all its case rows or, if the first is stored already, none. -/
theorem insertCaseRows_served {r : AppendRequest} (ready : AppendReady r s) (ontime : ¬ AppendFailsLate r s) :
    Op.wp (insertCaseRows r.caseRows) s (fun _ t => t.toRunLog = s.toRunLog) (fun _ t => t = s) := by
  obtain ⟨p, hp, -⟩ := ready.prepared
  have distinct := prepareAppend_caseRows hp
  cases hrows : r.caseRows with
  | nil => rfl
  | cons first rest =>
    rw [hrows] at distinct
    by_cases hfirst : s.caseRuns.get (first.runId, first.caseId) = none
    · refine Op.wp_mono (insertCaseRows_fresh _ (fun row hrow => ?_) distinct) (fun _ _ h => h) (fun _ _ h => h.elim)
      rcases List.mem_cons.1 hrow with rfl | hrow
      · exact hfirst
      · by_contra hstored
        exact ontime ⟨ready, first, rest, hrows, hfirst, row, hrow, hstored⟩
    · simp only [insertCaseRows, Op.wp_bind, Op.wp_gets, Op.wp_lift, ensure_ok_iff]
      exact ⟨fun _ h => absurd h hfirst, fun _ _ => trivial⟩

/-- The run an append expects is the one it is computed from. -/
theorem appendTarget_found {r : AppendRequest} {passId : String} {run updated : Option Run}
    (hcheck : checkScored r run = .ok ()) (h : appendTarget r passId run = .ok updated) :
    (updated = none ∧ r.expectedRunRevision = none) ∨ ∃ a u, updated = some u ∧ run = some a ∧
      some a.revision = r.expectedRunRevision ∧ a.status = r.expectedRunStatus ∧
      scoredRun r passId a a.revision = .ok u := by
  unfold checkScored at hcheck
  unfold appendTarget at h
  cases hexp : r.expectedRunRevision with
  | none =>
    rw [hexp] at h
    cases h
    exact .inl ⟨rfl, rfl⟩
  | some revision =>
    rw [hexp] at h hcheck
    cases run with
    | none => cases hcheck
    | some a =>
      simp only [except_bind_ok_iff, except_pure_ok_iff] at h
      simp only [except_bind_ok_iff, ensure_ok_iff, exists_const] at hcheck
      obtain ⟨u, hu, rfl⟩ := h
      obtain ⟨hrev, hst⟩ := hcheck
      refine .inr ⟨a, u, rfl, rfl, congrArg some hrev, ?_, hrev ▸ hu⟩
      split at hst
      · cases hst
      · exact ensure_ok_iff.1 hst

theorem append_runs (r : AppendRequest) (ontime : ¬ AppendFailsLate r s) :
    Op.wp (append r) s (fun p t => RunsServed (.append r) (.appended p) s.run t.run) (fun _ t => t = s) := by
  simp only [append, Op.wp_bind, Op.wp_lift, Op.wp_gets, Op.wp_modify, Op.wp_pure, onRuns, Op.wp_zoom]
  refine ⟨fun p hp => ⟨fun _ hnew => ⟨fun _ hcheck => ⟨fun _ hclosed => ⟨fun updated hupdated => ?_, ?_⟩, ?_⟩, ?_⟩, ?_⟩, ?_⟩
  · rw [ensure_ok_iff] at hclosed
    rw [ensure_ok_iff, Option.isNone_iff_eq_none] at hnew
    refine Op.wp_mono (insertCaseRows_served ⟨⟨p, hp, hnew, updated, hupdated⟩, hcheck, hclosed⟩ ontime)
      (fun _ t hlog => ?_) (fun _ _ h => h)
    rcases appendTarget_found hcheck hupdated with ⟨rfl, hnone⟩ | ⟨a, u, rfl, ha, hrev, hst, hu⟩
    · simp only [storeScored, Op.wp_pure, hlog]
      exact ⟨.same rfl, fun h => absurd hnone h⟩
    · simp only [storeScored, Op.wp_modify, hlog]
      exact .one ha (.append hrev hst hu) (run_setRun s.toRunLog r.runId u) (fun h _ => h.1)
  all_goals exact fun _ _ => trivial

/-- Case rows do not touch the runs, however far their insertion comes. -/
theorem insertCaseRows_log (rows : List CaseRow) :
    Op.wp (insertCaseRows rows) s (fun _ t => t.toRunLog = s.toRunLog) (fun _ t => t.toRunLog = s.toRunLog) := by
  induction rows generalizing s with
  | nil => rfl
  | cons row rest ih =>
    simp only [insertCaseRows, Op.wp_bind, Op.wp_gets, Op.wp_lift, Op.wp_modify]
    exact ⟨fun _ _ => Op.wp_mono ih (fun _ _ h => h) (fun _ _ h => h), fun _ _ => trivial⟩

/-- An append moves the runs by its edit, also one that raises late. -/
theorem append_moves (r : AppendRequest) :
    Op.wp (append r) s (fun _ t => RunsMoved (.append r) s.run t.run) (fun _ t => t.run = s.run) := by
  simp only [append, Op.wp_bind, Op.wp_lift, Op.wp_gets, Op.wp_modify, Op.wp_pure, onRuns, Op.wp_zoom]
  refine ⟨fun p _ => ⟨fun _ _ => ⟨fun _ hcheck => ⟨fun _ _ => ⟨fun updated hupdated => ?_, ?_⟩, ?_⟩, ?_⟩, ?_⟩, ?_⟩
  · refine Op.wp_mono (insertCaseRows_log r.caseRows) (fun _ t hlog => ?_) (fun _ t hlog => by simp only [hlog])
    rcases appendTarget_found hcheck hupdated with ⟨rfl, _⟩ | ⟨a, u, rfl, ha, hrev, hst, hu⟩
    · simp only [storeScored, Op.wp_pure, hlog]
      exact .same rfl
    · simp only [storeScored, Op.wp_modify, hlog]
      exact .one ha (.append hrev hst hu) (run_setRun s.toRunLog r.runId u)
  all_goals exact fun _ _ => trivial

end Audit

theorem movedRuns_served {r : PublishRequest} {j : StoredJob} {s log : RunLog} (h : movedRuns r j s = some log) :
    RunsMoved (.publish r) s.run log.run ∧
      (j.1.ownerKind = .subject → Revised (.publish r) j.1.runId s.run log.run) := by
  unfold movedRuns at h
  split at h
  · rename_i hk
    cases h
    exact ⟨.same rfl, fun hs => nomatch hk.symm.trans hs⟩
  · split at h
    · cases h
    · rename_i a ha
      split at h
      · rename_i hcheck
        cases h
        have he : RunEdit (.publish r) j.1.runId a (advancedRun r a a.revision) := .publish hcheck.1 hcheck.2
        have hset := run_setRun s j.1.runId (advancedRun r a a.revision)
        exact ⟨.one ha he hset, fun _ => (Revised.one ha he hset).1⟩
      · cases h

theorem movedRuns_keyed {r : PublishRequest} {j : StoredJob} {s log : RunLog} (h : movedRuns r j s = some log)
    (keyed : KeyedRuns s.run) (hid : ∀ id ∈ r.runAdvance.id, id = j.1.runId) : KeyedRuns log.run := by
  unfold movedRuns at h
  split at h
  · cases h
    exact keyed
  · split at h
    · cases h
    · rename_i a ha
      split at h
      · cases h
        intro k u hu
        rw [run_setRun] at hu
        split at hu
        · rename_i hk
          cases hu
          obtain ⟨ha, hpos⟩ := keyed _ _ ha
          refine ⟨?_, by simp only [advancedRun]; omega⟩
          rw [hk]
          cases hadv : r.runAdvance.id with
          | none => simpa [advancedRun, hadv] using ha
          | some id => simpa [advancedRun, hadv] using hid id hadv
        · exact keyed k u hu
      · cases h

/-- What the store needs of a request to serve it as one write: an append does not
find a case row taken after it has stored another, and a publication neither
raises after its first write nor names another id for the run. -/
def RunRule (s : Store) (q : Request) : Prop :=
  match q with
  | .append r => ¬ AppendFailsLate r s.toAudit
  | .publish r => ¬ FailsLate r s ∧ ∀ j, Ready r s j → ∀ id ∈ r.runAdvance.id, id = j.1.runId
  | _ => True

/-- Every answered request moves the runs by edits and keeps them under their ids; a
request that raises leaves the store. -/
theorem serve_runs (q : Request) (s : Store) (keyed : KeyedRuns s.run) (rule : RunRule s q) :
    Op.wp (serve q) s (fun reply t => RunsServed q reply s.run t.run ∧ KeyedRuns t.run)
      (fun _ t => t.run = s.run ∧ ((∀ c, q ≠ .job c) → t = s)) := by
  have kept {reply : Reply} {t : RunLog} (hq : ∀ r, q ≠ .publish r) (h : RunsServed q reply s.run t.run) :
      RunsServed q reply s.run t.run ∧ KeyedRuns t.run := ⟨h, keyed.moved h.moved hq⟩
  cases q with
  | run c =>
    simp only [serve, onAudit, onRuns, Op.wp_zoom]
    exact Op.wp_mono (serveRun_served keyed c) (fun _ _ => kept (fun _ h => (by cases h)))
      (fun _ _ h => by rw [h]; exact ⟨rfl, fun _ => rfl⟩)
  | attempt c =>
    simp only [serve, onAudit, Op.wp_zoom]
    exact Op.wp_mono (serveAttempt_runs keyed c) (fun _ _ => kept (fun _ h => (by cases h)))
      (fun _ _ h => by rw [h]; exact ⟨rfl, fun _ => rfl⟩)
  | append r =>
    simp only [serve, onAudit, Op.wp_zoom, Op.wp_bind, Op.wp_pure]
    exact Op.wp_mono (append_runs r rule) (fun _ _ => kept (fun _ h => (by cases h)))
      (fun _ _ h => by rw [h]; exact ⟨rfl, fun _ => rfl⟩)
  | job c =>
    simp only [serve, onJobs, Op.wp_zoom, Op.wp_bind, Op.wp_pure]
    exact Op.wp_always (fun _ _ => ⟨⟨.same rfl, trivial⟩, keyed⟩) (fun _ _ => ⟨trivial, fun h => absurd rfl (h c)⟩)
  | publish r =>
    simp only [serve, Op.wp_bind, Op.wp_pure]
    refine Op.wp_mono (publish_spec r s) (fun reply t h => ?_)
      (fun _ _ h => by rw [publishRaises_same h rule.1]; exact ⟨rfl, fun _ => rfl⟩)
    rcases h with ⟨-, j, u, hreply, hp⟩ | ⟨hnone, rfl, -⟩
    · obtain ⟨log, b, -, ht⟩ := hp.state
      rw [ht]
      obtain ⟨moved, revised⟩ := movedRuns_served b.moved
      have hkeyed : KeyedRuns log.run := movedRuns_keyed b.moved keyed (rule.2 j b.ready)
      refine ⟨⟨moved, fun _ hsubject => ?_⟩, hkeyed⟩
      rw [hreply, b.toPublishes.record] at hsubject ⊢
      exact revised hsubject
    · exact ⟨⟨.same rfl, fun h => (by cases hnone.symm.trans h)⟩, keyed⟩

end Memory

end Motte.Storage
