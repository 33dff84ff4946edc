import Motte.Foundation.Simulation
import Motte.Storage.LedgerAgreement

/-! The SQLite job table mirrors the in-memory one.

The rows of `scoring_jobs` are determined by the dictionary of the in-memory
store: the same payloads in the same order, each with its request key in a column
(`asRows`). From mirrored tables every operation ends the same way in both stores
and leaves mirrored tables, as long as the in-memory store does not raise halfway
and no changes rename a job (`MirrorRule`). -/
namespace Motte.Storage
open Foundation

/-- The SQLite tables that hold what the in-memory store holds. -/
def asRows (m : Ledgers StoredJob) : Ledgers JobRow := ⟨m.jobs.map sqliteJobs.fresh, m.invocations⟩

/-- Every job is stored under its own id. -/
def OwnKeys (m : Ledgers StoredJob) : Prop := ∀ k j, memoryJobs.job m k = some j → j.1.jobId = k

/-- The tables mirror each other, each job under its own id. -/
def MirrorsJobs (l : Ledgers JobRow) (m : Ledgers StoredJob) : Prop := l = asRows m ∧ OwnKeys m

/-! ### Reading and writing mirrored tables -/

section Tables
variable {m : Ledgers StoredJob} {key : String} {j u : StoredJob}

@[simp] theorem job_asRows (m : Ledgers StoredJob) (k : String) :
    sqliteJobs.job (asRows m) k = memoryJobs.job m k := by
  simp only [Backend.job, asRows, Table.get_map, Option.map_map]
  rfl

theorem byRequestKey_asRows (m : Ledgers StoredJob) (k : String) :
    sqliteJobs.byRequestKey (asRows m) k = memoryJobs.byRequestKey m k := by
  simp only [Backend.byRequestKey, asRows, Table.map_rows, List.find?_map, Option.map_map]
  rfl

theorem put_asRows (h : ∀ old, memoryJobs.job m key = some old → u.1.requestKey = old.1.requestKey) :
    sqliteJobs.put key u (asRows m) = asRows (memoryJobs.put key u m) := by
  cases hold : m.jobs.get key with
  | none =>
    simp only [Backend.put, asRows, Table.get_map, hold, Option.map_none, Table.set_map]
    rfl
  | some old =>
    have hrow : sqliteJobs.replace (sqliteJobs.fresh old) u = sqliteJobs.fresh u := by
      simp only [sqliteJobs, h old (by rw [Backend.job, hold]; rfl)]
    simp only [Backend.put, asRows, Table.get_map, hold, Option.map_some, hrow, Table.set_map]
    rfl

theorem put_put (m : Ledgers StoredJob) (key : String) (j u : StoredJob) :
    memoryJobs.put key u (memoryJobs.put key j m) = memoryJobs.put key u m := by
  simp only [Backend.put, memoryJobs, Table.get_set_self]
  cases m.jobs.get key <;> simp only [Table.set_set, id_eq]

theorem OwnKeys.put (h : OwnKeys m) (hid : u.1.jobId = key) : OwnKeys (memoryJobs.put key u m) := by
  intro k j hj
  rw [Backend.job_put] at hj
  split at hj
  · rename_i hk
    cases hj
    exact hid.trans hk.symm
  · exact h k j hj

/-- Replacing a job by one of the same names keeps the tables mirrored. -/
theorem MirrorsJobs.put (own : OwnKeys m) (hj : memoryJobs.job m key = some j) (hid : u.1.jobId = key)
    (hreq : u.1.requestKey = j.1.requestKey) :
    MirrorsJobs (sqliteJobs.put key u (asRows m)) (memoryJobs.put key u m) := by
  refine ⟨put_asRows (fun old hold => ?_), own.put hid⟩
  cases hold.symm.trans hj
  exact hreq

end Tables

/-! ### Statements side by side -/

section Statements
variable {m : Ledgers StoredJob} {l : Ledgers JobRow} {key : String} {j u : StoredJob} {α β : Type}
variable {err : Ledgers JobRow → Ledgers StoredJob → Prop}

/-- Both stores commit; only SQLite rolls back. -/
theorem sim_commit {x : Op (Ledgers JobRow) Err α} {y : Op (Ledgers StoredJob) Err β}
    {ok : α → Ledgers JobRow → β → Ledgers StoredJob → Prop} (h : Op.sim x l y m ok (fun _ m' => err l m')) :
    Op.sim (sqliteJobs.commit x) l (memoryJobs.commit y) m ok err := by
  simp only [Backend.commit, sqliteJobs, memoryJobs, if_true]
  exact Op.sim_atomically h

theorem sim_require {ok : StoredJob → Ledgers JobRow → StoredJob → Ledgers StoredJob → Prop}
    (same : sqliteJobs.job l key = memoryJobs.job m key)
    (found : ∀ j, memoryJobs.job m key = some j → ok j l j m) (lost : err l m) :
    Op.sim (sqliteJobs.require key) l (memoryJobs.require key) m ok err := by
  unfold Backend.require
  refine Op.sim_bind (Op.sim_gets ?_)
  rw [same]
  cases hj : memoryJobs.job m key with
  | none => exact Op.sim_raise lost
  | some j => exact Op.sim_pure (found j hj)

/-- SQLite finds the row it compares with where the in-memory store assigns. -/
theorem sim_write {rev : Int} {st : JobStatus} {ok : Unit → Ledgers JobRow → Unit → Ledgers StoredJob → Prop}
    (hj : sqliteJobs.job l key = some j) (hid : u.1.jobId = key) (hst : j.1.status = st) (hrev : j.1.revision = rev)
    (done : ok () (sqliteJobs.put key u l) () (memoryJobs.put key u m)) :
    Op.sim (sqliteJobs.write key u rev st) l (memoryJobs.write key u rev st) m ok err := by
  have hw : sqliteJobs.write key u rev st l = (.ok (), sqliteJobs.put key u l) := by
    have hm : sqliteJobs.Matches l u rev st := fun _ => ⟨j, by rw [hid]; exact hj, hst, hrev⟩
    have htarget : sqliteJobs.target key u = key := hid
    have hspec : Op.wp (sqliteJobs.write key u rev st) l (fun a l' => (a, l') = ((), sqliteJobs.put key u l))
        (fun _ _ => False) := (Backend.wp_write_of_match hm).2 (by rw [htarget])
    rcases hx : sqliteJobs.write key u rev st l with ⟨e | a, l'⟩
    · rw [Op.wp_of_error hx] at hspec
      exact hspec.elim
    · rw [Op.wp_of_ok hx] at hspec
      cases hspec
      rfl
  exact Op.sim_returns hw rfl done

theorem sim_onInvocations {f : Invocations → Except Err (α × Invocations)}
    {ok : α → Ledgers JobRow → α → Ledgers StoredJob → Prop}
    (hok : ∀ a t, f m.invocations = .ok (a, t) → ok a (asRows {m with invocations := t}) a {m with invocations := t})
    (herr : ∀ e, f m.invocations = .error e → err (asRows m) m) :
    Op.sim (Backend.onInvocations f) (asRows m) (Backend.onInvocations f) m ok err := by
  cases hf : f m.invocations with
  | error e =>
    have hl : Backend.onInvocations f (asRows m) = (.error e, asRows m) := by
      simp only [Backend.onInvocations, asRows, hf]
    have hm : Backend.onInvocations f m = (.error e, m) := by
      simp only [Backend.onInvocations, hf]
    exact Op.sim_raises hl hm (herr e hf)
  | ok p =>
    obtain ⟨a, t⟩ := p
    have hl : Backend.onInvocations f (asRows m) = (.ok a, asRows {m with invocations := t}) := by
      simp only [Backend.onInvocations, asRows, hf]
    have hm : Backend.onInvocations f m = (.ok a, {m with invocations := t}) := by
      simp only [Backend.onInvocations, hf]
    exact Op.sim_returns hl hm (hok a t hf)

/-- Storing an edited job and answering. -/
theorem sim_store {rev : Int} {st : JobStatus} {a : α} (own : OwnKeys m) (hj : memoryJobs.job m key = some j)
    (hid : u.1.jobId = j.1.jobId) (hreq : u.1.requestKey = j.1.requestKey) (hst : j.1.status = st)
    (hrev : j.1.revision = rev) :
    Op.sim (sqliteJobs.write key u rev st >>= fun _ => pure a) (asRows m)
      (memoryJobs.write key u rev st >>= fun _ => pure a) m (fun a l b m' => a = b ∧ MirrorsJobs l m') err := by
  have hkey : u.1.jobId = key := hid.trans (own key j hj)
  refine Op.sim_bind (sim_write (j := j) ?_ hkey hst hrev (Op.sim_pure ⟨rfl, .put own hj hkey hreq⟩))
  rw [job_asRows]
  exact hj

end Statements

/-! ### What the rule asks -/

/-- The changes give the job no other id and no other request key. -/
def KeepsNames (c : JobChanges) (j : StoredJob) : Prop :=
  (∀ id ∈ c.jobId, id = j.1.jobId) ∧ ∀ key ∈ c.requestKey, key = j.1.requestKey

/-- Each call in the given status has an invocation of its own, in that status and
at the revision the call recorded. -/
structure Settleable (status : InvocationStatus) (calls : List Call) (t : Invocations) : Prop where
  distinct : ((calls.filter (fun c => c.status = status)).map (·.invocationId)).Nodup
  matched : ∀ c ∈ calls, c.status = status → ∃ i, t.get c.invocationId = some i ∧
    i.1.revision = c.invocationRevision ∧ i.1.status = status

/-- The calls of the jobs that are under way. -/
def underWay (rows : List (String × StoredJob)) : List Call :=
  rows.flatMap (fun r => if r.2.1.status = .dispatching then r.2.1.calls else [])

/-- What a command must not run into: changes that rename the job, and an exception
after the in-memory store has begun to write. -/
def MirrorRule (m : Ledgers StoredJob) : JobCommand → Prop
  | .transition r => ∀ j, memoryJobs.job m r.jobId = some j → KeepsNames r.changes j
  | .beginCall r => ∀ status ∈ r.invocation.status, status = .prepared
  | .settleCall r => ∀ j target, memoryJobs.job m r.jobId = some j → settleTarget r j = .ok target →
      KeepsNames r.jobChanges j ∧ ∃ u, settleRecord r j = .ok u
  | .cancel r => ∀ j, memoryJobs.job m r.jobId = some j → j.1.status = .queued ∨ j.1.status = .prepared →
      Settleable .prepared j.1.calls m.invocations
  | .recoverInterrupted _ => Settleable .dispatching (underWay m.jobs.rows) m.invocations
  | _ => True

theorem KeepsNames.apply {c : JobChanges} {j : StoredJob} (h : KeepsNames c j) (record : ScoringJob)
    (hid : record.jobId = j.1.jobId) (hreq : record.requestKey = j.1.requestKey) :
    (c.apply record).jobId = j.1.jobId ∧ (c.apply record).requestKey = j.1.requestKey := by
  constructor
  · cases hc : c.jobId with
    | none => simpa [JobChanges.apply, hc] using hid
    | some id => simpa [JobChanges.apply, hc] using h.1 id hc
  · cases hc : c.requestKey with
    | none => simpa [JobChanges.apply, hc] using hreq
    | some key => simpa [JobChanges.apply, hc] using h.2 key hc

/-- An edit without changes keeps the names of the job. -/
theorem JobEdit.names {q : Request} {key : String} {j u : StoredJob} (h : JobEdit q key j u)
    (hq : q.changes = none) : u.1.jobId = j.1.jobId ∧ u.1.requestKey = j.1.requestKey := by
  have hkeeps := h.keeps (f := fun j => (j.jobId, j.requestKey)) (fun _ _ _ _ _ _ _ _ _ _ => rfl)
    (fun c hc => by rw [hq] at hc; cases hc)
  simpa using hkeeps

/-! ### The operations -/

section Operations
variable {m : Ledgers StoredJob}

/-- Both stores answer alike and leave mirrored tables, or both raise and do. -/
abbrev Alike {α : Type} (x : Op (Ledgers JobRow) Err α) (y : Op (Ledgers StoredJob) Err α)
    (m : Ledgers StoredJob) : Prop :=
  Op.sim x (asRows m) y m (fun a l b m' => a = b ∧ MirrorsJobs l m') MirrorsJobs

theorem submit_alike (own : OwnKeys m) (record : ScoringJob) :
    Alike (sqliteJobs.submit record) (memoryJobs.submit record) m := by
  refine Op.sim_bind (Op.sim_lift (fun stored _ => ?_) (fun _ _ => ⟨rfl, own⟩))
  refine sim_commit (Op.sim_bind (Op.sim_gets ?_))
  rw [byRequestKey_asRows]
  cases memoryJobs.byRequestKey m stored.1.requestKey with
  | some current => exact Op.sim_bind (Op.sim_lift (fun _ _ => Op.sim_pure ⟨rfl, rfl, own⟩) (fun _ _ => ⟨rfl, own⟩))
  | none =>
    refine Op.sim_bind (Op.sim_gets ?_)
    rw [job_asRows]
    refine Op.sim_bind (Op.sim_lift (fun _ hnew => ?_) (fun _ _ => ⟨rfl, own⟩))
    rw [ensure_ok_iff] at hnew
    refine Op.sim_bind (Op.sim_modify (Op.sim_pure ⟨rfl, put_asRows (fun old hold => ?_), own.put rfl⟩))
    cases hnew.symm.trans hold

theorem claim_alike (own : OwnKeys m) (key : String) (now : Timestamp) :
    Alike (sqliteJobs.claim key now) (memoryJobs.claim key now) m := by
  refine sim_commit (Op.sim_bind (Op.sim_gets ?_))
  rw [job_asRows]
  cases hj : memoryJobs.job m key with
  | none => exact Op.sim_pure ⟨rfl, rfl, own⟩
  | some j =>
    refine Op.sim_bind (Op.sim_lift (fun claimed hc => ?_) (fun _ _ => ⟨rfl, own⟩))
    cases claimed with
    | none => exact Op.sim_pure ⟨rfl, rfl, own⟩
    | some u =>
      have he : JobEdit (.job (.claim key now)) key j u := .claim hc
      obtain ⟨hid, hreq⟩ := he.names rfl
      exact sim_store own hj hid hreq rfl rfl

/-- The first row in a status is claimed under its key, which is its id. -/
theorem firstWith_asRows (own : OwnKeys m) (status : JobStatus) :
    sqliteJobs.firstWith status (asRows m) = memoryJobs.firstWith status m := by
  simp only [Backend.firstWith, asRows, Table.map_rows, List.find?_map, Option.map_map]
  refine Option.map_congr (fun r hr => ?_)
  exact (own r.1 r.2 (by rw [Backend.job, Table.get_of_mem (List.mem_of_find?_eq_some hr)]; rfl)).symm

theorem claimFirst_alike (own : OwnKeys m) (status : JobStatus) (now : Timestamp) :
    Alike (sqliteJobs.claimFirst status now) (memoryJobs.claimFirst status now) m := by
  refine Op.sim_bind (Op.sim_gets ?_)
  rw [firstWith_asRows own]
  cases memoryJobs.firstWith status m with
  | none => exact Op.sim_pure ⟨rfl, rfl, own⟩
  | some key => exact claim_alike own key now

theorem claimNext_alike (own : OwnKeys m) (now : Timestamp) :
    Alike (sqliteJobs.claimNext now) (memoryJobs.claimNext now) m := by
  refine Op.sim_bind (Op.sim_mono (claimFirst_alike own .queued now) ?_ (fun _ _ h => h))
  rintro claimed _ _ m' ⟨rfl, rfl, own'⟩
  cases claimed with
  | some j => exact Op.sim_pure ⟨rfl, rfl, own'⟩
  | none => exact claimFirst_alike own' .settled now

theorem transition_alike (own : OwnKeys m) (r : TransitionRequest) (rule : MirrorRule m (.transition r)) :
    Alike (sqliteJobs.transition r) (memoryJobs.transition r) m := by
  refine sim_commit (Op.sim_bind (sim_require (job_asRows ..) (fun j hj => ?_) ⟨rfl, own⟩))
  refine Op.sim_bind (Op.sim_lift (fun u hu => ?_) (fun _ _ => ⟨rfl, own⟩))
  obtain ⟨hrev, hst, -, hrecord⟩ := transitionRecord_ok hu
  obtain ⟨hid, hreq⟩ := (rule j hj).apply j.1 rfl rfl
  exact sim_store own hj (by rw [hrecord]; exact hid) (by rw [hrecord]; exact hreq) hst hrev

/-- An invocation that was created prepared is dispatched at once. -/
theorem dispatch_created {t t' : Invocations} {r : InvocationRecord} {created : StoredInvocation}
    (h : t.create r = .ok (created, t')) (hst : ∀ status ∈ r.status, status = .prepared) (fields : Fields) :
    ∃ dispatched t'', t'.transition created.1.id created.1.revision .prepared .dispatching
      {fields} = .ok (dispatched, t'') := by
  obtain ⟨-, rfl, hid, hstatus, -⟩ := Invocations.create_ok h
  have hprepared : created.1.status = .prepared := by
    rw [hstatus]
    cases hs : r.status with
    | none => rfl
    | some status => exact hst status hs
  have hvalid : validateInvocation ((⟨none, none, none, fields⟩ : InvocationChanges).apply created.1.toInvocationBody)
      .dispatching (some created.1.owner) = .ok created.1.owner := by
    have hv : created.1.Valid := created.2
    rw [Invocation.Valid, hprepared, validateInvocation_ok_iff] at hv
    obtain ⟨hc, ho, hj, hn⟩ := hv
    refine validateInvocation_ok_iff.2 ⟨?_, ?_, hj, hn⟩
    · simp only [checkContract, except_bind_ok_iff, ensure_ok_iff, exists_const] at hc ⊢
      obtain ⟨h1, h2, h3, h4, _, _, h7, h8, h9⟩ := hc
      exact ⟨h1, h2, h3, h4, (fun h => nomatch h), (fun h => nomatch h), fun _ => h7 (by decide), h8, h9⟩
    · cases hi : created.1.owner <;> rw [hi] at ho <;> exact ho
  obtain ⟨dispatched, hd⟩ := storeInvocation_of_valid hvalid (created.1.revision + 1)
  refine ⟨dispatched, (t.set r.id created).set r.id dispatched, ?_⟩
  rw [Invocations.transition, hid, Table.get_set_self]
  simp only [except_bind_ok_iff, ensure_ok_iff, except_pure_ok_iff, exists_const]
  exact ⟨⟨trivial, hprepared⟩, by decide, dispatched, hd, rfl⟩

theorem beginCall_alike (own : OwnKeys m) (r : BeginCallRequest) (rule : MirrorRule m (.beginCall r)) :
    Alike (sqliteJobs.beginCall r) (memoryJobs.beginCall r) m := by
  refine sim_commit (Op.sim_bind (sim_require (job_asRows ..) (fun j hj => ?_) ⟨rfl, own⟩))
  refine Op.sim_bind (Op.sim_lift (fun _ hc => ?_) (fun _ _ => ⟨rfl, own⟩))
  refine Op.sim_bind (sim_onInvocations (fun created t hcreate => ?_) (fun _ _ => ⟨rfl, own⟩))
  obtain ⟨dispatched, t', hd⟩ := dispatch_created hcreate rule ((∅ : Fields).insert "dispatched_at" (.str r.now))
  refine Op.sim_bind (sim_onInvocations (fun d t'' _ => ?_) (fun e he => ?_))
  · refine Op.sim_bind (Op.sim_lift (fun u hu => ?_) (fun e he => ?_))
    · have hedit : JobEdit (.job (.beginCall r)) r.jobId j u := .beginCall d.1 hc hu
      obtain ⟨hid, hreq⟩ := hedit.names rfl
      have own' : OwnKeys {m with invocations := t''} := own
      exact sim_store own' hj hid hreq rfl (checkDispatch_ok hc).1
    · obtain ⟨u, hu⟩ := beginRecord_ok d.1 hc
      rw [hu] at he
      cases he
  · rw [hd] at he
    cases he

theorem settleCall_alike (own : OwnKeys m) (r : SettleCallRequest) (rule : MirrorRule m (.settleCall r)) :
    Alike (sqliteJobs.settleCall r) (memoryJobs.settleCall r) m := by
  refine sim_commit (Op.sim_bind (sim_require (job_asRows ..) (fun j hj => ?_) ⟨rfl, own⟩))
  refine Op.sim_bind (Op.sim_lift (fun target ht => ?_) (fun _ _ => ⟨rfl, own⟩))
  obtain ⟨names, u, hu⟩ := rule j target hj ht
  obtain ⟨hrev, hst, -⟩ := settleTarget_ok ht
  refine Op.sim_bind (sim_onInvocations (fun _ t' _ => ?_) (fun _ _ => ⟨rfl, own⟩))
  rw [hu]
  refine Op.sim_bind (Op.sim_lift (fun u' hu' => ?_) (fun e he => nomatch he))
  cases hu'
  obtain ⟨hid, hreq⟩ := names.apply (settledLedger r j.1) rfl rfl
  have own' : OwnKeys {m with invocations := t'} := own
  exact sim_store own' hj (by rw [(settleRecord_ok hu).2]; exact hid) (by rw [(settleRecord_ok hu).2]; exact hreq)
    hst hrev

/-- A sweep that goes through. Only the in-memory store has edited its row by now. -/
theorem sim_sweepCalls {key : String} {w : Sweep} {j : StoredJob} {calls : List Call} {t' : Invocations}
    {ok : StoredJob → Ledgers JobRow → StoredJob → Ledgers StoredJob → Prop}
    {err : Ledgers JobRow → Ledgers StoredJob → Prop}
    (hsweep : sweep w j.1.calls m.invocations = (calls, t', .ok ()))
    (done : ok (j.withCalls calls) (asRows {m with invocations := t'}) (j.withCalls calls)
      (memoryJobs.put key (j.withCalls calls) {m with invocations := t'})) :
    Op.sim (sqliteJobs.sweepCalls key w j) (asRows m) (memoryJobs.sweepCalls key w j) m ok err := by
  have hrows : sweep w j.1.calls (asRows m).invocations = (calls, t', .ok ()) := hsweep
  have hl : sqliteJobs.sweepCalls key w j (asRows m) =
      (.ok (j.withCalls calls), asRows {m with invocations := t'}) := by
    simp only [Backend.sweepCalls, hrows]
    rfl
  have hm : memoryJobs.sweepCalls key w j m =
      (.ok (j.withCalls calls), memoryJobs.put key (j.withCalls calls) {m with invocations := t'}) := by
    simp only [Backend.sweepCalls, hsweep]
    rfl
  exact Op.sim_returns hl hm done

/-- Storing a job whose row the in-memory store has edited already. -/
theorem mirrors_swept {key : String} {j u : StoredJob} {calls : List Call} (own : OwnKeys m)
    (hj : memoryJobs.job m key = some j) (hid : u.1.jobId = j.1.jobId) (hreq : u.1.requestKey = j.1.requestKey) :
    MirrorsJobs (sqliteJobs.put key u (asRows m))
      (memoryJobs.put key u (memoryJobs.put key (j.withCalls calls) m)) := by
  rw [put_put]
  exact .put own hj (hid.trans (own key j hj)) hreq

theorem abandon_alike (own : OwnKeys m) {r : CancelRequest} {j : StoredJob}
    (hj : memoryJobs.job m r.jobId = some j) (hst : j.1.status = .queued ∨ j.1.status = .prepared)
    (settleable : Settleable .prepared j.1.calls m.invocations) :
    Op.sim (sqliteJobs.abandon r j) (asRows m) (memoryJobs.abandon r j) m
      (fun a l b m' => a = b ∧ MirrorsJobs l m') (fun _ m' => MirrorsJobs (asRows m) m') := by
  refine Op.sim_bind (Op.sim_lift (fun _ quiet => ?_) (fun _ _ => ⟨rfl, own⟩))
  obtain ⟨t', hsweep, -⟩ := sweep_settles (w := cancelSweep r)
    (by simp [cancelSweep, InvocationStatus.transitions]) settleable.distinct settleable.matched
  have swept := sweep_swept (cancelSweep r) j.1.calls m.invocations
  rw [hsweep] at swept
  refine Op.sim_bind (sim_sweepCalls hsweep ?_)
  refine Op.sim_bind (Op.sim_lift (fun u hu => ?_) (fun e he => ?_))
  · have hedit : JobEdit (.job (.cancel r)) r.jobId j u := .abandon hst (ensure_ok_iff.1 quiet) swept hu
    obtain ⟨hid, hreq⟩ := hedit.names rfl
    have own' : OwnKeys {m with invocations := t'} := own
    refine Op.sim_bind (sim_write (j := j) ?_ (hid.trans (own r.jobId j hj)) rfl rfl
      (Op.sim_pure ⟨rfl, mirrors_swept own' hj hid hreq⟩))
    rw [job_asRows]
    exact hj
  · obtain ⟨u, hu⟩ := abandonRecord_ok r (j.withCalls (j.1.calls.map (cancelSweep r).apply))
    rw [hu] at he
    cases he

theorem cancel_alike (own : OwnKeys m) (r : CancelRequest) (rule : MirrorRule m (.cancel r)) :
    Alike (sqliteJobs.cancel r) (memoryJobs.cancel r) m := by
  refine sim_commit (Op.sim_bind (sim_require (job_asRows ..) (fun j hj => ?_) ⟨rfl, own⟩))
  have withdrawn (hst : j.1.status = .settled ∨ j.1.status = .failed) :
      Op.sim (sqliteJobs.withdraw r j) (asRows m) (memoryJobs.withdraw r j) m
        (fun a l b m' => a = b ∧ MirrorsJobs l m') (fun _ m' => MirrorsJobs (asRows m) m') := by
    refine Op.sim_bind (Op.sim_lift (fun u hu => ?_) (fun _ _ => ⟨rfl, own⟩))
    have hedit : JobEdit (.job (.cancel r)) r.jobId j u := .withdraw hst hu
    obtain ⟨hid, hreq⟩ := hedit.names rfl
    exact sim_store own hj hid hreq rfl rfl
  cases hst : j.1.status with
  | completed => exact Op.sim_pure ⟨rfl, rfl, own⟩
  | cancelled => exact Op.sim_pure ⟨rfl, rfl, own⟩
  | indeterminate => exact Op.sim_pure ⟨rfl, rfl, own⟩
  | queued => exact abandon_alike own hj (.inl hst) (rule j hj (.inl hst))
  | prepared => exact abandon_alike own hj (.inr hst) (rule j hj (.inr hst))
  | settled => exact withdrawn (.inl hst)
  | failed => exact withdrawn (.inr hst)
  | dispatching =>
    show Op.sim (sqliteJobs.requestCancel r j) _ (memoryJobs.requestCancel r j) _ _ _
    unfold Backend.requestCancel
    split
    · exact Op.sim_pure ⟨rfl, rfl, own⟩
    · refine Op.sim_bind (Op.sim_lift (fun u hu => ?_) (fun _ _ => ⟨rfl, own⟩))
      have hedit : JobEdit (.job (.cancel r)) r.jobId j u := .request hst hu
      obtain ⟨hid, hreq⟩ := hedit.names rfl
      exact sim_store own hj hid hreq rfl rfl

theorem Settleable.left {st : InvocationStatus} {a b : List Call} {t : Invocations}
    (h : Settleable st (a ++ b) t) : Settleable st a t := by
  refine ⟨?_, fun c hc => h.matched c (List.mem_append_left _ hc)⟩
  have hn := h.distinct
  rw [List.filter_append, List.map_append] at hn
  exact hn.of_append_left

/-- Settling the first calls leaves the others settleable. -/
theorem Settleable.rest {st : InvocationStatus} {a b : List Call} {t t' : Invocations}
    (h : Settleable st (a ++ b) t)
    (hframe : ∀ id, (∀ c ∈ a, c.status = st → c.invocationId ≠ id) → t'.get id = t.get id) :
    Settleable st b t' := by
  have hn := h.distinct
  rw [List.filter_append, List.map_append] at hn
  refine ⟨hn.of_append_right, fun c hc hst => ?_⟩
  rw [hframe]
  · exact h.matched c (List.mem_append_right _ hc) hst
  · intro c' hc' hst' he
    have hleft : c'.invocationId ∈ (a.filter (fun c => c.status = st)).map (·.invocationId) :=
      List.mem_map_of_mem (List.mem_filter.2 ⟨hc', by simp [hst']⟩)
    have hright : c.invocationId ∈ (b.filter (fun c => c.status = st)).map (·.invocationId) :=
      List.mem_map_of_mem (List.mem_filter.2 ⟨hc, by simp [hst]⟩)
    exact (List.nodup_append.1 hn).2.2 _ hleft _ hright he

/-- The recovery of one job leaves the other jobs, and the invocations of other calls. -/
structure Recovered (key : String) (j : StoredJob) (m m' : Ledgers StoredJob) : Prop where
  jobs : ∀ k, k ≠ key → memoryJobs.job m' k = memoryJobs.job m k
  invocations : ∀ id, (∀ c ∈ if j.1.status = .dispatching then j.1.calls else [],
    c.status = .dispatching → c.invocationId ≠ id) → m'.invocations.get id = m.invocations.get id

theorem Recovered.refl (key : String) (j : StoredJob) (m : Ledgers StoredJob) : Recovered key j m m :=
  ⟨fun _ _ => rfl, fun _ _ => rfl⟩

theorem recoverOne_alike (own : OwnKeys m) (now : Timestamp) {key : String} {j : StoredJob}
    (hj : memoryJobs.job m key = some j)
    (settleable : Settleable .dispatching (if j.1.status = .dispatching then j.1.calls else []) m.invocations) :
    Op.sim (sqliteJobs.recoverOne now key j) (asRows m) (memoryJobs.recoverOne now key j) m
      (fun a l b m' => a = b ∧ MirrorsJobs l m' ∧ Recovered key j m m') (fun _ _ => False) := by
  unfold Backend.recoverOne
  cases hst : j.1.status with
  | prepared =>
    show Op.sim (if _ then _ else _) _ (if _ then _ else _) _ _ _
    split
    · exact Op.sim_pure ⟨rfl, ⟨rfl, own⟩, .refl key j m⟩
    · rename_i quiet
      refine Op.sim_bind (Op.sim_lift (fun u hu => ?_) (fun e he => ?_))
      · have hedit : JobEdit (.job (.recoverInterrupted now)) key j u := .requeue hst (by simpa using quiet) hu
        obtain ⟨hid, hreq⟩ := hedit.names rfl
        have hkey : u.1.jobId = key := hid.trans (own key j hj)
        refine Op.sim_bind (sim_write (j := j) (by rw [job_asRows]; exact hj) hkey hst rfl
          (Op.sim_pure ⟨congrArg some hkey, .put own hj hkey hreq, fun k hk => ?_, fun _ _ => rfl⟩))
        rw [Backend.job_put, if_neg hk]
      · obtain ⟨u, hu⟩ := requeueRecord_ok now j
        rw [hu] at he
        cases he
  | dispatching =>
    rw [if_pos hst] at settleable
    obtain ⟨t', hsweep, hframe, -⟩ := sweep_settles (w := recoverySweep now)
      (by simp [recoverySweep, InvocationStatus.transitions]) settleable.distinct settleable.matched
    have swept := sweep_swept (recoverySweep now) j.1.calls m.invocations
    rw [hsweep] at swept
    refine Op.sim_bind (sim_sweepCalls hsweep ?_)
    refine Op.sim_bind (Op.sim_lift (fun u hu => ?_) (fun e he => ?_))
    · have hedit : JobEdit (.job (.recoverInterrupted now)) key j u := .interrupt hst swept hu
      obtain ⟨hid, hreq⟩ := hedit.names rfl
      have hkey : u.1.jobId = key := hid.trans (own key j hj)
      have own' : OwnKeys {m with invocations := t'} := own
      refine Op.sim_bind (sim_write (j := j) (by rw [job_asRows]; exact hj) hkey hst rfl
        (Op.sim_pure ⟨congrArg some hkey, mirrors_swept own' hj hid hreq, fun k hk => ?_, fun id hne => ?_⟩))
      · rw [Backend.job_put, if_neg hk, Backend.job_put, if_neg hk]
        rfl
      · rw [if_pos hst] at hne
        exact hframe id hne
    · obtain ⟨u, hu⟩ := interruptRecord_ok now (j.withCalls (j.1.calls.map (recoverySweep now).apply))
      rw [hu] at he
      cases he
  | _ => exact Op.sim_pure ⟨rfl, ⟨rfl, own⟩, .refl key j m⟩

/-- Recovery over rows that are stored as they were read. -/
theorem recoverRows_alike (own : OwnKeys m) (now : Timestamp) (rows : List (String × StoredJob))
    (stored : ∀ r ∈ rows, memoryJobs.job m r.1 = some r.2) (distinct : (rows.map Prod.fst).Nodup)
    (settleable : Settleable .dispatching (underWay rows) m.invocations) :
    Op.sim (sqliteJobs.recoverRows now (rows.map (fun r => (r.1, sqliteJobs.fresh r.2)))) (asRows m)
      (memoryJobs.recoverRows now rows) m (fun a l b m' => a = b ∧ MirrorsJobs l m') (fun _ _ => False) := by
  induction rows generalizing m with
  | nil => exact Op.sim_pure ⟨rfl, rfl, own⟩
  | cons r rest ih =>
    obtain ⟨key, j⟩ := r
    rw [List.map_cons, List.nodup_cons] at distinct
    have settleable' : Settleable .dispatching
        ((if j.1.status = .dispatching then j.1.calls else []) ++ underWay rest) m.invocations := settleable
    refine Op.sim_bind (Op.sim_mono (recoverOne_alike own now (stored (key, j) (List.mem_cons_self ..))
      settleable'.left) ?_ (fun _ _ h => h))
    rintro touched _ _ m' ⟨rfl, ⟨rfl, own'⟩, frame⟩
    have stored' (r : String × StoredJob) (hr : r ∈ rest) : memoryJobs.job m' r.1 = some r.2 := by
      rw [frame.jobs r.1 (fun he => distinct.1 (he ▸ List.mem_map_of_mem hr))]
      exact stored r (List.mem_cons_of_mem _ hr)
    refine Op.sim_bind (Op.sim_mono (ih own' stored' distinct.2 (settleable'.rest frame.invocations)) ?_
      (fun _ _ h => h))
    rintro more _ _ m'' ⟨rfl, mirrors⟩
    exact Op.sim_pure ⟨rfl, mirrors⟩

theorem recoverInterrupted_alike (own : OwnKeys m) (now : Timestamp)
    (rule : MirrorRule m (.recoverInterrupted now)) :
    Alike (sqliteJobs.recoverInterrupted now) (memoryJobs.recoverInterrupted now) m := by
  refine sim_commit (Op.sim_bind (Op.sim_gets ?_))
  refine Op.sim_mono (recoverRows_alike own now m.jobs.rows (fun r hr => ?_) m.jobs.nodup rule) (fun _ _ _ _ h => h)
    (fun _ _ h => h.elim)
  rw [Backend.job, Table.get_of_mem hr]
  rfl

/-- From mirrored tables a command within the rule ends the same way in both stores. -/
theorem serve_alike (own : OwnKeys m) (c : JobCommand) (rule : MirrorRule m c) :
    Alike (sqliteJobs.serve c) (memoryJobs.serve c) m := by
  have answered {α : Type} {x : Op (Ledgers JobRow) Err α} {y : Op (Ledgers StoredJob) Err α}
      {reply : α → JobReply} (h : Alike x y m) :
      Alike (x >>= fun a => pure (reply a)) (y >>= fun a => pure (reply a)) m := by
    refine Op.sim_bind (Op.sim_mono h ?_ (fun _ _ h => h))
    rintro a _ _ m' ⟨rfl, mirrors⟩
    exact Op.sim_pure ⟨rfl, mirrors⟩
  cases c with
  | submit record => exact answered (submit_alike own record)
  | claim key now => exact answered (claim_alike own key now)
  | claimNext now => exact answered (claimNext_alike own now)
  | transition r => exact answered (transition_alike own r rule)
  | beginCall r => exact answered (beginCall_alike own r rule)
  | settleCall r => exact answered (settleCall_alike own r rule)
  | cancel r => exact answered (cancel_alike own r rule)
  | recoverInterrupted now => exact answered (recoverInterrupted_alike own now rule)

end Operations

end Motte.Storage
