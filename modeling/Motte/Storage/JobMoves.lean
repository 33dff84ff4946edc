import Motte.Storage.Request

/-! What one operation can do to the job table.

`JobEdit q key before after` lists every way a request changes the job it finds
under a key, and `Moved` says that a step leaves each key as it was, gives it the
job just submitted, or gives it an edited job. Every invariant of jobs is proved
from `Moved`, never from the operations themselves. -/
namespace Motte.Storage
open Foundation

/-! ### Bulk settlement, call by call -/

/-- Some of the calls that the sweep selects are marked; the rest are as they were. -/
def Swept (w : Sweep) (calls calls' : List Call) : Prop :=
  List.Forall₂ (fun c c' => c' = c ∨ c.status = w.status ∧ c' = w.mark c) calls calls'

theorem Swept.refl (w : Sweep) (calls : List Call) : Swept w calls calls :=
  List.forall₂_same.2 (fun _ _ => .inl rfl)

theorem sweep_swept (w : Sweep) (calls : List Call) (t : Invocations) :
    Swept w calls (sweep w calls t).1 := by
  induction calls generalizing t with
  | nil => exact .nil
  | cons c rest ih =>
    unfold sweep
    split
    · rename_i hs
      split
      · exact Swept.refl w _
      · exact .cons (.inr ⟨hs, rfl⟩) (ih _)
    · exact .cons (.inl rfl) (ih _)

/-! ### Edits of one job -/

/-- The ways a request turns the job under a key into another. -/
inductive JobEdit : Request → String → StoredJob → StoredJob → Prop where
  | claim {key now j u} (h : claimRecord now j = .ok (some u)) : JobEdit (.job (.claim key now)) key j u
  | claimNext {key now j u} (h : claimRecord now j = .ok (some u)) : JobEdit (.job (.claimNext now)) key j u
  | transition {r j u} (h : transitionRecord r j = .ok u) : JobEdit (.job (.transition r)) r.jobId j u
  | beginCall {r j u} (dispatched : Invocation) (hc : checkDispatch r j = .ok ())
      (h : beginRecord r dispatched j = .ok u) : JobEdit (.job (.beginCall r)) r.jobId j u
  | settleCall {r j u} (target : Call) (ht : settleTarget r j = .ok target)
      (h : settleRecord r j = .ok u) : JobEdit (.job (.settleCall r)) r.jobId j u
  | abandon {r j u calls} (hst : j.1.status = .queued ∨ j.1.status = .prepared)
      (quiet : j.1.inFlight = false) (hw : Swept (cancelSweep r) j.1.calls calls)
      (h : abandonRecord r (j.withCalls calls) = .ok u) : JobEdit (.job (.cancel r)) r.jobId j u
  | request {r j u} (hst : j.1.status = .dispatching) (h : requestRecord r j = .ok u) :
      JobEdit (.job (.cancel r)) r.jobId j u
  | withdraw {r j u} (hst : j.1.status = .settled ∨ j.1.status = .failed)
      (h : withdrawRecord r j = .ok u) : JobEdit (.job (.cancel r)) r.jobId j u
  | requeue {key now j u} (hst : j.1.status = .prepared) (quiet : j.1.inFlight = false)
      (h : requeueRecord now j = .ok u) : JobEdit (.job (.recoverInterrupted now)) key j u
  | interrupt {key now j u calls} (hst : j.1.status = .dispatching)
      (hw : Swept (recoverySweep now) j.1.calls calls)
      (h : interruptRecord now (j.withCalls calls) = .ok u) : JobEdit (.job (.recoverInterrupted now)) key j u
  | publish {r j u} (hst : j.1.status = .settled ∨ j.1.status = .prepared)
      (hr : checkReserved r j = .ok ()) (h : completedRecord r j = .ok u) : JobEdit (.publish r) r.jobId j u
  /-- A bulk settlement that raised midway, in a store that keeps what it wrote. -/
  | cancelStopped {r j calls} (hst : j.1.status = .queued ∨ j.1.status = .prepared)
      (quiet : j.1.inFlight = false) (hw : Swept (cancelSweep r) j.1.calls calls) :
      JobEdit (.job (.cancel r)) r.jobId j (j.withCalls calls)
  | recoveryStopped {key now j calls} (hst : j.1.status = .dispatching)
      (hw : Swept (recoverySweep now) j.1.calls calls) :
      JobEdit (.job (.recoverInterrupted now)) key j (j.withCalls calls)

/-- The changes a request merges into the job. -/
def Request.changes : Request → Option JobChanges
  | .job (.transition r) => some r.changes
  | .job (.settleCall r) => some r.jobChanges
  | _ => none

/-- A reading of a job that looks at none of the members operations write. -/
def Frozen {β : Type} (f : ScoringJob → β) : Prop :=
  ∀ (j : ScoringJob) status revision calls result receipt cancellation attempts billedCalls fields,
    f {j with status, revision, calls, result, receipt, cancellation, attempts, billedCalls, fields} = f j

/-- Such a reading is kept by every edit whose changes keep it. -/
theorem JobEdit.keeps {β : Type} {f : ScoringJob → β} (hf : Frozen f) {q : Request} {key : String}
    {j u : StoredJob} (h : JobEdit q key j u) (hq : ∀ c ∈ q.changes, ∀ j, f (c.apply j) = f j) :
    f u.1 = f j.1 := by
  cases h with
  | claim h =>
    rcases claimRecord_ok h with ⟨-, hu⟩ | ⟨-, hu⟩
    · rw [hu]; exact hf j.1 ..
    · rw [hu]; exact hf j.1 ..
  | claimNext h =>
    rcases claimRecord_ok h with ⟨-, hu⟩ | ⟨-, hu⟩
    · rw [hu]; exact hf j.1 ..
    · rw [hu]; exact hf j.1 ..
  | transition h =>
    rw [(transitionRecord_ok h).2.2.2]
    exact (hf (JobChanges.apply _ j.1) ..).trans (hq _ rfl j.1)
  | beginCall _ _ h => rw [nextRevision_ok_iff.1 h]; exact hf j.1 ..
  | settleCall _ _ h =>
    rw [(settleRecord_ok h).2]
    exact (hf (JobChanges.apply _ _) ..).trans ((hq _ rfl _).trans (hf j.1 ..))
  | abandon _ _ _ h => rw [nextRevision_ok_iff.1 h]; exact hf j.1 ..
  | request _ h => rw [nextRevision_ok_iff.1 h]; exact hf j.1 ..
  | withdraw _ h => rw [nextRevision_ok_iff.1 h]; exact hf j.1 ..
  | requeue _ _ h => rw [nextRevision_ok_iff.1 h]; exact hf j.1 ..
  | interrupt _ _ h => rw [nextRevision_ok_iff.1 h]; exact hf j.1 ..
  | publish _ _ h => rw [nextRevision_ok_iff.1 h]; exact hf j.1 ..
  | cancelStopped _ _ _ => exact hf j.1 ..
  | recoveryStopped _ _ => exact hf j.1 ..

/-- The changes, where the request has any, do not name the job id. -/
def KeepsId (q : Request) : Prop := ∀ c ∈ q.changes, c.jobId = none

theorem JobEdit.jobId {q : Request} {key : String} {j u : StoredJob} (h : JobEdit q key j u)
    (hq : KeepsId q) : u.1.jobId = j.1.jobId := by
  refine h.keeps (f := ScoringJob.jobId) (fun _ _ _ _ _ _ _ _ _ _ => rfl) (fun c hc j => ?_)
  simp [JobChanges.apply, hq c hc]

namespace Backend
variable {ρ : Type} {b : Backend ρ} {l l' : Ledgers ρ}

@[simp] theorem job_put (key k : String) (j : StoredJob) :
    b.job (b.put key j l) k = if k = key then some j else b.job l k := by
  unfold job put
  rw [Table.get_set]
  split
  · split
    · rw [Option.map_some, b.payload_replace]
    · rw [Option.map_some, b.payload_fresh]
  · rfl

@[simp] theorem job_setInvocations (t : Invocations) (k : String) :
    b.job {l with invocations := t} k = b.job l k := rfl

@[simp] theorem put_invocations (key : String) (j : StoredJob) :
    (b.put key j l).invocations = l.invocations := rfl

/-! ### Guarantees of the primitives -/

variable (b)

/-- The key a write goes to. -/
def target (key : String) (j : StoredJob) : String := if b.transactional then j.1.jobId else key

/-- A compared write finds the row it expects. -/
def Matches (l : Ledgers ρ) (j : StoredJob) (revision : Int) (status : JobStatus) : Prop :=
  b.transactional = true →
    ∃ row, b.job l j.1.jobId = some row ∧ row.1.status = status ∧ row.1.revision = revision

variable {b}
variable {α : Type} {ok : α → Ledgers ρ → Prop} {err : Err → Ledgers ρ → Prop}

theorem wp_require {key : String} {ok : StoredJob → Ledgers ρ → Prop}
    (found : ∀ j, b.job l key = some j → ok j l)
    (lost : b.job l key = none → err (.scoringJob ("scoring job is missing: " ++ key)) l) :
    Op.wp (b.require key) l ok err := by
  simp only [require, Op.wp_bind, Op.wp_gets]
  split
  · rename_i h
    exact lost h
  · rename_i j h
    exact found j h

theorem wp_write {key : String} {j : StoredJob} {rev : Int} {st : JobStatus}
    {ok : Unit → Ledgers ρ → Prop}
    (done : b.Matches l j rev st → ok () (b.put (b.target key j) j l)) (refused : ∀ e, err e l) :
    Op.wp (b.write key j rev st) l ok err := by
  unfold write target at *
  split
  · rename_i ht
    simp only [Op.wp_bind, Op.wp_gets]
    split
    · exact refused _
    · rename_i row hrow
      simp only [Op.wp_bind, Op.wp_lift, ensure_ok_iff, Op.wp_modify]
      rw [if_pos ht] at done
      exact ⟨fun _ h => done (fun _ => ⟨row, hrow, h⟩), fun e _ => refused e⟩
  · rename_i ht
    rw [if_neg ht] at done
    exact done (fun h => absurd h ht)

/-- A write whose comparison holds succeeds. -/
theorem wp_write_of_match {key : String} {j : StoredJob} {rev : Int} {st : JobStatus}
    {ok : Unit → Ledgers ρ → Prop} (hm : b.Matches l j rev st) :
    Op.wp (b.write key j rev st) l ok err ↔ ok () (b.put (b.target key j) j l) := by
  unfold write target
  split
  · rename_i ht
    obtain ⟨row, hrow, h⟩ := hm ht
    simp only [Op.wp_bind, Op.wp_gets, hrow, Op.wp_lift, Op.wp_modify, ensure_ok_iff, ensure_error_iff]
    exact ⟨fun hw => hw.1 () h, fun hok => ⟨fun _ _ => hok, fun _ he => absurd h he.1⟩⟩
  · exact Iff.rfl

/-- Without a comparison a write always succeeds. -/
theorem wp_assign {key : String} {j : StoredJob} {rev : Int} {st : JobStatus}
    {ok : Unit → Ledgers ρ → Prop} (ht : b.transactional = false) :
    Op.wp (b.write key j rev st) l ok err ↔ ok () (b.put key j l) := by
  unfold write
  rw [if_neg (by simp [ht])]
  exact Iff.rfl

theorem wp_onInvocations {f : Invocations → Except Err (α × Invocations)} :
    Op.wp (onInvocations f) l ok err ↔
      (∀ a t, f l.invocations = .ok (a, t) → ok a {l with invocations := t}) ∧
      ∀ e, f l.invocations = .error e → err e l := by
  unfold Op.wp onInvocations
  cases f l.invocations with
  | error e => simp
  | ok p =>
    obtain ⟨a, t⟩ := p
    simp

/-- A sweep settles a part of the calls; only a store without transactions keeps
the edited ledger at this point. -/
theorem wp_sweepCalls {key : String} {w : Sweep} {current : StoredJob}
    {ok : StoredJob → Ledgers ρ → Prop} :
    Op.wp (b.sweepCalls key w current) l ok err ↔
      let swept := sweep w current.1.calls l.invocations
      let l' := if b.transactional then {l with invocations := swept.2.1}
        else b.put key (current.withCalls swept.1) {l with invocations := swept.2.1}
      (swept.2.2 = .ok () → ok (current.withCalls swept.1) l') ∧
        ∀ e, swept.2.2 = .error e → err e l' := by
  unfold Op.wp sweepCalls
  rcases h : sweep w current.1.calls l.invocations with ⟨calls, t, e | u⟩
  · simp [Except.map]
  · simp [Except.map]

theorem wp_commit {x : Op (Ledgers ρ) Err α} :
    Op.wp (b.commit x) l ok err ↔
      Op.wp x l ok (fun e l' => err e (if b.transactional then l else l')) := by
  unfold commit
  split
  · exact Op.wp_atomically
  · exact Iff.rfl

/-! ### Moves -/

variable (b)

/-- The job that a step may leave under a key: the one just submitted, or an edit
of the job found under the key the command addresses. -/
def Change (q : Request) (l : Ledgers ρ) (k : String) (j' : StoredJob) : Prop :=
  (b.job l k = none ∧ q = .job (.submit j'.1) ∧ k = j'.1.jobId) ∨
    ∃ key j, b.job l key = some j ∧ JobEdit q key j j' ∧
      b.Matches l j' j.1.revision j.1.status ∧ k = b.target key j'

/-- The step edits the job `j` under `key`, if any: every other job is kept. -/
def Edited (q : Request) (key : String) (j : StoredJob) (l l' : Ledgers ρ) : Prop :=
  ∀ k, b.job l' k = b.job l k ∨ ∃ j', b.job l' k = some j' ∧ JobEdit q key j j' ∧
    b.Matches l j' j.1.revision j.1.status ∧ k = b.target key j'

/-- Each key keeps its job or is left with a changed one. -/
def Moved (q : Request) (l l' : Ledgers ρ) : Prop :=
  ∀ k, b.job l' k = b.job l k ∨ ∃ j', b.job l' k = some j' ∧ b.Change q l k j'

/-- In a transactional store every row is found under its own job id. -/
def Keyed (l : Ledgers ρ) : Prop :=
  b.transactional = true → ∀ k j, b.job l k = some j → j.1.jobId = k

variable {b}
variable {q : Request}

theorem Moved.same (h : ∀ k, b.job l' k = b.job l k) : b.Moved q l l' := fun k => .inl (h k)

theorem Moved.put {k : String} {j' : StoredJob} {t : Invocations} (h : b.Change q l k j') :
    b.Moved q l (b.put k j' {l with invocations := t}) := by
  intro k'
  rw [job_put]
  split
  · rename_i hk
    exact .inr ⟨j', rfl, hk ▸ h⟩
  · exact .inl rfl

theorem Edited.same {key : String} {j : StoredJob} (h : ∀ k, b.job l' k = b.job l k) :
    b.Edited q key j l l' := fun k => .inl (h k)

theorem Edited.put {key : String} {j j' : StoredJob} {t : Invocations} (he : JobEdit q key j j')
    (hm : b.Matches l j' j.1.revision j.1.status) :
    b.Edited q key j l (b.put (b.target key j') j' {l with invocations := t}) := by
  intro k
  rw [job_put]
  split
  · rename_i hk
    exact .inr ⟨j', rfl, he, hm, hk⟩
  · exact .inl rfl

theorem Edited.moved {key : String} {j : StoredJob} (hj : b.job l key = some j)
    (h : b.Edited q key j l l') : b.Moved q l l' := by
  intro k
  rcases h k with hs | ⟨j', hj', he, hm, hk⟩
  · exact .inl hs
  · exact .inr ⟨j', hj', .inr ⟨key, j, hj, he, hm, hk⟩⟩

theorem Moved.keyed (h : b.Moved q l l') (hk : b.Keyed l) : b.Keyed l' := by
  intro ht k j hj
  rcases h k with hs | ⟨j', hj', hc⟩
  · exact hk ht k j (hs ▸ hj)
  · obtain rfl : j' = j := Option.some.inj (hj'.symm.trans hj)
    rcases hc with ⟨_, _, he⟩ | ⟨key, j, _, _, _, he⟩
    · exact he.symm
    · rw [he, target, if_pos ht]

/-- An edit that does not name the job id is written back where the job was found. -/
theorem target_of_keepsId {key : String} {j u : StoredJob} (hk : b.Keyed l) (hj : b.job l key = some j)
    (he : JobEdit q key j u) (hq : b.transactional = true → KeepsId q) : b.target key u = key := by
  unfold target
  split
  · rename_i ht
    rw [he.jobId (hq ht)]
    exact hk ht key j hj
  · rfl

theorem commit_moved {x : Op (Ledgers ρ) Err α}
    (h : Op.wp x l (fun _ => b.Moved q l) (fun _ => b.Moved q l)) :
    Op.wp (b.commit x) l (fun _ => b.Moved q l) (fun _ => b.Moved q l) := by
  rw [wp_commit]
  refine Op.wp_mono h (fun _ _ hm => hm) (fun e l' hm => ?_)
  split
  · exact Moved.same (fun _ => rfl)
  · exact hm

theorem write_edited {key : String} {j u : StoredJob} {rev : Int} {st : JobStatus} {t : Invocations}
    (hr : rev = j.1.revision) (hs : st = j.1.status) (he : JobEdit q key j u) :
    Op.wp (b.write key u rev st) {l with invocations := t} (fun _ => b.Edited q key j l)
      (fun _ => b.Edited q key j l) := by
  refine wp_write (fun hm => Edited.put he ?_) (fun _ => Edited.same (fun _ => rfl))
  intro ht
  obtain ⟨row, hrow, hst, hrev⟩ := hm ht
  exact ⟨row, hrow, hst.trans hs, hrev.trans hr⟩

/-- An edited job that is written makes a move. -/
theorem write_moved {key : String} {j u : StoredJob} {rev : Int} {st : JobStatus} {t : Invocations}
    (hj : b.job l key = some j) (hr : rev = j.1.revision) (hs : st = j.1.status) (he : JobEdit q key j u) :
    Op.wp (b.write key u rev st) {l with invocations := t} (fun _ => b.Moved q l)
      (fun _ => b.Moved q l) :=
  Op.wp_mono (write_edited hr hs he) (fun _ _ h => h.moved hj) (fun _ _ h => h.moved hj)

/-! ### The operations move -/

theorem submit_moved (record : ScoringJob) :
    Op.wp (b.submit record) l (fun _ => b.Moved (.job (.submit record)) l)
      (fun _ => b.Moved (.job (.submit record)) l) := by
  simp only [submit, Op.wp_bind, Op.wp_lift, storeJob_ok_iff]
  refine ⟨?_, fun _ _ => Moved.same (fun _ => rfl)⟩
  rintro stored rfl
  refine commit_moved ?_
  simp only [Op.wp_bind, Op.wp_gets]
  split
  · simp only [Op.wp_bind, Op.wp_lift, Op.wp_pure]
    exact ⟨fun _ _ => Moved.same (fun _ => rfl), fun _ _ => Moved.same (fun _ => rfl)⟩
  · simp only [Op.wp_bind, Op.wp_gets, Op.wp_lift, ensure_ok_iff, Op.wp_modify, Op.wp_pure]
    exact ⟨fun _ hnew => Moved.put (.inl ⟨hnew, rfl, rfl⟩), fun _ _ => Moved.same (fun _ => rfl)⟩

/-- `claim` and `claim_next` change a job in the same ways. -/
theorem claim_moves {key : String} {now : Timestamp}
    (hc : ∀ j u, claimRecord now j = .ok (some u) → JobEdit q key j u) :
    Op.wp (b.claim key now) l (fun _ => b.Moved q l) (fun _ => b.Moved q l) := by
  refine commit_moved ?_
  simp only [Op.wp_bind, Op.wp_gets]
  split
  · exact Moved.same (fun _ => rfl)
  · rename_i current hj
    simp only [Op.wp_bind, Op.wp_lift]
    refine ⟨fun claimed hr => ?_, fun _ _ => Moved.same (fun _ => rfl)⟩
    split
    · exact Moved.same (fun _ => rfl)
    · simp only [Op.wp_bind, Op.wp_pure]
      exact write_moved hj rfl rfl (hc current _ hr)

theorem claimFirst_moved (status : JobStatus) (now : Timestamp) :
    Op.wp (b.claimFirst status now) l (fun _ => b.Moved (.job (.claimNext now)) l)
      (fun _ => b.Moved (.job (.claimNext now)) l) := by
  simp only [claimFirst, Op.wp_bind, Op.wp_gets]
  split
  · exact Moved.same (fun _ => rfl)
  · exact claim_moves (fun _ _ h => .claimNext h)

/-- A claim that returns no job changed nothing. -/
theorem claimFirst_none {status : JobStatus} {now : Timestamp} :
    Op.wp (b.claimFirst status now) l (fun claimed l' => claimed = none → l' = l) (fun _ _ => True) := by
  simp only [claimFirst, Op.wp_bind, Op.wp_gets]
  split
  · exact fun _ => rfl
  · simp only [claim, wp_commit, Op.wp_bind, Op.wp_gets]
    split
    · exact fun _ => rfl
    · simp only [Op.wp_bind, Op.wp_lift]
      refine ⟨fun claimed _ => ?_, fun _ _ => trivial⟩
      split
      · exact fun _ => rfl
      · simp only [Op.wp_bind, Op.wp_pure]
        exact wp_write (fun _ h => (by cases h)) (fun _ => trivial)

theorem claimNext_moved (now : Timestamp) :
    Op.wp (b.claimNext now) l (fun _ => b.Moved (.job (.claimNext now)) l)
      (fun _ => b.Moved (.job (.claimNext now)) l) := by
  simp only [claimNext, Op.wp_bind]
  refine Op.wp_mono (Op.wp_and claimFirst_none (claimFirst_moved .queued now)) ?_ (fun _ _ h => h.2)
  rintro claimed l' ⟨hnone, hm⟩
  split
  · exact hm
  · rw [hnone rfl]
    exact claimFirst_moved .settled now

theorem transition_moved (r : TransitionRequest) :
    Op.wp (b.transition r) l (fun _ => b.Moved (.job (.transition r)) l) (fun _ => b.Moved (.job (.transition r)) l) := by
  refine commit_moved ?_
  simp only [Op.wp_bind]
  refine wp_require (fun j hj => ?_) (fun _ => Moved.same (fun _ => rfl))
  simp only [Op.wp_lift, Op.wp_pure]
  refine ⟨fun u hu => ?_, fun _ _ => Moved.same (fun _ => rfl)⟩
  obtain ⟨hrev, hst, _⟩ := transitionRecord_ok hu
  exact write_moved hj hrev.symm hst.symm (.transition hu)

theorem beginCall_moved (r : BeginCallRequest) :
    Op.wp (b.beginCall r) l (fun _ => b.Moved (.job (.beginCall r)) l) (fun _ => b.Moved (.job (.beginCall r)) l) := by
  refine commit_moved ?_
  simp only [Op.wp_bind]
  refine wp_require (fun j hj => ?_) (fun _ => Moved.same (fun _ => rfl))
  simp only [Op.wp_lift, Op.wp_pure, wp_onInvocations]
  refine ⟨fun _ hc => ⟨fun created t _ => ⟨fun dispatched t' _ => ⟨fun u hu => ?_, ?_⟩, ?_⟩, ?_⟩, ?_⟩
  · exact write_moved hj (checkDispatch_ok hc).1.symm rfl (.beginCall dispatched.1 hc hu)
  all_goals exact fun _ _ => Moved.same (fun _ => rfl)

theorem settleCall_moved (r : SettleCallRequest) :
    Op.wp (b.settleCall r) l (fun _ => b.Moved (.job (.settleCall r)) l) (fun _ => b.Moved (.job (.settleCall r)) l) := by
  refine commit_moved ?_
  simp only [Op.wp_bind]
  refine wp_require (fun j hj => ?_) (fun _ => Moved.same (fun _ => rfl))
  simp only [Op.wp_lift, Op.wp_pure, wp_onInvocations]
  refine ⟨fun target ht => ⟨fun _ t _ => ⟨fun u hu => ?_, ?_⟩, ?_⟩, ?_⟩
  · obtain ⟨hrev, hst, _⟩ := settleTarget_ok ht
    exact write_moved hj hrev.symm hst.symm (.settleCall target ht hu)
  all_goals exact fun _ _ => Moved.same (fun _ => rfl)

/-- Jobs read after a sweep: those of a store without transactions show the edited ledger. -/
theorem job_swept {key k : String} {current : StoredJob} {calls : List Call} {t : Invocations} :
    b.job (if b.transactional then {l with invocations := t}
        else b.put key (current.withCalls calls) {l with invocations := t}) k =
      if b.transactional = false ∧ k = key then some (current.withCalls calls) else b.job l k := by
  cases ht : b.transactional
  · simp
  · simp

/-- A sweep of the job under a key, then a write of the job made from it. -/
theorem sweep_then_write_edited {key : String} {j : StoredJob} {w : Sweep}
    {edit : StoredJob → Except Err StoredJob} {reply : StoredJob → α}
    (stopped : ∀ calls, Swept w j.1.calls calls → JobEdit q key j (j.withCalls calls))
    (edited : ∀ calls u, Swept w j.1.calls calls → edit (j.withCalls calls) = .ok u → JobEdit q key j u) :
    Op.wp (do
      let swept ← b.sweepCalls key w j
      let updated ← Op.lift (edit swept)
      b.write key updated j.1.revision j.1.status
      return reply updated) l (fun _ => b.Edited q key j l) (fun _ => b.Edited q key j l) := by
  have hsw := sweep_swept w j.1.calls l.invocations
  have half : b.Edited q key j l (if b.transactional then
        {l with invocations := (sweep w j.1.calls l.invocations).2.1}
      else b.put key (j.withCalls (sweep w j.1.calls l.invocations).1)
        {l with invocations := (sweep w j.1.calls l.invocations).2.1}) := by
    split
    · exact Edited.same (fun _ => rfl)
    · rename_i ht
      have := Edited.put (b := b) (l := l) (t := (sweep w j.1.calls l.invocations).2.1) (stopped _ hsw)
        (fun h => absurd h ht)
      rwa [target, if_neg ht] at this
  simp only [Op.wp_bind, wp_sweepCalls, Op.wp_lift, Op.wp_pure]
  refine ⟨fun _ => ⟨fun u hu => ?_, fun _ _ => half⟩, fun _ _ => half⟩
  have he := edited _ u hsw hu
  refine wp_write (fun hm k => ?_) (fun _ => half)
  rw [job_put, job_swept]
  have hm' : b.Matches l u j.1.revision j.1.status := by
    intro ht
    obtain ⟨row, hrow, h⟩ := hm ht
    rw [job_swept, if_neg (by simp [ht])] at hrow
    exact ⟨row, hrow, h⟩
  by_cases hk : k = b.target key u
  · rw [if_pos hk]
    exact .inr ⟨u, rfl, he, hm', hk⟩
  · rw [if_neg hk]
    refine .inl (if_neg ?_)
    rintro ⟨ht, hkey⟩
    exact hk (by rw [hkey, target, if_neg (by simp [ht])])

theorem cancel_moved (r : CancelRequest) :
    Op.wp (b.cancel r) l (fun _ => b.Moved (.job (.cancel r)) l) (fun _ => b.Moved (.job (.cancel r)) l) := by
  refine commit_moved ?_
  simp only [Op.wp_bind]
  refine wp_require (fun j hj => ?_) (fun _ => Moved.same (fun _ => rfl))
  have same : b.Moved (.job (.cancel r)) l l := Moved.same (fun _ => rfl)
  have abandoned (hst : j.1.status = .queued ∨ j.1.status = .prepared) :
      Op.wp (b.abandon r j) l (fun _ => b.Moved (.job (.cancel r)) l) (fun _ => b.Moved (.job (.cancel r)) l) := by
    simp only [abandon]
    rw [Op.wp_bind, Op.wp_lift]
    refine ⟨fun _ quiet => ?_, fun _ _ => same⟩
    rw [ensure_ok_iff] at quiet
    exact Op.wp_mono (sweep_then_write_edited (fun calls hw => .cancelStopped hst quiet hw)
      (fun calls u hw hu => .abandon hst quiet hw hu)) (fun _ _ h => h.moved hj) (fun _ _ h => h.moved hj)
  have withdrawn (hst : j.1.status = .settled ∨ j.1.status = .failed) :
      Op.wp (b.withdraw r j) l (fun _ => b.Moved (.job (.cancel r)) l) (fun _ => b.Moved (.job (.cancel r)) l) := by
    simp only [withdraw, Op.wp_bind, Op.wp_lift, Op.wp_pure]
    exact ⟨fun u hu => write_moved hj rfl rfl (.withdraw hst hu), fun _ _ => same⟩
  split
  · exact same
  · exact same
  · exact same
  · rename_i hst
    exact abandoned (.inl hst)
  · rename_i hst
    exact abandoned (.inr hst)
  · rename_i hst
    unfold requestCancel
    split
    · exact same
    · simp only [Op.wp_bind, Op.wp_lift, Op.wp_pure]
      exact ⟨fun u hu => write_moved hj rfl rfl (.request hst hu), fun _ _ => same⟩
  · rename_i hst
    exact withdrawn (.inl hst)
  · rename_i hst
    exact withdrawn (.inr hst)

/-! ### Recovery, row by row -/

theorem recoverOne_edited {key : String} {j : StoredJob} (now : Timestamp) :
    Op.wp (b.recoverOne now key j) l (fun _ => b.Edited (.job (.recoverInterrupted now)) key j l)
      (fun _ => b.Edited (.job (.recoverInterrupted now)) key j l) := by
  have same : b.Edited (.job (.recoverInterrupted now)) key j l l := Edited.same (fun _ => rfl)
  unfold recoverOne
  dsimp only
  split
  · rename_i hst
    split
    · exact same
    · rename_i quiet
      simp only [Op.wp_bind, Op.wp_lift, Op.wp_pure]
      exact ⟨fun u hu => write_edited rfl rfl (.requeue hst (by simpa using quiet) hu), fun _ _ => same⟩
  · rename_i hst
    exact sweep_then_write_edited (fun calls hw => .recoveryStopped hst hw)
      (fun calls u hw hu => .interrupt hst hw hu)
  · exact same

/-- Recovery changes each row once, and finds it as it was at the start. -/
theorem recoverRows_moved {l₀ : Ledgers ρ} {now : Timestamp} (hk : b.Keyed l₀) (rows : List (String × ρ))
    (hn : (rows.map Prod.fst).Nodup) (hrows : ∀ r ∈ rows, b.job l₀ r.1 = some (b.payload r.2))
    (hsame : ∀ r ∈ rows, b.job l r.1 = b.job l₀ r.1) (hm : b.Moved (.job (.recoverInterrupted now)) l₀ l) :
    Op.wp (b.recoverRows now rows) l (fun _ => b.Moved (.job (.recoverInterrupted now)) l₀)
      (fun _ => b.Moved (.job (.recoverInterrupted now)) l₀) := by
  induction rows generalizing l with
  | nil => exact hm
  | cons r rest ih =>
    obtain ⟨key, row⟩ := r
    rw [List.map_cons, List.nodup_cons] at hn
    have hj : b.job l₀ key = some (b.payload row) := hrows (key, row) (List.mem_cons_self ..)
    have hj' : b.job l key = b.job l₀ key := hsame (key, row) (List.mem_cons_self ..)
    have hkey (ht : b.transactional = true) : (b.payload row).1.jobId = key := hk ht key _ hj
    -- what the recovery of the first row leaves of the other keys, and of the start
    have keeps {l'} (he : b.Edited (.job (.recoverInterrupted now)) key (b.payload row) l l') (k : String)
        (hne : k ≠ key) : b.job l' k = b.job l k := by
      rcases he k with h | ⟨u, _, hu, _, hk'⟩
      · exact h
      · exact absurd (hk'.trans (target_of_keepsId hk hj hu (fun _ _ hc => nomatch hc))) hne
    have moved {l'} (he : b.Edited (.job (.recoverInterrupted now)) key (b.payload row) l l') :
        b.Moved (.job (.recoverInterrupted now)) l₀ l' := by
      intro k
      by_cases hne : k = key
      · subst hne
        rcases he k with h | ⟨u, hu, hedit, hmatch, hk'⟩
        · exact .inl (h.trans hj')
        · refine .inr ⟨u, hu, .inr ⟨k, _, hj, hedit, fun ht => ?_, hk'⟩⟩
          obtain ⟨old, hold, h⟩ := hmatch ht
          have hid : u.1.jobId = k := (hedit.jobId (fun _ hc => nomatch hc)).trans (hkey ht)
          rw [hid, hj'] at hold
          exact ⟨old, by rw [hid, hold], h⟩
      · rw [keeps he k hne]
        exact hm k
    simp only [recoverRows, Op.wp_bind, Op.wp_pure]
    refine Op.wp_mono (recoverOne_edited now) (fun touched l' he => ?_) (fun _ _ he => moved he)
    refine Op.wp_mono (ih hn.2 (fun r hr => hrows r (List.mem_cons_of_mem _ hr)) (fun r hr => ?_) (moved he))
      (fun _ _ h => h) (fun _ _ h => h)
    have hne : r.1 ≠ key := by
      rintro rfl
      exact hn.1 (List.mem_map.2 ⟨r, hr, rfl⟩)
    rw [keeps he r.1 hne]
    exact hsame r (List.mem_cons_of_mem _ hr)

theorem recoverInterrupted_moved (now : Timestamp) (hk : b.Keyed l) :
    Op.wp (b.recoverInterrupted now) l (fun _ => b.Moved (.job (.recoverInterrupted now)) l)
      (fun _ => b.Moved (.job (.recoverInterrupted now)) l) := by
  refine commit_moved ?_
  simp only [Op.wp_bind, Op.wp_gets]
  refine recoverRows_moved hk l.jobs.rows l.jobs.nodup (fun r hr => ?_) (fun _ _ => rfl)
    (Moved.same (fun _ => rfl))
  unfold job
  rw [Table.get_of_mem hr]
  rfl

/-- Every command moves. -/
theorem serve_moved (c : JobCommand) (hk : b.Keyed l) :
    Op.wp (b.serve c) l (fun _ => b.Moved (.job c) l) (fun _ => b.Moved (.job c) l) := by
  cases c <;> simp only [serve, Op.wp_bind, Op.wp_pure]
  · exact submit_moved _
  · exact claim_moves (fun _ _ h => .claim h)
  · exact claimNext_moved _
  · exact transition_moved _
  · exact beginCall_moved _
  · exact settleCall_moved _
  · exact cancel_moved _
  · exact recoverInterrupted_moved _ hk

end Backend
end Motte.Storage
