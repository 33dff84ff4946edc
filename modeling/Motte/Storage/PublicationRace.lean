import Motte.Storage.JobLifecycle

/-! The race to publish or cancel one job.

Workers claim a job, send its calls, settle them and publish; somebody else
cancels it. Whatever the order, one of them decides the job: once it is completed
or cancelled, nothing they ask changes it, at most one publication is answered as
having published, and the job is completed exactly if a publication stored the
pass it had reserved. A settlement that first changes the status and then asks
for `completed` is the one request that decides the job by itself. -/
namespace Motte.Storage
open Foundation

/-! ### Systems of jobs and passes -/

/-- A publication completes the job and stores the pass, which was not there. -/
structure Completes (r : PublishRequest) (job job' : String → Option StoredJob)
    (pass pass' : String → Option PassRecord) (j u : StoredJob) : Prop
    extends Publishes r (job r.jobId) j u where
  fresh : pass r.passRecord.id = none
  jobs : ∀ k, job' k = if k = r.jobId then some u else job k
  passes : ∀ id, pass' id = if id = r.passRecord.id then some r.passRecord else pass id

/-- A system of jobs that also stores scoring passes. -/
structure PassSystem (σ : Type) extends JobSystem σ where
  pass : σ → String → Option PassRecord
  pass_of_job : ∀ c s, pass (serve (.job c) s).2 = pass s
  publishes : ∀ r s, backend.Keyed (ledgers s) → Op.wp (serve (.publish r)) s
    (fun reply t => ∃ p, reply = .published p ∧ ((p.published = false ∧ t = s) ∨
      (p.published = true ∧ ∃ j u, Completes r (toJobSystem.job s) (toJobSystem.job t) (pass s) (pass t) j u)))
    (fun _ t => (toJobSystem.job t = toJobSystem.job s ∧ pass t = pass s) ∨
      ∃ j u, Completes r (toJobSystem.job s) (toJobSystem.job t) (pass s) (pass t) j u)

/-- The SQLite store as a system of jobs and passes. -/
def sqlitePasses : PassSystem Sqlite.Database where
  toJobSystem := sqliteSystem
  pass s := s.passes.get
  pass_of_job c s := by
    refine Op.wp_state (Q := fun t : Sqlite.Database => t.passes.get = s.passes.get) ?_
    simp only [sqliteSystem, Sqlite.serve, Sqlite.onJobs, Op.wp_bind, Op.wp_pure, Op.wp_zoom]
    exact Op.wp_always (fun _ _ => trivial) (fun _ _ => trivial)
  publishes r s hk := by
    simp only [sqliteSystem, Sqlite.serve, Op.wp_bind, Op.wp_pure]
    refine Op.wp_mono (Sqlite.publish_spec r s) (fun reply t h => ⟨reply, rfl, ?_⟩) (fun _ t h => .inl ?_)
    · rcases h with ⟨hp, j, u, -, h⟩ | ⟨hp, rfl, -⟩
      · refine .inr ⟨hp, j, u, h.toPublishes, h.fresh, fun k => ?_, fun id => ?_⟩
        · obtain ⟨_, _, _, _, _, _, _, _, rfl⟩ := h.state
          have htarget : sqliteJobs.target r.jobId u = r.jobId :=
            (h.edit.jobId (fun _ hc => nomatch hc)).trans (hk rfl r.jobId j h.found)
          show sqliteJobs.job (sqliteJobs.put _ u s.toLedgers) k = _
          rw [Backend.job_put, htarget]
          rfl
        · obtain ⟨_, _, _, _, _, _, _, _, rfl⟩ := h.state
          exact Table.get_set _ _ _ _
      · exact .inl ⟨hp, rfl⟩
    · rw [h]
      exact ⟨rfl, rfl⟩

/-- The in-memory store as a system of jobs and passes. -/
def memoryPasses : PassSystem Memory.Store where
  toJobSystem := memorySystem
  pass s := s.passes.get
  pass_of_job c s := by
    refine Op.wp_state (Q := fun t : Memory.Store => t.passes.get = s.passes.get) ?_
    simp only [memorySystem, Memory.serve, Memory.onJobs, Op.wp_bind, Op.wp_pure, Op.wp_zoom]
    exact Op.wp_always (fun _ _ => trivial) (fun _ _ => trivial)
  publishes r s _ := by
    have completes {j u : StoredJob} {result : Except Err Unit} {t : Memory.Store}
        (h : Memory.Publication r s j u result t) :
        Completes r (memorySystem.job s) (memorySystem.job t) s.passes.get t.passes.get j u := by
      obtain ⟨log, b, -, ht⟩ := h.state
      rw [ht]
      refine ⟨b.toPublishes, h.fresh, fun k => ?_, fun id => Table.get_set _ _ _ _⟩
      exact Backend.job_put r.jobId k u
    simp only [memorySystem, Memory.serve, Op.wp_bind, Op.wp_pure]
    refine Op.wp_mono (Memory.publish_spec r s) (fun reply t h => ⟨reply, rfl, ?_⟩) (fun _ t h => ?_)
    · rcases h with ⟨hp, j, u, -, h⟩ | ⟨hp, rfl, -⟩
      · exact .inr ⟨hp, j, u, completes h⟩
      · exact .inl ⟨hp, rfl⟩
    · rcases h with ⟨rfl, -⟩ | ⟨j, u, log, -, -, rfl⟩ | ⟨j, u, h⟩
      · exact .inl ⟨rfl, rfl⟩
      · exact .inl ⟨rfl, rfl⟩
      · exact .inr ⟨j, u, completes h⟩

/-! ### One request of the race -/

/-- What the workers and the canceller of the job under `k` ask. A settlement that
asks for `completed` does not first change the status to one that leads there. -/
def RaceRule (k : String) : Request → Prop
  | .job (.claim key _) => key = k
  | .job (.claimNext _) | .job (.recoverInterrupted _) => True
  | .job (.beginCall r) => r.jobId = k
  | .job (.settleCall r) => r.jobId = k ∧ (r.jobStatus = .completed →
      r.jobChanges.status ≠ some .settled ∧ r.jobChanges.status ≠ some .completed)
  | .job (.cancel r) => r.jobId = k
  | .publish r => r.jobId = k
  | _ => False

/-- The job is completed or cancelled. -/
def Decided (j : StoredJob) : Prop := j.1.status = .completed ∨ j.1.status = .cancelled

/-- The reply of a publication that published. -/
def isPublished : Except Err Reply → Bool
  | .ok (.published p) => p.published
  | _ => false

theorem isPublished_job (c : Except Err JobReply) : isPublished (c.map .job) = false := by
  cases c <;> rfl

/-- A settlement in the race never leaves the job completed. -/
theorem settleRecord_undecided {r : SettleCallRequest} {j u : StoredJob} (hst : j.1.status = .dispatching)
    (h : settleRecord r j = .ok u) (hr : r.jobStatus = .completed →
      r.jobChanges.status ≠ some .settled ∧ r.jobChanges.status ≠ some .completed) :
    u.1.status ≠ .completed := by
  obtain ⟨hlegal, hu⟩ := settleRecord_ok h
  have hstatus : u.1.status = r.jobStatus := by rw [hu]
  rw [hstatus]
  intro hc
  have hfrom : (r.jobChanges.apply (settledLedger r j.1)).status = r.jobChanges.status.getD .dispatching := by
    rw [← hst]
    rfl
  rw [hfrom, hc] at hlegal
  obtain ⟨hs, hd⟩ := hr hc
  cases hch : r.jobChanges.status with
  | none =>
    rw [hch] at hlegal
    simp [JobStatus.transitions] at hlegal
  | some st =>
    rw [hch] at hs hd hlegal
    cases st <;> simp_all [JobStatus.transitions]

section Race
variable {σ : Type} {S : PassSystem σ} {s : σ} {k : String} {q : Request} {j : StoredJob}

/-- A request of the race edits the job under `k` only by finding it there. -/
theorem RaceRule.found {key : String} {old u : StoredJob} (hq : RaceRule k q)
    (hk : S.Keyed s) (hold : S.job s key = some old) (he : JobEdit q key old u)
    (htarget : k = S.backend.target key u) : key = k := by
  have keeps (h : KeepsId q) : key = k := by
    rw [htarget, JobSystem.target_of_keepsId hk hold he h]
  cases he with
  | claim => exact hq
  | claimNext => exact keeps (fun _ hc => nomatch hc)
  | transition => exact hq.elim
  | beginCall => exact hq
  | settleCall => exact hq.1
  | abandon => exact hq
  | request => exact hq
  | withdraw => exact hq
  | requeue => exact keeps (fun _ hc => nomatch hc)
  | interrupt => exact keeps (fun _ hc => nomatch hc)
  | publish => exact hq
  | cancelStopped => exact hq
  | recoveryStopped => exact keeps (fun _ hc => nomatch hc)

/-- A job command of the race that finds the job undecided does not complete it. -/
theorem JobEdit.undecided {c : JobCommand} {key : String} {u : StoredJob} (he : JobEdit (.job c) key j u)
    (hq : RaceRule k (.job c)) (hj : j.1.status ≠ .completed) : u.1.status ≠ .completed := by
  have moves (st : JobStatus) (hu : u.1.status = st) (hst : st ≠ .completed) : u.1.status ≠ .completed := by
    rw [hu]
    exact hst
  cases he with
  | claim h =>
    rcases claimRecord_ok h with ⟨-, hu⟩ | ⟨-, hu⟩
    · exact moves .prepared (by rw [hu]) (by decide)
    · rw [hu]; exact hj
  | claimNext h =>
    rcases claimRecord_ok h with ⟨-, hu⟩ | ⟨-, hu⟩
    · exact moves .prepared (by rw [hu]) (by decide)
    · rw [hu]; exact hj
  | transition => exact hq.elim
  | beginCall _ _ h => exact moves .dispatching (by rw [nextRevision_ok_iff.1 h]) (by decide)
  | settleCall target ht h => exact settleRecord_undecided (settleTarget_ok ht).2.1 h hq.2
  | abandon _ _ _ h => exact moves .cancelled (by rw [nextRevision_ok_iff.1 h]) (by decide)
  | request _ h => rw [nextRevision_ok_iff.1 h]; exact hj
  | withdraw _ h => exact moves .cancelled (by rw [nextRevision_ok_iff.1 h]) (by decide)
  | requeue _ _ h => exact moves .queued (by rw [nextRevision_ok_iff.1 h]) (by decide)
  | interrupt _ _ h => exact moves .indeterminate (by rw [nextRevision_ok_iff.1 h]) (by decide)
  | cancelStopped => exact hj
  | recoveryStopped => exact hj

/-- Whatever a request of the race does to the job under `k`, it does to the job found there. -/
theorem race_edit (hk : S.Keyed s) (hq : RaceRule k q) (hj : S.job s k = some j) :
    S.job (S.step q s) k = some j ∨ ∃ u, S.job (S.step q s) k = some u ∧ JobEdit q k j u := by
  rcases S.moves q s hk k with h | ⟨u, hu, hc⟩
  · exact .inl (h.trans hj)
  rcases hc with ⟨-, rfl, -⟩ | ⟨key, old, hold, he, -, htarget⟩
  · exact hq.elim
  · obtain rfl := hq.found hk hold he htarget
    cases hold.symm.trans hj
    exact .inr ⟨u, hu, he⟩

/-- A decided job is left alone: it is not changed, no pass is stored, and no
publication is answered as having published. -/
theorem decided_step (hk : S.Keyed s) (hq : RaceRule k q) (hj : S.job s k = some j) (hd : Decided j) :
    S.job (S.step q s) k = some j ∧ S.pass (S.step q s) = S.pass s ∧ isPublished (S.serve q s).1 = false := by
  have terminal : j.1.status.terminal = true := by
    rcases hd with h | h <;> rw [h] <;> rfl
  have unready {r : PublishRequest} {u : StoredJob} (h : Publishes r (S.job s r.jobId) j u) : False := by
    rcases hd with hd | hd <;> rcases h.status with h | h <;> rw [hd] at h <;> cases h
  refine ⟨?_, ?_⟩
  · rcases race_edit hk hq hj with h | ⟨u, -, he⟩
    · exact h
    · rcases he.of_terminal terminal with ⟨r, rfl, -⟩ | ⟨r, -, -, hf⟩
      · exact hq.elim
      · rcases hd with hd | hd <;> rw [hd] at hf <;> cases hf
  · cases q with
    | job c => exact ⟨S.pass_of_job c s, by rw [S.replies]; exact isPublished_job _⟩
    | publish r =>
      obtain rfl : r.jobId = k := hq
      have none_completes {t : σ} {j' u : StoredJob}
          (h : Completes r (S.job s) (S.job t) (S.pass s) (S.pass t) j' u) : False := by
        cases hj.symm.trans h.found
        exact unready h.toPublishes
      have hp := S.publishes r s hk
      rcases hx : S.serve (.publish r) s with ⟨e | reply, t⟩
      · rw [Op.wp_of_error hx] at hp
        rw [JobSystem.step, hx]
        rcases hp with ⟨-, hp⟩ | ⟨j', u, hc⟩
        · exact ⟨hp, rfl⟩
        · exact (none_completes hc).elim
      · rw [Op.wp_of_ok hx] at hp
        rw [JobSystem.step, hx]
        obtain ⟨p, rfl, ⟨hp, rfl⟩ | ⟨-, j', u, hc⟩⟩ := hp
        · exact ⟨rfl, hp⟩
        · exact (none_completes hc).elim
    | run => exact hq.elim
    | attempt => exact hq.elim
    | append => exact hq.elim

/-- The publication, asked in the state `s`, stores the pass that the job `u` has reserved. -/
structure StoresPass (S : PassSystem σ) (k : String) (s : σ) (r : PublishRequest) (u : StoredJob) : Prop where
  addressed : r.jobId = k
  absent : S.pass s u.1.reservedPassId = none
  stored : S.pass (S.step (.publish r) s) u.1.reservedPassId = some r.passRecord

/-- An undecided job stays uncompleted, with no pass stored and nothing published,
or is completed by a publication that stores the pass it had reserved. -/
theorem open_step (hk : S.Keyed s) (hq : RaceRule k q) (hj : S.job s k = some j)
    (hopen : j.1.status ≠ .completed) :
    (∃ u, S.job (S.step q s) k = some u ∧ u.1.status ≠ .completed ∧ S.pass (S.step q s) = S.pass s ∧
        isPublished (S.serve q s).1 = false) ∨
      ∃ u r, q = .publish r ∧ S.job (S.step q s) k = some u ∧ u.1.status = .completed ∧
        StoresPass S k s r u := by
  cases q with
  | job c =>
    have quiet : S.pass (S.step (.job c) s) = S.pass s ∧ isPublished (S.serve (.job c) s).1 = false :=
      ⟨S.pass_of_job c s, by rw [S.replies]; exact isPublished_job _⟩
    rcases race_edit hk hq hj with h | ⟨u, hu, he⟩
    · exact .inl ⟨j, h, hopen, quiet⟩
    · exact .inl ⟨u, hu, he.undecided hq hopen, quiet⟩
  | publish r =>
    obtain rfl : r.jobId = k := hq
    have completed {t : σ} (ht : S.step (.publish r) s = t) {j' u : StoredJob}
        (h : Completes r (S.job s) (S.job t) (S.pass s) (S.pass t) j' u) :
        ∃ u r', Request.publish r = .publish r' ∧ S.job t r.jobId = some u ∧ u.1.status = .completed ∧
          StoresPass S r.jobId s r' u := by
      have hpass : r.passRecord.id = u.1.reservedPassId := by
        rw [h.toPublishes.record]
        exact (checkReserved_ok_iff.1 h.reserved).2.1
      refine ⟨u, r, rfl, by rw [h.jobs, if_pos rfl], by rw [h.toPublishes.record], rfl, ?_, ?_⟩
      · rw [← hpass]
        exact h.fresh
      · rw [ht, h.passes, if_pos hpass.symm]
    have hp := S.publishes r s hk
    rcases hx : S.serve (.publish r) s with ⟨e | reply, t⟩
    · rw [Op.wp_of_error hx] at hp
      have ht : S.step (.publish r) s = t := by rw [JobSystem.step, hx]
      rw [ht]
      rcases hp with ⟨hjobs, hp⟩ | ⟨j', u, hc⟩
      · exact .inl ⟨j, by rw [hjobs]; exact hj, hopen, hp, rfl⟩
      · exact .inr (completed ht hc)
    · rw [Op.wp_of_ok hx] at hp
      have ht : S.step (.publish r) s = t := by rw [JobSystem.step, hx]
      rw [ht]
      obtain ⟨p, rfl, ⟨hp, rfl⟩ | ⟨-, j', u, hc⟩⟩ := hp
      · exact .inl ⟨j, hj, hopen, rfl, hp⟩
      · exact .inr (completed ht hc)
  | run => exact hq.elim
  | attempt => exact hq.elim
  | append => exact hq.elim

/-! ### Runs of the race -/

variable {requests : List Request}

theorem decided_run (hk : S.Keyed s) (hq : ∀ q ∈ requests, RaceRule k q) (hj : S.job s k = some j)
    (hd : Decided j) :
    S.job (run S.step s requests) k = some j ∧ S.pass (run S.step s requests) = S.pass s ∧
      (replies S.serve s requests).countP isPublished = 0 := by
  induction requests generalizing s with
  | nil => exact ⟨hj, rfl, rfl⟩
  | cons q rest ih =>
    obtain ⟨hj', hp, hr⟩ := decided_step hk (hq q (List.mem_cons_self ..)) hj hd
    obtain ⟨hj'', hp', hr'⟩ := ih (JobSystem.keyed_step q hk) (fun q' h => hq q' (List.mem_cons_of_mem _ h)) hj'
    refine ⟨hj'', hp'.trans hp, ?_⟩
    rw [replies, List.countP_cons_of_neg (by simp [hr])]
    exact hr'

/-- At most one publication of the race is answered as having published. -/
theorem published_once (hk : S.Keyed s) (hq : ∀ q ∈ requests, RaceRule k q) (hj : S.job s k = some j)
    (hopen : j.1.status ≠ .completed) : (replies S.serve s requests).countP isPublished ≤ 1 := by
  induction requests generalizing s j with
  | nil => exact Nat.zero_le _
  | cons q rest ih =>
    have hrest : ∀ q' ∈ rest, RaceRule k q' := fun q' h => hq q' (List.mem_cons_of_mem _ h)
    rcases open_step hk (hq q (List.mem_cons_self ..)) hj hopen with
      ⟨u, hu, hst, -, hr⟩ | ⟨u, r, -, hu, hst, -⟩
    · rw [replies, List.countP_cons_of_neg (by simp [hr])]
      exact ih (JobSystem.keyed_step q hk) hrest hu hst
    · have hnone := (decided_run (JobSystem.keyed_step q hk) hrest hu (.inl hst)).2.2
      have hnone' : (replies S.serve (S.serve q s).2 rest).countP isPublished = 0 := hnone
      rw [replies, List.countP_cons, hnone']
      split <;> omega

/-- Some publication of the run stored the pass that the job `u` has reserved, and it is stored still. -/
def CompletedBy (S : PassSystem σ) (k : String) (s : σ) (requests : List Request) (u : StoredJob) : Prop :=
  ∃ a r b, requests = a ++ .publish r :: b ∧ StoresPass S k (run S.step s a) r u ∧
    S.pass (run S.step s requests) u.1.reservedPassId = some r.passRecord

/-- The job is completed exactly if a publication of the race stored its pass. -/
theorem completed_iff (hk : S.Keyed s) (hq : ∀ q ∈ requests, RaceRule k q) (hj : S.job s k = some j)
    (hopen : j.1.status ≠ .completed) :
    ∃ u, S.job (run S.step s requests) k = some u ∧
      (u.1.status = .completed ↔ CompletedBy S k s requests u) := by
  induction requests generalizing s j with
  | nil =>
    refine ⟨j, hj, fun h => absurd h hopen, ?_⟩
    rintro ⟨a, r, b, hnil, -⟩
    simp at hnil
  | cons q rest ih =>
    have hrest : ∀ q' ∈ rest, RaceRule k q' := fun q' h => hq q' (List.mem_cons_of_mem _ h)
    have hk' : S.Keyed (S.step q s) := JobSystem.keyed_step q hk
    rcases open_step hk (hq q (List.mem_cons_self ..)) hj hopen with
      ⟨u, hu, hst, hsame, -⟩ | ⟨u, r, rfl, hu, hst, hp⟩
    · obtain ⟨u', hu', hiff⟩ := ih hk' hrest hu hst
      refine ⟨u', hu', hiff.trans ⟨?_, ?_⟩⟩
      · rintro ⟨a, r, b, rfl, hp, hkept⟩
        exact ⟨q :: a, r, b, rfl, hp, hkept⟩
      · rintro ⟨a, r, b, heq, hp, hkept⟩
        cases a with
        | nil =>
          -- the first request stored no pass
          obtain ⟨rfl, rfl⟩ := List.cons.inj heq
          have hstored : S.pass (S.step (.publish r) s) u'.1.reservedPassId = some r.passRecord := hp.stored
          rw [hsame, show S.pass s u'.1.reservedPassId = none from hp.absent] at hstored
          cases hstored
        | cons q' a =>
          obtain ⟨rfl, rfl⟩ := List.cons.inj heq
          exact ⟨a, r, b, rfl, hp, hkept⟩
    · obtain ⟨hu', hpass, -⟩ := decided_run hk' hrest hu (.inl hst)
      refine ⟨u, hu', fun _ => ⟨[], r, rest, rfl, hp, ?_⟩, fun _ => hst⟩
      show S.pass (run S.step (S.step (.publish r) s) rest) _ = _
      rw [hpass]
      exact hp.stored

/-- A publication answered as having published leaves the job completed. -/
theorem published_completes {r : PublishRequest} (hk : S.Keyed s)
    (h : isPublished (S.serve (.publish r) s).1 = true) :
    ∃ u, S.job (S.step (.publish r) s) r.jobId = some u ∧ u.1.status = .completed := by
  have hp := S.publishes r s hk
  rcases hx : S.serve (.publish r) s with ⟨e | reply, t⟩
  · rw [hx] at h
    cases h
  · rw [Op.wp_of_ok hx] at hp
    rw [hx] at h
    obtain ⟨p, rfl, ⟨hp, -⟩ | ⟨-, j, u, hc⟩⟩ := hp
    · have hp' : p.published = true := h
      rw [hp] at hp'
      cases hp'
    · rw [JobSystem.step, hx]
      exact ⟨u, by rw [hc.jobs, if_pos rfl], by rw [hc.toPublishes.record]⟩

end Race

/-- The reply of a cancellation that cancelled the job. -/
def isCancelled : Except Err Reply → Bool
  | .ok (.job (.cancelled reply)) => reply.outcome = .cancelled || reply.outcome = .cancelledBeforePublish
  | _ => false

/-- A cancellation that is answered as having cancelled leaves the job cancelled. -/
theorem Backend.cancel_wins {ρ : Type} {b : Backend ρ} {l : Ledgers ρ} (hk : b.Keyed l) (r : CancelRequest) :
    Op.wp (b.cancel r) l (fun reply l' =>
      reply.outcome = .cancelled ∨ reply.outcome = .cancelledBeforePublish →
        ∃ u, b.job l' r.jobId = some u ∧ u.1.status = .cancelled) (fun _ _ => True) := by
  simp only [cancel, wp_commit, Op.wp_bind]
  refine wp_require (fun j hj => ?_) (fun _ => trivial)
  have written {l' : Ledgers ρ} {u : StoredJob} (hid : u.1.jobId = j.1.jobId) (hst : u.1.status = .cancelled) :
      ∃ u', b.job (b.put (b.target r.jobId u) u l') r.jobId = some u' ∧ u'.1.status = .cancelled := by
    have htarget : b.target r.jobId u = r.jobId := by
      unfold target
      split
      · rename_i ht
        rw [hid]
        exact hk ht r.jobId j hj
      · rfl
    exact ⟨u, by rw [htarget, job_put, if_pos rfl], hst⟩
  have abandoned : Op.wp (b.abandon r j) l (fun reply l' =>
      reply.outcome = .cancelled ∨ reply.outcome = .cancelledBeforePublish →
        ∃ u, b.job l' r.jobId = some u ∧ u.1.status = .cancelled) (fun _ _ => True) := by
    simp only [abandon, Op.wp_bind, Op.wp_lift, Op.wp_pure, wp_sweepCalls]
    refine ⟨fun _ _ => ⟨fun _ => ⟨fun u hu => ?_, fun _ _ => trivial⟩, fun _ _ => trivial⟩, fun _ _ => trivial⟩
    refine wp_write (fun _ _ => written ?_ ?_) (fun _ => trivial)
    · rw [nextRevision_ok_iff.1 hu]
      rfl
    · rw [nextRevision_ok_iff.1 hu]
  have withdrawn : Op.wp (b.withdraw r j) l (fun reply l' =>
      reply.outcome = .cancelled ∨ reply.outcome = .cancelledBeforePublish →
        ∃ u, b.job l' r.jobId = some u ∧ u.1.status = .cancelled) (fun _ _ => True) := by
    simp only [withdraw, Op.wp_bind, Op.wp_lift, Op.wp_pure]
    refine ⟨fun u hu => wp_write (fun _ _ => written ?_ ?_) (fun _ => trivial), fun _ _ => trivial⟩
    · rw [nextRevision_ok_iff.1 hu]
    · rw [nextRevision_ok_iff.1 hu]
  split
  · exact fun h => by rcases h with h | h <;> cases h
  · exact fun h => by rcases h with h | h <;> cases h
  · exact fun h => by rcases h with h | h <;> cases h
  · exact abandoned
  · exact abandoned
  · unfold requestCancel
    split
    · exact fun h => by rcases h with h | h <;> cases h
    · simp only [Op.wp_bind, Op.wp_lift, Op.wp_pure]
      exact ⟨fun _ _ => wp_write (fun _ h => by rcases h with h | h <;> cases h) (fun _ => trivial),
        fun _ _ => trivial⟩
  · exact withdrawn
  · exact withdrawn

theorem cancelled_cancels {σ : Type} {S : PassSystem σ} {s : σ} {r : CancelRequest} (hk : S.Keyed s)
    (h : isCancelled (S.serve (.job (.cancel r)) s).1 = true) :
    ∃ u, S.job (S.step (.job (.cancel r)) s) r.jobId = some u ∧ u.1.status = .cancelled := by
  rcases hx : (S.serve (.job (.cancel r)) s).1 with e | reply
  · rw [hx] at h
    cases h
  rw [hx] at h
  unfold isCancelled at h
  split at h
  · rename_i reply' hr
    have hserve := JobSystem.serve_of_ok (hx.trans hr)
    simp only [Backend.serve, Op.bind_ok_iff, Op.pure_apply, Prod.mk.injEq, Except.ok.injEq,
      JobReply.cancelled.injEq] at hserve
    obtain ⟨reply'', l, hcancel, rfl, rfl⟩ := hserve
    have hwins := Backend.cancel_wins hk r
    rw [Op.wp_of_ok hcancel] at hwins
    exact hwins (by simpa using h)
  · cases h

/-- What holds of the job under `k` after a run of its race. -/
structure DecidedOnce {σ : Type} (S : PassSystem σ) (k : String) (s : σ) (requests : List Request) : Prop where
  once : (replies S.serve s requests).countP isPublished ≤ 1
  /-- After a publication won, the job is completed and not cancelled. -/
  published : ∀ a r b, requests = a ++ .publish r :: b →
    isPublished (S.serve (.publish r) (run S.step s a)).1 = true →
    ∃ u, S.job (run S.step s requests) k = some u ∧ u.1.status = .completed
  /-- After a cancellation won, the job is cancelled and not completed. -/
  cancelled : ∀ a r b, requests = a ++ .job (.cancel r) :: b →
    isCancelled (S.serve (.job (.cancel r)) (run S.step s a)).1 = true →
    ∃ u, S.job (run S.step s requests) k = some u ∧ u.1.status = .cancelled
  completed : ∃ u, S.job (run S.step s requests) k = some u ∧
    (u.1.status = .completed ↔ CompletedBy S k s requests u)

theorem decided_once {σ : Type} {S : PassSystem σ} {s : σ} {k : String} {requests : List Request}
    {j : StoredJob} (hk : S.Keyed s) (hq : ∀ q ∈ requests, RaceRule k q) (hj : S.job s k = some j)
    (hopen : j.1.status ≠ .completed) : DecidedOnce S k s requests where
  once := published_once hk hq hj hopen
  completed := completed_iff hk hq hj hopen
  published := by
    rintro a r b rfl hp
    have ha : S.Keyed (run S.step s a) := JobSystem.keyed_run a hk
    obtain rfl : r.jobId = k := hq (.publish r) (by simp)
    obtain ⟨u, hu, hst⟩ := published_completes ha hp
    rw [run_append]
    exact ⟨u, (decided_run (JobSystem.keyed_step _ ha) (fun q h => hq q (by simp [h])) hu (.inl hst)).1, hst⟩
  cancelled := by
    rintro a r b rfl hp
    have ha : S.Keyed (run S.step s a) := JobSystem.keyed_run a hk
    obtain rfl : r.jobId = k := hq (.job (.cancel r)) (by simp)
    obtain ⟨u, hu, hst⟩ := cancelled_cancels ha hp
    rw [run_append]
    exact ⟨u, (decided_run (JobSystem.keyed_step _ ha) (fun q h => hq q (by simp [h])) hu (.inr hst)).1, hst⟩

/-- After any requests at all, the race for a job that is not completed decides it once. -/
def DecidesRaces {σ : Type} (S : PassSystem σ) (start : σ) (before requests : List Request) : Prop :=
  ∀ k j, S.job (run S.step start before) k = some j → j.1.status ≠ .completed →
    (∀ q ∈ requests, RaceRule k q) → DecidedOnce S k (run S.step start before) requests

theorem publication_race (before requests : List Request) :
    DecidesRaces sqlitePasses ∅ before requests ∧ DecidesRaces memoryPasses ∅ before requests :=
  ⟨fun _ _ hj hopen hq => decided_once (sqliteSystem_empty.keyed_run before) hq hj hopen,
    fun _ _ hj hopen hq => decided_once (memorySystem_empty.keyed_run before) hq hj hopen⟩

/-- The sample job is claimed and sends a call. -/
def oneCall : List Request :=
  [.job (.submit sampleJob), .job (.claim "job" "t"), .job (.beginCall (sampleBegin "a" 2))]

/-- The call lands and the job is settled by its changes, completed by its status. -/
def forged : Request :=
  .job (.settleCall {sampleSettle "a" 3 .succeeded .completed with jobChanges := {status := some .settled}})

/-- The job is completed by a settlement, with no pass stored. -/
theorem settlement_completes_job :
    ((sqlitePasses.job (run sqlitePasses.step ∅ (oneCall ++ [forged])) "job").map
      (fun j => (j.1.status, j.1.reservedPassId)) = some (.completed, "pass") ∧
    (sqlitePasses.pass (run sqlitePasses.step ∅ (oneCall ++ [forged])) "pass").isNone = true) ∧
    (memoryPasses.job (run memoryPasses.step ∅ (oneCall ++ [forged])) "job").map
      (fun j => (j.1.status, j.1.reservedPassId)) = some (.completed, "pass") ∧
    (memoryPasses.pass (run memoryPasses.step ∅ (oneCall ++ [forged])) "pass").isNone = true := by decide

/-- The run of the sample job, and the job with its call under way. -/
def raceStart : List Request := .run (.create {id := "run", status := some "scoring"} none) :: oneCall

/-- The call lands, two workers publish, and it is too late to cancel. -/
def sampleRace : List Request := [
  .job (.settleCall (sampleSettle "a" 3 .succeeded .settled)),
  .publish {samplePublish with expectedRevision := 4},
  .publish {samplePublish with expectedRevision := 4},
  .job (.cancel ⟨"job", "user", "late", "t"⟩)]

theorem sample_race_decided : DecidedOnce sqlitePasses "job" (run sqlitePasses.step ∅ raceStart) sampleRace ∧
    (replies sqlitePasses.serve (run sqlitePasses.step ∅ raceStart) sampleRace).countP isPublished = 1 := by
  have h : (sqlitePasses.job (run sqlitePasses.step ∅ raceStart) "job").map (·.1.status) =
      some .dispatching := by decide
  obtain ⟨j, hj, hst⟩ := Option.map_eq_some_iff.1 h
  refine ⟨(publication_race raceStart sampleRace).1 "job" j hj (by rw [hst]; decide) ?_, by decide⟩
  intro q hq
  simp only [sampleRace, List.mem_cons, List.not_mem_nil, or_false] at hq
  rcases hq with rfl | rfl | rfl | rfl
  · exact ⟨rfl, fun h => nomatch h⟩
  · rfl
  · rfl
  · rfl

end Motte.Storage
