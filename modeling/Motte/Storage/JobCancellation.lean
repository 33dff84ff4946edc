import Motte.Storage.CallLedger
import Motte.Storage.JobLifecycle

/-! Cancellation and billing.

A cancellation, once requested, stays requested, and no call is sent after it. A
cancellation that reports zero billed calls either found an empty ledger, because
a queued or prepared job has sent nothing, or a ledger in which no call that
landed had succeeded. -/
namespace Motte.Storage
open Foundation

/-! ### A request to cancel is never withdrawn -/

theorem JobEdit.cancelRequested {q : Request} {key : String} {j u : StoredJob} (h : JobEdit q key j u)
    (hq : ∀ c ∈ q.changes, c.cancellation = none) (hj : j.1.cancelRequested = true) :
    u.1.cancelRequested = true := by
  have kept (hc : u.1.cancellation = j.1.cancellation) : u.1.cancelRequested = true := by
    rw [ScoringJob.cancelRequested, hc]
    exact hj
  cases h with
  | claim h => rcases claimRecord_ok h with ⟨-, hu⟩ | ⟨-, hu⟩ <;> exact kept (by rw [hu])
  | claimNext h => rcases claimRecord_ok h with ⟨-, hu⟩ | ⟨-, hu⟩ <;> exact kept (by rw [hu])
  | transition h =>
    refine kept ?_
    rw [(transitionRecord_ok h).2.2.2]
    exact congrArg (fun o => Option.getD o j.1.cancellation) (hq _ rfl)
  | beginCall _ _ h => exact kept (by rw [nextRevision_ok_iff.1 h])
  | settleCall _ _ h =>
    refine kept ?_
    rw [(settleRecord_ok h).2]
    exact congrArg (fun o => Option.getD o j.1.cancellation) (hq _ rfl)
  | abandon _ _ _ h => rw [nextRevision_ok_iff.1 h]; rfl
  | request _ h => rw [nextRevision_ok_iff.1 h]; rfl
  | withdraw _ h => rw [nextRevision_ok_iff.1 h]; rfl
  | requeue _ _ h => exact kept (by rw [nextRevision_ok_iff.1 h])
  | interrupt _ _ h => exact kept (by rw [nextRevision_ok_iff.1 h]; rfl)
  | publish _ _ h => exact kept (by rw [nextRevision_ok_iff.1 h])
  | cancelStopped _ _ _ => exact hj
  | recoveryStopped _ _ => exact hj

/-- Changes name neither the cancellation nor the job id. -/
def KeepsCancellation (q : Request) : Prop := ∀ c ∈ q.changes, c.cancellation = none ∧ c.jobId = none

section Requested
variable {σ : Type} {S : JobSystem σ}

theorem cancelRequested_step {s : σ} {q : Request} {k : String} {j : StoredJob} (hk : S.Keyed s)
    (hq : KeepsCancellation q) (hj : S.job s k = some j) (hr : j.1.cancelRequested = true) :
    ∃ j', S.job (S.step q s) k = some j' ∧ j'.1.cancelRequested = true := by
  rcases S.moves q s hk k with hs | ⟨u, hu, hc⟩
  · exact ⟨j, hs.trans hj, hr⟩
  rcases hc with ⟨hnone, -, -⟩ | ⟨key, old, hold, he, -, htarget⟩
  · cases hnone.symm.trans hj
  · rw [show S.backend.target key u = key from
      JobSystem.target_of_keepsId hk hold he (fun c hc => (hq c hc).2)] at htarget
    subst htarget
    cases hold.symm.trans hj
    exact ⟨u, hu, he.cancelRequested (fun c hc => (hq c hc).1) hr⟩

theorem cancelRequested_run {s : σ} {requests : List Request} {k : String} {j : StoredJob} (hk : S.Keyed s)
    (h : ∀ q ∈ requests, KeepsCancellation q) (hj : S.job s k = some j) (hr : j.1.cancelRequested = true) :
    ∃ j', S.job (run S.step s requests) k = some j' ∧ j'.1.cancelRequested = true := by
  induction requests generalizing s j with
  | nil => exact ⟨j, hj, hr⟩
  | cons q rest ih =>
    obtain ⟨j', hj', hr'⟩ := cancelRequested_step hk (h q (List.mem_cons_self ..)) hj hr
    exact ih (JobSystem.keyed_step q hk) (fun q' hq' => h q' (List.mem_cons_of_mem _ hq')) hj' hr'

end Requested

/-- A call of a job whose cancellation was requested is refused. -/
theorem Backend.beginCall_refused {ρ : Type} {b : Backend ρ} {l : Ledgers ρ} {r : BeginCallRequest}
    {j : StoredJob} (hj : b.job l r.jobId = some j) (hr : j.1.cancelRequested = true) :
    Op.wp (b.beginCall r) l (fun _ _ => False) (fun _ _ => True) := by
  simp only [beginCall, wp_commit, Op.wp_bind, Op.wp_lift]
  refine wp_require (fun j' hj' => ⟨fun _ hc => ?_, fun _ _ => trivial⟩) (fun _ => trivial)
  cases hj.symm.trans hj'
  rw [(checkDispatch_ok hc).2.2.1] at hr
  cases hr

/-! ### What zero billed calls means -/

/-- A call that landed and succeeded. -/
def Call.billed (c : Call) : Bool := c.status = .settled ∧ c.outcome = some .succeeded

/-- A job that is not yet sent has an empty ledger, and a job with a billed call counts at least one. -/
structure Accounted (j : StoredJob) : Prop where
  unsent : j.1.status = .queued ∨ j.1.status = .prepared → j.1.calls = []
  counted : (∃ c ∈ j.1.calls, c.billed = true) → 1 ≤ j.1.billedCalls.getD 0

/-- Jobs are submitted queued with an empty ledger. Changes name neither the calls,
the cancellation, the job id nor the billed calls; those of a settlement do not
name the status. -/
def BillingRule : Request → Prop
  | .job (.submit record) => record.status = .queued ∧ record.calls = []
  | .job (.settleCall r) => r.jobChanges.calls = none ∧ r.jobChanges.cancellation = none ∧
      r.jobChanges.jobId = none ∧ r.jobChanges.billedCalls = none ∧ r.jobChanges.status = none
  | q => ∀ c ∈ q.changes, c.calls = none ∧ c.cancellation = none ∧ c.jobId = none ∧ c.billedCalls = none

theorem JobStatus.unsent_of_transition {a b : JobStatus} (h : b ∈ a.transitions)
    (hb : b = .queued ∨ b = .prepared) : a = .queued ∨ a = .prepared := by
  cases a <;> cases b <;> simp_all [JobStatus.transitions]

/-- A sweep leaves no call billed that was not: it settles calls as failed or indeterminate. -/
theorem Swept.billed {w : Sweep} {calls calls' : List Call} (h : Swept w calls calls')
    (hw : w.outcome ≠ .succeeded) (hc : ∃ c ∈ calls', c.billed = true) : ∃ c ∈ calls, c.billed = true := by
  obtain ⟨c', hmem, hb⟩ := hc
  obtain ⟨c, hcm, rfl | ⟨-, rfl⟩⟩ := h.mem hmem
  · exact ⟨c', hcm, hb⟩
  · simp [Call.billed, Sweep.mark, hw] at hb

theorem succeededCalls_pos {calls : List Call} (h : ∃ c ∈ calls, c.billed = true) :
    1 ≤ succeededCalls calls := by
  obtain ⟨c, hc, hb⟩ := h
  have hs : c.outcome = some .succeeded := by
    simp only [Call.billed, decide_eq_true_eq] at hb
    exact hb.2
  exact List.countP_pos_iff.2 ⟨c, hc, by simp [hs]⟩

theorem Accounted.settle {r : SettleCallRequest} {j u : StoredJob} {target : Call}
    (ht : settleTarget r j = .ok target) (h : settleRecord r j = .ok u) (hcalls : r.jobChanges.calls = none)
    (hbilled : r.jobChanges.billedCalls = none) (hst : r.jobChanges.status = none) : Accounted u := by
  obtain ⟨hlegal, hu⟩ := settleRecord_ok h
  have hfrom : (r.jobChanges.apply (settledLedger r j.1)).status = .dispatching := by
    simp only [JobChanges.apply, hst, Option.getD_none]
    exact (settleTarget_ok ht).2.1
  rw [hfrom] at hlegal
  constructor
  · intro hun
    rw [hu] at hun
    exfalso
    rcases hlegal with hsame | hmem
    · rw [hsame] at hun
      exact hun.elim (fun h => (by cases h)) (fun h => (by cases h))
    · exact (JobStatus.unsent_of_transition hmem hun).elim (fun h => (by cases h)) (fun h => (by cases h))
  · intro hc
    have hledger : u.1.calls = editCall j.1.calls r.callId (settledCall r) := settledLedger_calls h hcalls
    have hcount : u.1.billedCalls = some (succeededCalls u.1.calls : Int) := by
      rw [hledger, hu]
      simp [JobChanges.apply, hbilled, settledLedger]
    rw [hcount, Option.getD_some]
    exact_mod_cast succeededCalls_pos hc

theorem JobEdit.accounted {q : Request} {key : String} {j u : StoredJob} (h : JobEdit q key j u)
    (hq : BillingRule q) (hj : Accounted j) : Accounted u := by
  -- an edit that keeps ledger and count, from one status to another
  have kept (hcalls : u.1.calls = j.1.calls) (hbilled : u.1.billedCalls = j.1.billedCalls)
      (hun : u.1.status = .queued ∨ u.1.status = .prepared → j.1.status = .queued ∨ j.1.status = .prepared) :
      Accounted u :=
    ⟨fun h => hcalls.trans (hj.unsent (hun h)), fun h => by rw [hbilled]; exact hj.counted (hcalls ▸ h)⟩
  -- an edit that ends a job after a sweep
  have swept {w : Sweep} (hw : Swept w j.1.calls u.1.calls) (ho : w.outcome ≠ .succeeded)
      (hbilled : u.1.billedCalls = j.1.billedCalls)
      (hun : u.1.status = .queued ∨ u.1.status = .prepared → u.1.calls = []) : Accounted u :=
    ⟨hun, fun h => by rw [hbilled]; exact hj.counted (hw.billed ho h)⟩
  cases h with
  | claim h =>
    rcases claimRecord_ok h with ⟨hst, hu⟩ | ⟨hst, hu⟩
    · exact kept (by rw [hu]) (by rw [hu]) (fun _ => .inl hst)
    · exact kept (by rw [hu]) (by rw [hu]) (fun h => by rw [hu] at h; exact h)
  | claimNext h =>
    rcases claimRecord_ok h with ⟨hst, hu⟩ | ⟨hst, hu⟩
    · exact kept (by rw [hu]) (by rw [hu]) (fun _ => .inl hst)
    · exact kept (by rw [hu]) (by rw [hu]) (fun h => by rw [hu] at h; exact h)
  | transition h =>
    obtain ⟨hcalls, -, -, hbilled⟩ := hq _ rfl
    obtain ⟨-, hexp, hlegal, hu⟩ := transitionRecord_ok h
    refine kept ?_ ?_ (fun hun => ?_)
    · rw [hu]; exact congrArg (fun o => Option.getD o j.1.calls) hcalls
    · rw [hu]; exact congrArg (fun o => Option.getD o j.1.billedCalls) hbilled
    · rw [hu] at hun
      rcases hlegal with hmem | ⟨hsame, -⟩
      · exact JobStatus.unsent_of_transition hmem hun
      · rw [hexp, ← hsame]
        exact hun
  | beginCall d hc h =>
    have hu := nextRevision_ok_iff.1 h
    constructor
    · intro hun
      rw [hu] at hun
      exact hun.elim (fun h => nomatch h) (fun h => nomatch h)
    · rintro ⟨c, hmem, hb⟩
      rw [hu] at hmem ⊢
      rcases List.mem_append.1 hmem with hmem | hmem
      · exact hj.counted ⟨c, hmem, hb⟩
      · rw [List.mem_singleton] at hmem
        rw [hmem] at hb
        simp [Call.billed, dispatchedCall] at hb
  | settleCall target ht h => exact Accounted.settle ht h hq.1 hq.2.2.2.1 hq.2.2.2.2
  | abandon hst _ hw h =>
    have hu := nextRevision_ok_iff.1 h
    rw [hj.unsent hst] at hw
    cases hw
    have hcalls : u.1.calls = [] := by rw [hu]; rfl
    exact ⟨fun _ => hcalls, fun ⟨c, hc, _⟩ => by rw [hcalls] at hc; cases hc⟩
  | request hst h =>
    have hu := nextRevision_ok_iff.1 h
    exact kept (by rw [hu]) (by rw [hu]) (fun h => by rw [hu] at h; exact h)
  | withdraw _ h =>
    have hu := nextRevision_ok_iff.1 h
    exact kept (by rw [hu]) (by rw [hu]) (fun h => by
      rw [hu] at h
      exact h.elim (fun h => nomatch h) (fun h => nomatch h))
  | requeue hst _ h =>
    have hu := nextRevision_ok_iff.1 h
    exact kept (by rw [hu]) (by rw [hu]) (fun _ => .inr hst)
  | interrupt hst hw h =>
    have hu := nextRevision_ok_iff.1 h
    refine swept (w := recoverySweep _) (by rw [hu]; exact hw) (fun h => nomatch h) (by rw [hu]; rfl) (fun h => ?_)
    rw [hu] at h
    exact h.elim (fun h => nomatch h) (fun h => nomatch h)
  | publish _ _ h =>
    have hu := nextRevision_ok_iff.1 h
    exact kept (by rw [hu]) (by rw [hu]) (fun h => by
      rw [hu] at h
      exact h.elim (fun h => nomatch h) (fun h => nomatch h))
  | cancelStopped hst _ hw =>
    rw [hj.unsent hst] at hw
    cases hw
    exact ⟨fun _ => rfl, fun ⟨c, hc, _⟩ => nomatch hc⟩
  | recoveryStopped hst hw =>
    refine swept (w := recoverySweep _) hw (fun h => nomatch h) rfl (fun h => ?_)
    have hun : j.1.status = .queued ∨ j.1.status = .prepared := h
    rw [hst] at hun
    exact hun.elim (fun h => nomatch h) (fun h => nomatch h)

theorem accounted_run {σ : Type} {S : JobSystem σ} {s : σ} {requests : List Request} (start : S.Empty s)
    (h : ∀ q ∈ requests, BillingRule q) :
    ∀ k j, S.job (run S.step s requests) k = some j → Accounted j := by
  refine JobSystem.forall_jobs_run (P := fun _ => Accounted) start (along_of_forall h) (fun _ j hq => ?_)
    (fun _ q key j u hq _ _ hj he => he.accounted hq hj)
  have hcalls : j.1.calls = [] := hq.2
  exact ⟨fun _ => hcalls, fun ⟨c, hc, _⟩ => by rw [hcalls] at hc; cases hc⟩

/-- Why a cancellation may report zero billed calls: the job was not sent, or its count is zero. -/
def ZeroBilled (r : CancelRequest) (j : StoredJob) (reply : CancelReply) : Prop :=
  ((j.1.status = .queued ∨ j.1.status = .prepared) ∧ Swept (cancelSweep r) j.1.calls reply.job.calls) ∨
    (reply.outcome ≠ .cancelled ∧ reply.job.calls = j.1.calls ∧ j.1.billedCalls.getD 0 = 0)

theorem Backend.cancel_zeroBilled {ρ : Type} {b : Backend ρ} {l : Ledgers ρ} (r : CancelRequest) :
    Op.wp (b.cancel r) l (fun reply _ => reply.billedCalls = some 0 →
      ∃ j, b.job l r.jobId = some j ∧ ZeroBilled r j reply) (fun _ _ => True) := by
  simp only [cancel, wp_commit, Op.wp_bind]
  refine wp_require (fun j hj => ?_) (fun _ => trivial)
  refine Op.wp_mono (?_ : Op.wp _ l (fun reply _ => reply.billedCalls = some 0 → ZeroBilled r j reply) (fun _ _ => True))
    (fun reply _ hz h => ⟨j, hj, hz h⟩) (fun _ _ _ => trivial)
  have abandoned (hst : j.1.status = .queued ∨ j.1.status = .prepared) :
      Op.wp (b.abandon r j) l (fun reply _ => reply.billedCalls = some 0 → ZeroBilled r j reply)
        (fun _ _ => True) := by
    simp only [abandon, Op.wp_bind, Op.wp_lift, Op.wp_pure, wp_sweepCalls]
    refine ⟨fun _ _ => ⟨fun _ => ⟨fun u hu => ?_, fun _ _ => trivial⟩, fun _ _ => trivial⟩, fun _ _ => trivial⟩
    refine wp_write (fun _ _ => .inl ⟨hst, ?_⟩) (fun _ => trivial)
    rw [nextRevision_ok_iff.1 hu]
    exact sweep_swept _ _ _
  have withdrawn : Op.wp (b.withdraw r j) l
      (fun reply _ => reply.billedCalls = some 0 → ZeroBilled r j reply) (fun _ _ => True) := by
    simp only [withdraw, Op.wp_bind, Op.wp_lift, Op.wp_pure]
    refine ⟨fun u hu => wp_write (fun _ hz => .inr ⟨(fun h => (by cases h)), ?_, ?_⟩) (fun _ => trivial),
      fun _ _ => trivial⟩
    · rw [nextRevision_ok_iff.1 hu]
    · have hz' : u.1.billedCalls.getD 0 = 0 := Option.some.inj hz
      rw [nextRevision_ok_iff.1 hu] at hz'
      exact hz'
  split
  · exact fun h => (by cases h)
  · exact fun h => (by cases h)
  · exact fun h => (by cases h)
  · rename_i hst
    exact abandoned (.inl hst)
  · rename_i hst
    exact abandoned (.inr hst)
  · unfold requestCancel
    split
    · exact fun h => (by cases h)
    · simp only [Op.wp_bind, Op.wp_lift, Op.wp_pure]
      exact ⟨fun _ _ => wp_write (fun _ h => (by cases h)) (fun _ => trivial), fun _ _ => trivial⟩
  · exact withdrawn
  · exact withdrawn

/-- The calls of a job that an unsent or uncounted cancellation reports. -/
theorem ZeroBilled.ledger {r : CancelRequest} {j : StoredJob} {reply : CancelReply}
    (h : ZeroBilled r j reply) (hj : Accounted j) :
    (reply.outcome = .cancelled → reply.job.calls = []) ∧ ∀ c ∈ reply.job.calls, c.billed = false := by
  rcases h with ⟨hst, hw⟩ | ⟨hout, hcalls, hzero⟩
  · rw [hj.unsent hst] at hw
    have hnil : reply.job.calls = [] := List.forall₂_nil_left_iff.1 hw
    exact ⟨fun _ => hnil, fun c hc => by rw [hnil] at hc; cases hc⟩
  · refine ⟨fun h => absurd h hout, fun c hc => ?_⟩
    rw [hcalls] at hc
    by_contra hb
    have := hj.counted ⟨c, hc, by simpa using hb⟩
    omega

/-- Cancellation is final. No call is sent once it was requested, whatever came
before. In a run within the rule, a cancellation that reports zero billed calls
leaves an empty ledger if it found the job queued or prepared, and no landed call
that succeeded in any case. -/
structure CancelsForGood {σ : Type} (S : JobSystem σ) (start : σ) : Prop where
  refuses : ∀ before after r j, (∀ q ∈ after, KeepsCancellation q) →
    S.job (run S.step start before) r.jobId = some j → j.1.cancelRequested = true →
    ∃ e, (S.serve (.job (.beginCall r)) (run S.step start (before ++ after))).1 = .error e
  zero : ∀ requests r reply, (∀ q ∈ requests, BillingRule q) →
    (S.serve (.job (.cancel r)) (run S.step start requests)).1 = .ok (.job (.cancelled reply)) →
    reply.billedCalls = some 0 →
    (reply.outcome = .cancelled → reply.job.calls = []) ∧ ∀ c ∈ reply.job.calls, c.billed = false

theorem JobSystem.Empty.cancelsForGood {σ : Type} {S : JobSystem σ} {start : σ} (h : S.Empty start) :
    CancelsForGood S start where
  refuses := by
    intro before after r j hrule hj hr
    rw [run_append]
    obtain ⟨j', hj', hr'⟩ := cancelRequested_run (h.keyed_run before) hrule hj hr
    have hrefused := Backend.beginCall_refused hj' hr'
    rw [S.replies]
    rcases hx : S.backend.beginCall r (S.ledgers (run S.step (run S.step start before) after)) with ⟨e | u, l⟩
    · simp only [Backend.serve, Op.bind_of_error hx]
      exact ⟨e, rfl⟩
    · rw [Op.wp_of_ok hx] at hrefused
      exact hrefused.elim
  zero := by
    intro requests r reply hrule hx hz
    have hcancel := Backend.cancel_zeroBilled (b := S.backend) (l := S.ledgers (run S.step start requests)) r
    rw [S.replies] at hx
    rcases hc : S.backend.cancel r (S.ledgers (run S.step start requests)) with ⟨e | reply', l⟩
    · simp only [Backend.serve, Op.bind_of_error hc] at hx
      cases hx
    · simp only [Backend.serve, Op.bind_of_ok hc] at hx
      cases hx
      rw [Op.wp_of_ok hc] at hcancel
      obtain ⟨j, hj, hzero⟩ := hcancel hz
      exact hzero.ledger (accounted_run h hrule _ j hj)

theorem cancellation_final : CancelsForGood sqliteSystem ∅ ∧ CancelsForGood memorySystem ∅ :=
  ⟨sqliteSystem_empty.cancelsForGood, memorySystem_empty.cancelsForGood⟩

/-- The sample job is settled with its one call failed. -/
def settledFailed : List Request := [
  .job (.submit sampleJob), .job (.claim "job" "t"), .job (.beginCall (sampleBegin "a" 2)),
  .job (.settleCall (sampleSettle "a" 3 .failed .settled))]

/-- The answer to a cancellation. -/
def cancelReply : Except Err Reply → Option CancelReply
  | .ok (.job (.cancelled reply)) => some reply
  | _ => none

theorem eq_of_cancelReply {x : Except Err Reply} {reply : CancelReply} (h : cancelReply x = some reply) :
    x = .ok (.job (.cancelled reply)) := by
  unfold cancelReply at h
  split at h
  · cases h
    rfl
  · cases h

/-- A settled job whose call failed is cancelled with zero billed calls and a call in its ledger. -/
theorem zero_billed_with_calls :
    (cancelReply (sqliteSystem.serve (.job (.cancel ⟨"job", "user", "late", "t"⟩))
      (run sqliteSystem.step ∅ settledFailed)).1).map (fun reply => (reply.billedCalls, reply.job.calls.length)) =
        some (some 0, 1) ∧
    (cancelReply (memorySystem.serve (.job (.cancel ⟨"job", "user", "late", "t"⟩))
      (run memorySystem.step ∅ settledFailed)).1).map (fun reply => (reply.billedCalls, reply.job.calls.length)) =
        some (some 0, 1) := by decide

/-- The sample job is cancelled while its first call is in flight. -/
def cancelledMidway : List Request := [
  .job (.submit sampleJob), .job (.claim "job" "t"), .job (.beginCall (sampleBegin "a" 2)),
  .job (.cancel ⟨"job", "user", "late", "t"⟩)]

/-- The second call of a job cancelled midway is refused, and a job cancelled before
it was claimed has an empty ledger. -/
theorem cancelled_job_sends_nothing :
    (∃ e, (sqliteSystem.serve (.job (.beginCall (sampleBegin "b" 4)))
      (run sqliteSystem.step ∅ (cancelledMidway ++ [.job (.recoverInterrupted "t")]))).1 = .error e) ∧
    ∃ reply, (sqliteSystem.serve (.job (.cancel ⟨"job", "user", "early", "t"⟩))
      (run sqliteSystem.step ∅ [.job (.submit sampleJob)])).1 = .ok (.job (.cancelled reply)) ∧
      reply.job.calls = [] := by
  constructor
  · have h : (sqliteSystem.job (run sqliteSystem.step ∅ cancelledMidway) "job").map (·.1.cancelRequested) =
        some true := by decide
    obtain ⟨j, hj, hr⟩ := Option.map_eq_some_iff.1 h
    refine cancellation_final.1.refuses cancelledMidway _ (sampleBegin "b" 4) j (fun q hq => ?_) hj hr
    rw [List.mem_singleton.1 hq]
    exact fun c hc => nomatch hc
  · have h : (cancelReply (sqliteSystem.serve (.job (.cancel ⟨"job", "user", "early", "t"⟩))
        (run sqliteSystem.step ∅ [.job (.submit sampleJob)])).1).map
          (fun reply => (reply.billedCalls, reply.outcome)) = some (some 0, .cancelled) := by decide
    obtain ⟨reply, hx, hz⟩ := Option.map_eq_some_iff.1 h
    refine ⟨reply, eq_of_cancelReply hx, ?_⟩
    refine (cancellation_final.1.zero _ _ reply (fun q hq => ?_) (eq_of_cancelReply hx)
      (Prod.ext_iff.1 hz).1).1 (Prod.ext_iff.1 hz).2
    rw [List.mem_singleton.1 hq]
    exact ⟨rfl, rfl⟩

end Motte.Storage
