import Motte.Storage.CallLedger
import Motte.Storage.JobSystem

/-! The life of a job: terminal states, and calls in flight. -/
namespace Motte.Storage
open Foundation

/-! ### Terminal states are absorbing -/

/-- What is final about a terminal job: its status, its calls, its result and its receipt. -/
structure SameOutcome (j j' : StoredJob) : Prop where
  status : j'.1.status = j.1.status
  calls : j'.1.calls = j.1.calls
  result : j'.1.result = j.1.result
  receipt : j'.1.receipt = j.1.receipt

theorem SameOutcome.refl (j : StoredJob) : SameOutcome j j := ⟨rfl, rfl, rfl, rfl⟩

theorem SameOutcome.trans {a b c : StoredJob} (h : SameOutcome a b) (h' : SameOutcome b c) :
    SameOutcome a c where
  status := h'.status.trans h.status
  calls := h'.calls.trans h.calls
  result := h'.result.trans h.result
  receipt := h'.receipt.trans h.receipt

/-- A terminal job is edited by a transition that keeps its status or, if it has
failed, by a cancellation; nothing else gets past its status check. -/
theorem JobEdit.of_terminal {q : Request} {key : String} {j u : StoredJob} (h : JobEdit q key j u)
    (ht : j.1.status.terminal = true) :
    (∃ r, q = .job (.transition r) ∧ transitionRecord r j = .ok u) ∨
      ∃ r, q = .job (.cancel r) ∧ r.jobId = key ∧ j.1.status = .failed := by
  have open_ {st : JobStatus} (hst : j.1.status = st) (hopen : st.terminal = false) : False := by
    rw [hst, hopen] at ht
    cases ht
  have either {a b : JobStatus} (hst : j.1.status = a ∨ j.1.status = b) (ha : a.terminal = false)
      (hb : b.terminal = false) : False := hst.elim (open_ · ha) (open_ · hb)
  cases h with
  | claim h =>
    rcases claimRecord_ok h with ⟨hst, -⟩ | ⟨hst, -⟩
    · exact (open_ hst rfl).elim
    · exact (open_ hst rfl).elim
  | claimNext h =>
    rcases claimRecord_ok h with ⟨hst, -⟩ | ⟨hst, -⟩
    · exact (open_ hst rfl).elim
    · exact (open_ hst rfl).elim
  | transition h => exact .inl ⟨_, rfl, h⟩
  | beginCall _ hc _ => exact (either (checkDispatch_ok hc).2.1 rfl rfl).elim
  | settleCall _ hs _ => exact (open_ (settleTarget_ok hs).2.1 rfl).elim
  | abandon hst => exact (either hst rfl rfl).elim
  | request hst => exact (open_ hst rfl).elim
  | withdraw hst _ =>
    rcases hst with hst | hst
    · exact (open_ hst rfl).elim
    · exact .inr ⟨_, rfl, rfl, hst⟩
  | requeue hst => exact (open_ hst rfl).elim
  | interrupt hst => exact (open_ hst rfl).elim
  | publish hst => exact (either hst rfl rfl).elim
  | cancelStopped hst => exact (either hst rfl rfl).elim
  | recoveryStopped hst => exact (open_ hst rfl).elim

/-- A transition of a terminal job keeps its status, and its outcome unless the
changes name a part of it. -/
theorem transitionRecord_terminal {r : TransitionRequest} {j u : StoredJob}
    (h : transitionRecord r j = .ok u) (ht : j.1.status.terminal = true) (hcalls : r.changes.calls = none)
    (hresult : r.changes.result = none) (hreceipt : r.changes.receipt = none) : SameOutcome j u := by
  obtain ⟨-, hst, hlegal, hu⟩ := transitionRecord_ok h
  have hnone : j.1.status.transitions = [] := by
    cases hs : j.1.status <;> rw [hs] at ht <;> first | rfl | cases ht
  rcases hlegal with hmem | ⟨hsame, -⟩
  · rw [hnone] at hmem
    cases hmem
  · constructor
    · rw [hu, hst]; exact hsame
    · rw [hu]; simp [JobChanges.apply, hcalls]
    · rw [hu]; simp [JobChanges.apply, hresult]
    · rw [hu]; simp [JobChanges.apply, hreceipt]

section Absorbing
variable {σ : Type} (S : JobSystem σ)

/-- Transitions do not name calls, result or receipt in their changes; in a
transactional store a transition that keeps a terminal status does not name another
job id; and no cancellation addresses a failed job. -/
def AbsorbingRule (s : σ) : Request → Prop
  | .job (.transition r) =>
    (r.changes.calls = none ∧ r.changes.result = none ∧ r.changes.receipt = none) ∧
      (S.backend.transactional = true → r.expectedStatus.terminal = true → r.changes.jobId = none)
  | .job (.cancel r) => ∀ j, S.job s r.jobId = some j → j.1.status ≠ .failed
  | _ => True

variable {S}

theorem terminal_step {s : σ} {q : Request} {k : String} {j : StoredJob} (hk : S.Keyed s)
    (hq : AbsorbingRule S s q) (hj : S.job s k = some j) (ht : j.1.status.terminal = true) :
    ∃ j', S.job (S.step q s) k = some j' ∧ SameOutcome j j' := by
  rcases S.moves q s hk k with hs | ⟨u, hu, hc⟩
  · exact ⟨j, hs.trans hj, SameOutcome.refl j⟩
  refine ⟨u, hu, ?_⟩
  rcases hc with ⟨hnone, -, -⟩ | ⟨key, old, hold, he, hm, htarget⟩
  · cases hnone.symm.trans hj
  -- the edited job is terminal too: in a transactional store the row that is
  -- written has the same status, in the other it is the same row
  have hold_terminal : old.1.status.terminal = true := by
    cases hb : S.backend.transactional with
    | false =>
      rw [Backend.target, if_neg (by simp [hb])] at htarget
      subst htarget
      cases hold.symm.trans hj
      exact ht
    | true =>
      obtain ⟨row, hrow, hst, -⟩ := hm hb
      rw [Backend.target, if_pos hb] at htarget
      subst htarget
      cases hrow.symm.trans hj
      rw [← hst]
      exact ht
  rcases he.of_terminal hold_terminal with ⟨r, rfl, hr⟩ | ⟨r, rfl, rfl, hfailed⟩
  · have hsame := transitionRecord_terminal hr hold_terminal hq.1.1 hq.1.2.1 hq.1.2.2
    suffices hkey : key = k by
      subst hkey
      cases hold.symm.trans hj
      exact hsame
    rw [htarget, Backend.target]
    split
    · rename_i hb
      obtain ⟨-, hst, -, hrec⟩ := transitionRecord_ok hr
      have hid : u.1.jobId = old.1.jobId := by
        rw [hrec]
        simp [JobChanges.apply, hq.2 hb (hst ▸ hold_terminal)]
      rw [hid, hk hb key old hold]
    · rfl
  · exact absurd hfailed (hq old hold)

/-- Once a job is terminal, its outcome is the same in every later state. -/
theorem terminal_run {s : σ} {requests : List Request} {k : String} {j : StoredJob} (hk : S.Keyed s)
    (h : Along S.step (AbsorbingRule S) s requests) (hj : S.job s k = some j)
    (ht : j.1.status.terminal = true) :
    ∃ j', S.job (run S.step s requests) k = some j' ∧ SameOutcome j j' := by
  induction requests generalizing s j with
  | nil => exact ⟨j, hj, SameOutcome.refl j⟩
  | cons q rest ih =>
    obtain ⟨j', hj', hsame⟩ := terminal_step hk h.1 hj ht
    obtain ⟨j'', hj'', hsame'⟩ := ih (JobSystem.keyed_step q hk) h.2 hj' (hsame.status ▸ ht)
    exact ⟨j'', hj'', hsame.trans hsame'⟩

end Absorbing

/-- A job that is terminal after some requests, whatever they are, keeps its outcome through
those that follow within the rule. -/
def AbsorbsTerminal {σ : Type} (S : JobSystem σ) (start : σ) (before after : List Request) : Prop :=
  ∀ k j, Along S.step (AbsorbingRule S) (run S.step start before) after →
    S.job (run S.step start before) k = some j → j.1.status.terminal = true →
    ∃ j', S.job (run S.step start (before ++ after)) k = some j' ∧ SameOutcome j j'

theorem JobSystem.Empty.absorbsTerminal {σ : Type} {S : JobSystem σ} {start : σ} (h : S.Empty start)
    (before after : List Request) :
    AbsorbsTerminal S start before after := by
  intro k j hrule hj ht
  rw [run_append]
  exact terminal_run (h.keyed_run before) hrule hj ht

theorem terminal_jobs_absorbing (before after : List Request) :
    AbsorbsTerminal sqliteSystem ∅ before after ∧ AbsorbsTerminal memorySystem ∅ before after :=
  ⟨sqliteSystem_empty.absorbsTerminal before after, memorySystem_empty.absorbsTerminal before after⟩

/-- The sample job, given up before it was claimed. -/
def giveUp : List Request := [
  .job (.submit sampleJob),
  .job (.transition {jobId := "job", expectedRevision := 1, expectedStatus := .queued, status := .failed})]

/-- Cancelling a failed job makes it cancelled, in either store. -/
theorem cancel_failed_job :
    (sqliteSystem.job (run sqliteSystem.step ∅ giveUp) "job").map (·.1.status) = some .failed ∧
    (sqliteSystem.job (run sqliteSystem.step ∅ (giveUp ++ [.job (.cancel ⟨"job", "user", "late", "t"⟩)]))
      "job").map (·.1.status) = some .cancelled ∧
    (memorySystem.job (run memorySystem.step ∅ giveUp) "job").map (·.1.status) = some .failed ∧
    (memorySystem.job (run memorySystem.step ∅ (giveUp ++ [.job (.cancel ⟨"job", "user", "late", "t"⟩)]))
      "job").map (·.1.status) = some .cancelled := by decide

/-- A run in which the failed sample job is claimed, to no effect. -/
theorem failed_job_stays_failed :
    ∃ j', sqliteSystem.job (run sqliteSystem.step ∅ (giveUp ++ [.job (.claim "job" "t")])) "job" = some j' ∧
      j'.1.status = .failed := by
  have h : (sqliteSystem.job (run sqliteSystem.step ∅ giveUp) "job").map (·.1.status) = some .failed := by decide
  obtain ⟨j, hj, hst⟩ := Option.map_eq_some_iff.1 h
  obtain ⟨j', hj', same⟩ := (terminal_jobs_absorbing giveUp [.job (.claim "job" "t")]).1 "job" j
    ⟨trivial, trivial⟩ hj (by rw [hst]; rfl)
  exact ⟨j', hj', same.status.trans hst⟩

/-! ### Nothing in flight once a job is settled -/

/-- The statuses in which no call of the job may be in flight. -/
def JobStatus.quiet : JobStatus → Bool
  | .queued | .prepared | .settled | .completed => true
  | .dispatching | .failed | .cancelled | .indeterminate => false

/-- A job that is not quiet becomes so by being settled only. -/
theorem JobStatus.quiet_of_transition {a b : JobStatus} (h : b ∈ a.transitions) (hb : b.quiet = true)
    (hs : b ≠ .settled) : a.quiet = true := by
  cases a <;> cases b <;> simp_all [JobStatus.transitions, JobStatus.quiet]

/-- Call ids are distinct, and no call is in flight in a quiet status. -/
structure Landed (j : StoredJob) : Prop where
  distinct : (j.1.calls.map (·.callId)).Nodup
  landed : j.1.status.quiet = true → ∀ c ∈ j.1.calls, c.status ≠ .dispatching

section Landed
variable {σ : Type} (S : JobSystem σ)

/-- Jobs are submitted with an empty ledger, changes do not name the calls, and a
job is not settled (nor put back) while a call other than the one that lands is in flight. -/
def LandedRule (s : σ) : Request → Prop
  | .job (.submit record) => record.calls = []
  | .job (.transition r) => r.changes.calls = none ∧
      (r.status = .settled → ∀ j, S.job s r.jobId = some j → j.1.inFlight = false)
  | .job (.settleCall r) => r.jobChanges.calls = none ∧
      (r.jobStatus.quiet = true → ∀ j, S.job s r.jobId = some j →
        ∀ c ∈ j.1.calls, c.callId ≠ r.callId → c.status ≠ .dispatching)
  | _ => True

variable {S}

theorem LandedRule.leavesCalls {s : σ} {q : Request} (h : LandedRule S s q) : LeavesCalls q := by
  intro c hc
  unfold Request.changes at hc
  split at hc
  · cases hc
    exact h.1
  · cases hc
    exact h.1
  · cases hc

theorem transition_landed {r : TransitionRequest} {j u : StoredJob} (hj : Landed j)
    (h : transitionRecord r j = .ok u) (hcalls : r.changes.calls = none)
    (settles : r.status = .settled → j.1.inFlight = false) (hu : u.1.status.quiet = true) :
    ∀ c ∈ u.1.calls, c.status ≠ .dispatching := by
  obtain ⟨-, hexp, hlegal, hrec⟩ := transitionRecord_ok h
  have hsame : u.1.calls = j.1.calls := by
    rw [hrec]
    exact congrArg (fun o => Option.getD o j.1.calls) hcalls
  have hst : u.1.status = r.status := by rw [hrec]
  rw [hsame]
  by_cases hs : r.status = .settled
  · exact inFlight_eq_false.1 (settles hs)
  · refine hj.landed ?_
    rw [hst] at hu
    rcases hlegal with hmem | ⟨heq, -⟩
    · exact JobStatus.quiet_of_transition hmem hu hs
    · rw [hexp, ← heq]
      exact hu

theorem settle_landed {r : SettleCallRequest} {j u : StoredJob} (hj : Landed j)
    (h : settleRecord r j = .ok u) (hcalls : r.jobChanges.calls = none)
    (others : r.jobStatus.quiet = true → ∀ c ∈ j.1.calls, c.callId ≠ r.callId → c.status ≠ .dispatching)
    (hu : u.1.status.quiet = true) : ∀ c ∈ u.1.calls, c.status ≠ .dispatching := by
  have hst : u.1.status = r.jobStatus := by rw [(settleRecord_ok h).2]
  rw [hst] at hu
  intro c hc
  rw [settledLedger_calls h hcalls, mem_editCall hj.distinct] at hc
  rcases hc with ⟨hc, hne⟩ | ⟨old, -, -, rfl⟩
  · exact others hu c hc hne
  · exact fun h => nomatch h

theorem JobEdit.landed {s : σ} {q : Request} {key : String} {j u : StoredJob} (h : JobEdit q key j u)
    (hq : LandedRule S s q) (hkey : S.job s key = some j) (hj : Landed j) : Landed u := by
  refine ⟨h.callIds_nodup hq.leavesCalls hj.distinct, fun hu => ?_⟩
  have kept {st : JobStatus} (hcalls : u.1.calls = j.1.calls) (hst : j.1.status = st)
      (hquiet : st.quiet = true) : ∀ c ∈ u.1.calls, c.status ≠ .dispatching := by
    rw [hcalls]
    exact hj.landed (by rw [hst, hquiet])
  cases h with
  | claim h =>
    rcases claimRecord_ok h with ⟨hst, hrec⟩ | ⟨hst, hrec⟩
    · exact kept (by rw [hrec]) hst rfl
    · exact kept (by rw [hrec]) hst rfl
  | claimNext h =>
    rcases claimRecord_ok h with ⟨hst, hrec⟩ | ⟨hst, hrec⟩
    · exact kept (by rw [hrec]) hst rfl
    · exact kept (by rw [hrec]) hst rfl
  | transition h => exact transition_landed hj h hq.1 (fun hs => hq.2 hs j hkey) hu
  | beginCall _ _ h =>
    rw [nextRevision_ok_iff.1 h] at hu
    cases hu
  | settleCall _ _ h => exact settle_landed hj h hq.1 (fun hs => hq.2 hs j hkey) hu
  | abandon _ _ _ h =>
    rw [nextRevision_ok_iff.1 h] at hu
    cases hu
  | request hst h =>
    rw [nextRevision_ok_iff.1 h] at hu
    rw [show j.1.status = .dispatching from hst] at hu
    cases hu
  | withdraw _ h =>
    rw [nextRevision_ok_iff.1 h] at hu
    cases hu
  | requeue hst _ h => exact kept (by rw [nextRevision_ok_iff.1 h]) hst rfl
  | interrupt _ _ h =>
    rw [nextRevision_ok_iff.1 h] at hu
    cases hu
  | publish hst _ h =>
    rcases hst with hst | hst
    · exact kept (by rw [nextRevision_ok_iff.1 h]) hst rfl
    · exact kept (by rw [nextRevision_ok_iff.1 h]) hst rfl
  | cancelStopped _ quiet hw => exact hw.quiet (inFlight_eq_false.1 quiet)
  | recoveryStopped hst _ =>
    have hdispatching : j.1.status.quiet = true := hu
    rw [hst] at hdispatching
    cases hdispatching

theorem landed_run {s : σ} {requests : List Request} (start : S.Empty s)
    (h : Along S.step (LandedRule S) s requests) :
    ∀ k j, S.job (run S.step s requests) k = some j → Landed j := by
  refine JobSystem.forall_jobs_run (P := fun _ => Landed) start h (fun s j hq => ?_)
    (fun s q key j u hq _ hkey hj he => ?_)
  · have hcalls : j.1.calls = [] := hq
    exact ⟨by rw [hcalls]; exact List.nodup_nil, fun _ c hc => by rw [hcalls] at hc; cases hc⟩
  · exact he.landed hq hkey hj

end Landed

/-- No job is settled or completed with a call in flight, once requests within the rule are served. -/
def LandsBeforeSettling {σ : Type} (S : JobSystem σ) (start : σ) (requests : List Request) : Prop :=
  ∀ k j, Along S.step (LandedRule S) start requests →
    S.job (run S.step start requests) k = some j → j.1.status = .settled ∨ j.1.status = .completed →
    ∀ c ∈ j.1.calls, c.status ≠ .dispatching

theorem JobSystem.Empty.landsBeforeSettling {σ : Type} {S : JobSystem σ} {start : σ} (h : S.Empty start)
    (requests : List Request) : LandsBeforeSettling S start requests := by
  intro k j hrule hj hst
  refine (landed_run h hrule k j hj).landed ?_
  rcases hst with hst | hst <;> rw [hst] <;> rfl

theorem settled_jobs_landed (requests : List Request) :
    LandsBeforeSettling sqliteSystem ∅ requests ∧ LandsBeforeSettling memorySystem ∅ requests :=
  ⟨sqliteSystem_empty.landsBeforeSettling requests, memorySystem_empty.landsBeforeSettling requests⟩

/-- A judge call of the sample job, sent at the given revision. -/
def sampleBegin (callId : String) (revision : Int) : BeginCallRequest where
  jobId := "job"
  expectedRevision := revision
  invocation := {
    id := callId
    runId := "run"
    caseId := "case"
    kind := .model
    step := 1
    purpose := .judge
    jobId := some "job" }
  call := { callId }
  now := "t"

def sampleSettle (callId : String) (revision : Int) (outcome : CallOutcome) (jobStatus : JobStatus) :
    SettleCallRequest where
  jobId := "job"
  expectedRevision := revision
  callId := callId
  outcome := outcome
  jobStatus := jobStatus
  now := "t"

/-- The sample job is claimed and sends two calls. -/
def twoCalls : List Request := [
  .job (.submit sampleJob), .job (.claim "job" "t"),
  .job (.beginCall (sampleBegin "a" 2)), .job (.beginCall (sampleBegin "b" 3))]

/-- The first of two calls lands and the job is settled, with the second in flight. -/
def settledEarly : List Request := twoCalls ++ [.job (.settleCall (sampleSettle "a" 4 .succeeded .settled))]

theorem settled_with_call_in_flight :
    (sqliteSystem.job (run sqliteSystem.step ∅ settledEarly) "job").map
      (fun j => (j.1.status, j.1.inFlight)) = some (.settled, true) ∧
    (memorySystem.job (run memorySystem.step ∅ settledEarly) "job").map
      (fun j => (j.1.status, j.1.inFlight)) = some (.settled, true) := by decide

/-- The sample job is settled with its one call. -/
def settledInTime : List Request := [
  .job (.submit sampleJob), .job (.claim "job" "t"), .job (.beginCall (sampleBegin "a" 2)),
  .job (.settleCall (sampleSettle "a" 3 .succeeded .settled))]

theorem settled_in_time_landed :
    ∃ j, memorySystem.job (run memorySystem.step ∅ settledInTime) "job" = some j ∧ j.1.status = .settled ∧
      ∀ c ∈ j.1.calls, c.status ≠ .dispatching := by
  have h : (memorySystem.job (run memorySystem.step ∅ settledInTime) "job").map (·.1.status) = some .settled := by
    decide
  have alone : (memorySystem.job (run memorySystem.step ∅ (settledInTime.take 3)) "job").all
      (fun j => j.1.calls.all (fun c => c.callId = "a")) = true := by decide
  obtain ⟨j, hj, hst⟩ := Option.map_eq_some_iff.1 h
  refine ⟨j, hj, hst, (settled_jobs_landed settledInTime).2 "job" j ?_ hj (.inl hst)⟩
  refine ⟨rfl, trivial, trivial, ⟨rfl, fun _ j hj c hc hne => ?_⟩, trivial⟩
  have hj' : memorySystem.job (run memorySystem.step ∅ (settledInTime.take 3)) "job" = some j := hj
  rw [hj', Option.all_some, List.all_eq_true] at alone
  exact absurd (of_decide_eq_true (alone c hc)) hne

end Motte.Storage
