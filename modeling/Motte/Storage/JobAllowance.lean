import Motte.Storage.CallLedger
import Motte.Storage.JobLifecycle

/-! The frozen allowance of a job.

A call is sent only if its reservation, with those of all calls in the ledger,
fits the allowance the job was submitted with. The terms of a call outlive its
settlement, however it ends, so the bound holds of the ledger ever after. Tokens
and calls are counted exactly. Costs are binary64 numbers, added as the language
adds them and compared with a slack of `costTolerance`. -/
namespace Motte.Storage
open Foundation

/-- The reserved cost of each call, if it is known. -/
def reservedCosts (calls : List Call) : List (Option Float) :=
  calls.map (fun c => c.reservation.bind (·.costUsd))

/-- The reservations of a ledger together fit an allowance. -/
structure Within (a : Allowance) (calls : List Call) : Prop where
  count : (calls.length : Int) ≤ a.maxCalls.getD 0
  prompt : reservedTokens (·.promptTokens) calls ≤ a.maxPromptTokens.getD 0
  completion : reservedTokens (·.completionTokens) calls ≤ a.maxCompletionTokens.getD 0
  known : a.maxCostUsd ≠ none → ∀ cost ∈ reservedCosts calls, cost ≠ none
  cost : ∀ m ∈ a.maxCostUsd, ¬ floatSum ((reservedCosts calls).filterMap id) > m + costTolerance

/-! ### The bound is a matter of the calls' terms -/

theorem reservedTokens_eq (key : Reservation → Option Int) (calls : List Call) :
    reservedTokens key calls = ((calls.map Call.terms).map (fun t => (t.2.bind key).getD 0)).sum := by
  simp [reservedTokens, List.map_map, Function.comp_def, Call.terms]

theorem reservedCosts_eq (calls : List Call) :
    reservedCosts calls = (calls.map Call.terms).map (fun t => t.2.bind (·.costUsd)) := by
  simp [reservedCosts, List.map_map, Function.comp_def, Call.terms]

theorem Within.of_terms {a : Allowance} {calls calls' : List Call} (h : Within a calls)
    (ht : calls'.map Call.terms = calls.map Call.terms) : Within a calls' := by
  have hlen : calls'.length = calls.length := by simpa using congrArg List.length ht
  have htokens (key) : reservedTokens key calls' = reservedTokens key calls := by
    rw [reservedTokens_eq, reservedTokens_eq, ht]
  have hcosts : reservedCosts calls' = reservedCosts calls := by
    rw [reservedCosts_eq, reservedCosts_eq, ht]
  constructor
  · rw [hlen]; exact h.count
  · rw [htokens]; exact h.prompt
  · rw [htokens]; exact h.completion
  · rw [hcosts]; exact h.known
  · rw [hcosts]; exact h.cost

/-- A call that is let through keeps the ledger within the allowance. -/
theorem reserve_within {j : ScoringJob} {call : CallData} {a : Allowance}
    (h : reserveCallAllowance j call = .ok ()) (ha : j.allowance = some a) (c : Call)
    (hc : c.reservation = call.reservation) : Within a (j.calls ++ [c]) := by
  simp only [reserveCallAllowance, except_bind_ok_iff, ensure_ok_iff, exists_const, ha] at h
  obtain ⟨-, -, h⟩ := h
  cases hres : call.reservation with
  | none =>
    rw [hres] at h
    cases h
  | some res =>
    rw [hres] at h hc
    simp only [except_bind_ok_iff, ensure_ok_iff, exists_const] at h
    obtain ⟨hcalls, hprompt, hcompletion, hcost⟩ := h
    have tokens (key : Reservation → Option Int) :
        reservedTokens key (j.calls ++ [c]) = reservedTokens key j.calls + (key res).getD 0 := by
      simp [reservedTokens, hc]
    have costs : reservedCosts (j.calls ++ [c]) =
        j.calls.map (fun c => c.reservation.bind (·.costUsd)) ++ [res.costUsd] := by
      simp [reservedCosts, hc]
    constructor
    · simpa using hcalls
    · rw [tokens]; exact hprompt
    · rw [tokens]; exact hcompletion
    · intro hm cost hmem
      rw [costs] at hmem
      cases hmax : a.maxCostUsd with
      | none => exact absurd hmax hm
      | some m =>
        rw [hmax] at hcost
        simp only [except_bind_ok_iff, ensure_ok_iff, exists_const, List.all_eq_true] at hcost
        exact Option.isSome_iff_ne_none.1 (hcost.1 cost hmem)
    · intro m hm
      rw [costs]
      rw [Option.mem_def.1 hm] at hcost
      simp only [except_bind_ok_iff, ensure_ok_iff, exists_const] at hcost
      exact hcost.2

/-! ### Along a run -/

/-- Jobs are submitted with an empty ledger, and changes name neither the calls nor the allowance. -/
def AllowanceRule : Request → Prop
  | .job (.submit record) => record.calls = []
  | q => ∀ c ∈ q.changes, c.calls = none ∧ c.allowance = none

theorem AllowanceRule.changes {q : Request} (h : AllowanceRule q) :
    ∀ c ∈ q.changes, c.calls = none ∧ c.allowance = none := by
  unfold AllowanceRule at h
  split at h
  · exact fun c hc => nomatch hc
  · exact h

/-- Call ids are distinct, and the ledger of a job that has sent a call fits its allowance. -/
structure Bounded (j : StoredJob) : Prop where
  distinct : (j.1.calls.map (·.callId)).Nodup
  within : j.1.calls ≠ [] → ∀ a ∈ j.1.allowance, Within a j.1.calls

theorem JobEdit.allowance {q : Request} {key : String} {j u : StoredJob} (h : JobEdit q key j u)
    (hq : ∀ c ∈ q.changes, c.allowance = none) : u.1.allowance = j.1.allowance := by
  refine h.keeps (f := ScoringJob.allowance) (fun _ _ _ _ _ _ _ _ _ _ => rfl) (fun c hc j => ?_)
  simp [JobChanges.apply, hq c hc]

theorem JobEdit.bounded {q : Request} {key : String} {j u : StoredJob} (h : JobEdit q key j u)
    (hq : AllowanceRule q) (hj : Bounded j) : Bounded u := by
  have hcalls : LeavesCalls q := fun c hc => (hq.changes c hc).1
  refine ⟨h.callIds_nodup hcalls hj.distinct, fun hne a ha => ?_⟩
  rw [h.allowance (fun c hc => (hq.changes c hc).2)] at ha
  rcases h.terms hcalls with hsame | ⟨r, d, -, hc, hu⟩
  · refine (hj.within (fun hnil => hne ?_) a ha).of_terms hsame
    rw [hnil, List.map_nil, List.map_eq_nil_iff] at hsame
    exact hsame
  · rw [hu]
    exact reserve_within (checkDispatch_ok hc).2.2.2 ha _ rfl

section Run
variable {σ : Type} {S : JobSystem σ}

/-- Every stored job is bounded by the allowance of a job that was submitted; by
that of the job submitted under its key, if changes never name a job id. -/
theorem bounded_run {s : σ} {requests : List Request} (start : S.Empty s)
    (h : ∀ q ∈ requests, AllowanceRule q) {k : String} {j : StoredJob}
    (hj : S.job (run S.step s requests) k = some j) :
    Bounded j ∧ ∃ record, .job (.submit record) ∈ requests ∧ record.allowance = j.1.allowance ∧
      ((∀ q ∈ requests, KeepsId q) → record.jobId = k) := by
  have rule : Along S.step (fun _ q => AllowanceRule q ∧ q ∈ requests) s requests :=
    along_of_forall (fun q hq => ⟨h q hq, hq⟩)
  refine JobSystem.forall_jobs_run (P := fun k j => Bounded j ∧ ∃ record, .job (.submit record) ∈ requests ∧
      record.allowance = j.1.allowance ∧ ((∀ q ∈ requests, KeepsId q) → record.jobId = k))
    start rule ?_ ?_ k j hj
  · intro _ j ⟨hq, hmem⟩
    have hcalls : j.1.calls = [] := hq
    refine ⟨⟨by rw [hcalls]; exact List.nodup_nil, fun hne => absurd hcalls hne⟩, j.1, hmem, rfl, fun _ => rfl⟩
  · rintro s q key j u ⟨hq, hmem⟩ hk hkey ⟨hb, record, hrec, ha, hid⟩ he
    refine ⟨he.bounded hq hb, record, hrec, ?_, fun hkeeps => ?_⟩
    · rw [he.allowance (fun c hc => (hq.changes c hc).2), ha]
    · rw [hid hkeeps, JobSystem.target_of_keepsId hk hkey he (hkeeps q hmem)]

end Run

/-- The calls of a job that has sent any have distinct ids and fit the allowance
frozen at submission. -/
def KeepsAllowance {σ : Type} (S : JobSystem σ) (start : σ) : Prop :=
  ∀ requests k j, (∀ q ∈ requests, AllowanceRule q) → S.job (run S.step start requests) k = some j →
    Bounded j ∧ ∃ record, .job (.submit record) ∈ requests ∧ record.allowance = j.1.allowance ∧
      ((∀ q ∈ requests, KeepsId q) → record.jobId = k)

theorem allowance_never_exceeded : KeepsAllowance sqliteSystem ∅ ∧ KeepsAllowance memorySystem ∅ :=
  ⟨fun _ _ _ h hj => bounded_run sqliteSystem_empty h hj,
    fun _ _ _ h hj => bounded_run memorySystem_empty h hj⟩

/-- The sum of finite numbers as rationals. -/
def exactSum : List (Option Float) → Option ℚ
  | [] => some 0
  | cost :: rest => do
    let x ← cost.bind exactValue
    let total ← exactSum rest
    return x + total

/-- The reserved costs, as exact rationals, add up to more than the frozen maximum. -/
def ScoringJob.overspentExactly (j : ScoringJob) : Bool :=
  match exactSum (reservedCosts j.calls), (j.allowance.bind (·.maxCostUsd)).bind exactValue with
  | some total, some max => max < total
  | _, _ => false

/-- A free job sends a call that costs 10⁻¹² dollars. -/
def tinyCost : List Request := [
  .job (.submit {sampleJob with allowance := some {maxCalls := some 1, maxCostUsd := some 0.0}}),
  .job (.claim "job" "t"),
  .job (.beginCall {sampleBegin "a" 2 with
    call := {callId := "a", reservation := some {costUsd := some 1e-12}}})]

/-- The slack lets a job reserve more than its maximum. -/
theorem tiny_cost_exceeds_allowance :
    (sqliteSystem.job (run sqliteSystem.step ∅ tinyCost) "job").map (·.1.overspentExactly) = some true ∧
    (memorySystem.job (run memorySystem.step ∅ tinyCost) "job").map (·.1.overspentExactly) = some true := by
  decide +kernel

/-- The call of 10⁻¹² dollars is within the allowance as the store counts it. -/
theorem tiny_cost_bounded :
    ∃ j, memorySystem.job (run memorySystem.step ∅ tinyCost) "job" = some j ∧ j.1.calls.length = 1 ∧ Bounded j := by
  have h : (memorySystem.job (run memorySystem.step ∅ tinyCost) "job").map (·.1.calls.length) = some 1 := by
    decide +kernel
  obtain ⟨j, hj, hlen⟩ := Option.map_eq_some_iff.1 h
  refine ⟨j, hj, hlen, (allowance_never_exceeded.2 tinyCost "job" j (fun q hq => ?_) hj).1⟩
  simp only [tinyCost, List.mem_cons, List.not_mem_nil, or_false] at hq
  rcases hq with rfl | rfl | rfl
  · rfl
  · exact fun c hc => nomatch hc
  · exact fun c hc => nomatch hc

end Motte.Storage
