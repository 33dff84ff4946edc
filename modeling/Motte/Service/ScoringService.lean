import Motte.Storage.JobLifecycle

/-! Finalising a scoring job, and parsing its responses again.

A job whose calls have landed is finalised from the responses that it keeps: they are
parsed into metrics, and a job that may publish only scored metrics fails if there are
others. Such a job is meant to be parsed again at no cost. It never is: finalising fails
it under a code that `retry_parse` does not take, and no failed job may become settled
in any case. -/
namespace Motte.Service
open Foundation Storage

/-- What the service raises. -/
inductive ServiceErr where
  | store (e : Err)
  /-- `AttributeError` -/
  | attribute (message : String)

inductive MetricStatus where
  | scored
  | insufficientEvidence
  | evaluatorError
  | notApplicable
deriving DecidableEq

/-- `MetricResult`, with what it dumps to -/
structure Metric where
  metricId : String
  status : MetricStatus
  dump : Json := .null

/-- What a response is parsed to. -/
structure Parsed where
  status : String
  metrics : List Metric

/-- The parser and the checks on roles, as they are when a job is finalised. -/
structure Judging where
  /-- `JudgeSpec.criteria` -/
  criteria : ScoringJob → List String
  /-- the failure of `_subject_role_failure` -/
  roleFailure : ScoringJob → Option Json
  /-- `parse_pairwise_output` or `parse_judge_output`, with the metrics of what it gives -/
  parse : ScoringJob → Json → String → Json → Parsed

/-- What finalising a job returns: a view of the job, or what a cancellation came to. -/
inductive FinalReply where
  | job (job : ScoringJob)
  | cancelled (reply : CancelReply)

/-! ### Metrics -/

/-- `_missing_call_metrics` -/
def missingCallMetrics (J : Judging) (job : ScoringJob) (plan : Json) (call : Option Call) : List Metric :=
  (if plan.get "mode" = .str "pairwise" then ["pairwise_preference"] else J.criteria job).map fun metricId =>
    { metricId := metricId
      status := match call with
        | none => .insufficientEvidence
        | some _ => .evaluatorError }

/-- What the responses of a job come to. -/
structure Findings where
  metrics : List Metric := []
  parseFailures : List String := []

/-- One plan of a job, given the call that was made for it. -/
def judgePlan (J : Judging) (job : ScoringJob) (plan : Json) (call : Option Call) : Findings :=
  match call with
  | none => { metrics := missingCallMetrics J job plan none }
  | some c =>
    if c.outcome ≠ some .succeeded then { metrics := missingCallMetrics J job plan (some c) }
    else
      let content := match (c.rawResponse.or (.obj [])).get "content" with
        | .str content => content
        | _ => ""
      let parsed := J.parse job plan content ((c.rawResponse.or (.obj [])).get "response_id")
      { metrics := parsed.metrics
        parseFailures := if parsed.status = "ok" then [] else [c.callId ++ ":" ++ parsed.status] }

def Findings.add (f g : Findings) : Findings where
  metrics := f.metrics ++ g.metrics
  parseFailures := f.parseFailures ++ g.parseFailures

/-- The plans of a job, each with the call that has its id. -/
def findings (J : Judging) (job : ScoringJob) : Findings :=
  (job.fields.get "plans").items.foldl
    (fun f plan => f.add (judgePlan J job plan (job.calls.find? (fun c => plan.get "call_id" = .str c.callId)))) {}

def Findings.nonScored (f : Findings) : List Metric := f.metrics.filter (fun m => m.status ≠ .scored)

def JobMode.text : JobMode → String
  | .single => "single"
  | .pairwise => "pairwise"

/-- The result that is kept with a finalised job. -/
def Findings.result (f : Findings) (mode : JobMode) : Json :=
  .obj [
    ("metrics", .arr (f.metrics.map (·.dump))),
    ("mode", .str (JobMode.text mode)),
    ("non_scored", .num f.nonScored.length),
    ("parse_failures", .arr (f.parseFailures.map .str))]

/-! ### Requests to the store -/

/-- The job is failed since not all of its metrics are scored. -/
def blocking (job : ScoringJob) (f : Findings) : TransitionRequest where
  jobId := job.jobId
  expectedRevision := job.revision
  expectedStatus := job.status
  status := .failed
  changes := {
    result := some (f.result job.mode)
    fields := (∅ : Fields).insert "failure" (.obj [
      ("code", .str "PUBLISH_BLOCKED_NON_SCORED"),
      ("message", .str (toString f.nonScored.length ++ " metric(s) are not scored; the explicit " ++
        "publish policy forbids publishing a non-scored result set")),
      ("non_scored", .arr (f.nonScored.map (fun m => .str m.metricId)))]) }

/-- The job is failed by its roles. -/
def roleFailing (job : ScoringJob) (failure : Json) : TransitionRequest where
  jobId := job.jobId
  expectedRevision := job.revision
  expectedStatus := job.status
  status := .failed
  changes := { fields := (∅ : Fields).insert "failure" failure }

/-- A failed job is settled once more. -/
def reopening (jobId : String) (job : ScoringJob) (now : Timestamp) : TransitionRequest where
  jobId := jobId
  expectedRevision := job.revision
  expectedStatus := .failed
  status := .settled
  changes := { fields := ((∅ : Fields).insert "failure" .null).insert "reopened_at" (.str now) }

/-- A job whose calls have all landed is cancelled before it is published. -/
def withdrawing (job : ScoringJob) (now : Timestamp) : TransitionRequest where
  jobId := job.jobId
  expectedRevision := job.revision
  expectedStatus := .dispatching
  status := .cancelled
  changes := {
    cancellation := some (some {
      job.cancellation.getD { requested := false } with
      billedCalls := some (job.billedCalls.getD 0) })
    fields := ((∅ : Fields).insert "cancelled_at" (.str now)).insert "publish_outcome" (.str "cancelled_before_publish") }

section
variable {ρ : Type} (b : Backend ρ)

abbrev Served (ρ α : Type) := Op (Ledgers ρ) ServiceErr α

/-- `_finalize_cancellation` -/
def finalizeCancellation (job : ScoringJob) (now : Timestamp) : Served ρ FinalReply := Op.mapErr .store do
  if job.status = .dispatching ∧ ∀ c ∈ job.calls, c.status = .settled then do
    let updated ← b.transition (withdrawing job now)
    return .cancelled {
      job := updated.1
      outcome := .cancelledBeforePublish
      billedCalls := some (updated.1.billedCalls.getD 0) }
  else do
    return .cancelled (← b.cancel {
      jobId := job.jobId
      actor := "scoring-job"
      reason := "cancellation requested"
      now := now })

/-- `_finalize`, given what publishes a job with its metrics -/
def finalize (J : Judging) (publish : ScoringJob → Findings → Served ρ FinalReply) (now : Timestamp) (job : ScoringJob) :
    Served ρ FinalReply :=
  if job.cancelRequested = true ∧ job.status ≠ .cancelled then finalizeCancellation b job now
  else
    match J.roleFailure job with
    | some failure => Op.mapErr .store do return .job (← b.transition (roleFailing job failure)).1
    | none =>
      let f := findings J job
      if f.nonScored ≠ [] ∧ job.publishPolicy = .allScored then
        Op.mapErr .store do return .job (← b.transition (blocking job f)).1
      else publish job f

/-- `job.get("failure", {}).get("code")` -/
def failureCode (job : ScoringJob) : Except ServiceErr Json :=
  match job.fields.lookup "failure" with
  | none => .ok .null
  | some (.obj members) => .ok ((members.lookup "code").getD .null)
  | some _ => .error (.attribute "object has no attribute 'get'")

/-- `retry_parse`, given what finalises a job that is settled again -/
def retryParse (finalize : ScoringJob → Served ρ FinalReply) (jobId : String) (now : Timestamp) : Served ρ FinalReply := do
  match ← Op.gets (b.job · jobId) with
  | none => Op.raise (.store (.key jobId))
  | some job =>
    if job.1.status = .completed then return .job job.1
    else if job.1.status ≠ .failed then
      Op.raise (.store (.scoringJob "deterministic parse retry requires a failed job with settled responses"))
    else do
      let code ← Op.lift (failureCode job.1)
      if code ≠ .str "JUDGE_PARSE_FAILED" then
        Op.raise (.store (.scoringJob "only parse failures can be retried without another model call"))
      else do
        let reopened ← Op.mapErr .store (b.transition (reopening jobId job.1 now))
        finalize reopened.1

/-! ### A failed job stays failed -/

/-- The job is parsed again from what is stored of it: it is settled once more, and finalised. -/
def RetriedForFree (finalize : ScoringJob → Served ρ FinalReply) (jobId : String) (now : Timestamp) (l : Ledgers ρ) : Prop :=
  ∃ job reopened l', b.job l jobId = some job ∧ job.1.status = .failed ∧
    b.transition (reopening jobId job.1 now) l = (.ok reopened, l') ∧
    retryParse b finalize jobId now l = finalize reopened.1 l'

variable {b} {l : Ledgers ρ} {J : Judging} {publish : ScoringJob → Findings → Served ρ FinalReply}

/-- The store lets no job go from failed to settled. -/
theorem wp_reopening {jobId : String} {job : ScoringJob} {now : Timestamp} :
    (b.transition (reopening jobId job now)).wp l (fun _ _ => False) (fun _ l' => l' = l) := by
  unfold Backend.transition
  rw [Backend.wp_commit, Op.wp_bind]
  refine Backend.wp_require (fun current _ => ?_) (fun _ => ite_self _)
  rw [Op.wp_bind, Op.wp_lift]
  refine ⟨fun u hu => ?_, fun _ _ => ite_self _⟩
  obtain ⟨-, hfailed, hmove | ⟨heq, -⟩, -⟩ := transitionRecord_ok hu
  · rw [hfailed] at hmove
    exact (List.not_mem_nil hmove).elim
  · cases heq

theorem not_retriedForFree {finalize : ScoringJob → Served ρ FinalReply} {jobId : String} {now : Timestamp} :
    ¬RetriedForFree b finalize jobId now l := by
  rintro ⟨job, reopened, l', -, -, hreopened, -⟩
  exact (Op.wp_of_ok hreopened).1 wp_reopening

/-- Parsing again does nothing: it shows a job that is completed, and refuses any other. -/
theorem wp_retryParse {finalize : ScoringJob → Served ρ FinalReply} {jobId : String} {now : Timestamp} :
    (retryParse b finalize jobId now).wp l
      (fun reply l' => l' = l ∧ ∃ job, b.job l jobId = some job ∧ job.1.status = .completed ∧ reply = .job job.1)
      (fun _ l' => l' = l) := by
  unfold retryParse
  rw [Op.wp_bind, Op.wp_gets]
  cases hjob : b.job l jobId with
  | none => rfl
  | some job =>
    refine Op.wp_ite (fun completed => ⟨rfl, job, rfl, completed, rfl⟩) (fun _ => ?_)
    refine Op.wp_ite (fun _ => rfl) (fun _ => ?_)
    rw [Op.wp_bind, Op.wp_lift]
    refine ⟨fun code _ => ?_, fun _ _ => rfl⟩
    refine Op.wp_ite (fun _ => rfl) (fun _ => ?_)
    rw [Op.wp_bind, Op.wp_mapErr]
    exact Op.wp_mono wp_reopening (fun _ _ h => h.elim) (fun _ _ h => h)

/-- Not all of the metrics of the job are scored, and nothing else ends it. -/
structure Unparsed (J : Judging) (job : ScoringJob) : Prop where
  kept : ¬(job.cancelRequested = true ∧ job.status ≠ .cancelled)
  roles : J.roleFailure job = none
  nonScored : (findings J job).nonScored ≠ []
  policy : job.publishPolicy = .allScored

/-- What finalising such a job writes, if the store takes it. -/
theorem wp_finalize_blocked {job : ScoringJob} {now : Timestamp} (blocked : Unparsed J job) :
    (finalize b J publish now job).wp l
      (fun reply _ => ∃ u, reply = .job u ∧ u.status = .failed ∧
        failureCode u = .ok (.str "PUBLISH_BLOCKED_NON_SCORED"))
      (fun _ _ => True) := by
  unfold finalize
  rw [if_neg blocked.kept, blocked.roles]
  show Op.wp (if (findings J job).nonScored ≠ [] ∧ job.publishPolicy = .allScored then _ else _) l _ _
  rw [if_pos ⟨blocked.nonScored, blocked.policy⟩, Op.wp_mapErr, Op.wp_bind]
  unfold Backend.transition
  rw [Backend.wp_commit, Op.wp_bind]
  refine Backend.wp_require (fun current _ => ?_) (fun _ => trivial)
  rw [Op.wp_bind, Op.wp_lift]
  refine ⟨fun u hu => ?_, fun _ _ => trivial⟩
  obtain ⟨-, -, -, hrecord⟩ := transitionRecord_ok hu
  rw [Op.wp_bind]
  refine Backend.wp_write (fun _ => ⟨u.1, rfl, ?_, ?_⟩) (fun _ => trivial)
  · rw [hrecord]
    rfl
  · have looked : u.1.fields.lookup "failure" = (blocking job (findings J job)).changes.fields.lookup "failure" := by
      rw [hrecord]
      refine Finmap.lookup_union_left ?_
      exact Finmap.mem_insert.2 (.inl rfl)
    rw [failureCode, looked]
    rfl

/-- A job that was failed since its responses did not parse to scored metrics is never parsed again: not in any state of
the store, with whatever parser. -/
theorem parse_failure_never_retried {ρ : Type} (b : Backend ρ) (J : Judging)
    (publish : ScoringJob → Findings → Served ρ FinalReply) (now : Timestamp) (job : ScoringJob) (l l' : Ledgers ρ)
    (reply : FinalReply) (blocked : Unparsed J job) (finalized : finalize b J publish now job l = (.ok reply, l')) :
    (∃ u, reply = .job u ∧ u.status = .failed ∧ failureCode u = .ok (.str "PUBLISH_BLOCKED_NON_SCORED")) ∧
    ∀ (later : Ledgers ρ) (finalize' : ScoringJob → Served ρ FinalReply) (now' : Timestamp),
      ¬RetriedForFree b finalize' job.jobId now' later :=
  ⟨(Op.wp_of_ok finalized).1 (wp_finalize_blocked blocked), fun _ _ _ => not_retriedForFree⟩

end

/-! ### One response that does not parse -/

/-- Responses do not parse. -/
def strictJudging : Judging where
  criteria _ := []
  roleFailure _ := none
  parse _ _ _ _ := { status := "invalid", metrics := [{ metricId := "quality", status := .evaluatorError }] }

/-- The sample job, with a plan for its one call. -/
def plannedJob : ScoringJob :=
  { sampleJob with fields := (∅ : Fields).insert "plans" (.arr [.obj [("call_id", .str "a"), ("mode", .str "single")]]) }

/-- The job has made its call, which succeeded. -/
def landed : Ledgers StoredJob := (run memorySystem.step ∅ [
  .job (.submit plannedJob), .job (.claim "job" "t"), .job (.beginCall (sampleBegin "a" 2)),
  .job (.settleCall (sampleSettle "a" 3 .succeeded .settled))]).toLedgers

def landedJob : ScoringJob := ((memoryJobs.job landed "job").map (·.1)).getD sampleJob

/-- The job as it is finalised. -/
def unparsed : Except ServiceErr FinalReply × Ledgers StoredJob :=
  finalize memoryJobs strictJudging (fun _ _ => Op.raise (.attribute "not published")) "t" landedJob landed

theorem landedJob_blocked : Unparsed strictJudging landedJob where
  kept := by decide
  roles := rfl
  nonScored := by
    have : (findings strictJudging landedJob).nonScored.length = 1 := by decide
    intro h
    rw [h] at this
    cases this
  policy := by decide

theorem unparsed_failed : unparsed.1.isOk = true := by decide

/-- The call succeeded and its response did not parse; the job cannot be parsed again. -/
theorem unparsed_not_retried : ¬∀ (J : Judging) (publish : ScoringJob → Findings → Served StoredJob FinalReply) (now : Timestamp)
    (job : ScoringJob) (l l' : Ledgers StoredJob) (reply : FinalReply), Unparsed J job →
    (∀ c ∈ job.calls, c.outcome = some .succeeded) → finalize memoryJobs J publish now job l = (.ok reply, l') →
    RetriedForFree memoryJobs (finalize memoryJobs J publish now) job.jobId now l' := by
  intro h
  have succeeded : landedJob.calls.all (fun c => c.outcome = some .succeeded) = true := by decide
  have failed := unparsed_failed
  unfold unparsed at failed
  rcases hrun : finalize memoryJobs strictJudging (fun _ _ => Op.raise (.attribute "not published")) "t" landedJob landed with
    ⟨e | reply, l'⟩
  · rw [hrun] at failed
    cases failed
  · exact not_retriedForFree (h strictJudging _ "t" landedJob landed l' reply landedJob_blocked
      (fun c hc => of_decide_eq_true (List.all_eq_true.1 succeeded c hc)) hrun)

theorem unparsed_failed_for_good : ∃ u l', unparsed = (.ok (.job u), l') ∧ u.status = .failed ∧
    ∀ (later : Ledgers StoredJob) (finalize' : ScoringJob → Served StoredJob FinalReply) (now : Timestamp),
      ¬RetriedForFree memoryJobs finalize' "job" now later := by
  have failed := unparsed_failed
  rcases hrun : unparsed with ⟨e | reply, l'⟩
  · rw [hrun] at failed
    cases failed
  · obtain ⟨⟨u, rfl, hstatus, -⟩, final⟩ :=
      parse_failure_never_retried memoryJobs strictJudging _ "t" landedJob landed l' reply landedJob_blocked hrun
    have named : landedJob.jobId = "job" := by decide
    rw [named] at final
    exact ⟨u, l', rfl, hstatus, final⟩

end Motte.Service
