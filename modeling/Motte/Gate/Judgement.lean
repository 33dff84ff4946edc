import Motte.Gate.Evaluate

/-! When a rule is satisfied, and when a policy lets a candidate pass.

The conditions are stated on the inputs alone, without the results; `judged_rule`
and `decision_pass_iff` say that the evaluation finds just these. -/
namespace Motte.Gate
open Foundation

/-! ### The conditions -/

section Conditions
variable (b : Builtins) (C : PairwiseContracts) (p : GatePolicyVersion) (x : Evaluation)

/-- The rule is evaluated by its kind: nothing before that ends it. -/
structure Admitted (r : GateRule) : Prop where
  completed : r.requiresSuccessfulRun = true → x.candidateRunStatus = "completed"
  formal : r.experimentalEvidence = true → p.diagnostic = true
  comparable : comparabilityGate r x.comparisonLevel x.metricEligibility = none

/-- The value is where the rule wants it. -/
def Within (r : GateRule) (d : MetricDefinition) (value : Double) : Prop :=
  if r.kind = .baselineDelta then
    ∃ baseline base, x.baseline = some baseline ∧ x.baselineRef.isSome = true ∧
      metricValue b baseline (r.metricId.getD "") = .ok base ∧
      (regression d value base).le (r.maxRegression.getD .zero) = true
  else ∀ threshold op, r.threshold = some threshold → r.operator = some op → op.holds value threshold = true

structure CoverageMet (r : GateRule) : Prop where
  coverage : ∀ required, r.minCoverage = some required →
    ∃ c, b.float (coverageOf C p x) = some c ∧ c.lt required = false
  samples : ∀ (required : Nat) (n : Int), r.minSamples = some required → samplesOf p x = some n → required ≤ n

/-- What the rule asks for, by its kind. -/
def Met (r : GateRule) : Prop :=
  match r.kind with
  | .metricThreshold | .baselineDelta | .cost | .latency =>
    ∃ d value, metricDefinition p r = some d ∧ metricReading b C p x r = .ok value ∧ Within b x r d value
  | .coverage => CoverageMet b C p x r
  | .criticalCase => ∀ c ∈ r.criticalCaseIds, caseOutcome x.candidate c = some .pass
  | .modelIdentity =>
    x.evidence.modelIdentity ≠ .null ∧ b.str x.evidence.modelIdentity = b.str (GateRule.nullable .str r.expected)
  | .noSideEffect =>
    x.evidence.sideEffectViolations ≠ .null ∧
      ∀ count, violationCount x.evidence.sideEffectViolations = some count → count.truthy = false
  | .safetyMarker => x.evidence.safetyMarkers ≠ .null ∧ markerItems x.evidence.safetyMarkers = []

/-- The evidence is missing in a way that a diagnostic rule skips. -/
def Lacking (r : GateRule) : Prop :=
  match r.kind with
  | .metricThreshold | .baselineDelta | .cost | .latency =>
    (metricDefinition p r).isSome = true ∧ ∃ reason, metricReading b C p x r = .error reason
  | .coverage => ¬CoverageMet b C p x r
  | .criticalCase => (∀ c ∈ r.criticalCaseIds, caseOutcome x.candidate c ≠ some .fail) ∧
      ∃ c ∈ r.criticalCaseIds, caseOutcome x.candidate c ≠ some .pass
  | _ => False

/-- The rule is satisfied. -/
def Satisfied (r : GateRule) : Prop := Admitted p x r ∧ Met b C p x r

/-- The rule is skipped for diagnosis. -/
structure Skipped (r : GateRule) : Prop where
  completed : r.requiresSuccessfulRun = true → x.candidateRunStatus = "completed"
  formal : r.experimentalEvidence = true → p.diagnostic = true
  skips : r.missingPolicy = .diagnosticSkip
  missing : comparabilityGate r x.comparisonLevel x.metricEligibility ≠ none ∨ Lacking b C p x r

/-- The rule does not stand in the way of a pass. -/
def Clears (r : GateRule) : Prop := (r.severity = .block → Satisfied b C p x r) ∧ ¬Skipped b C p x r

/-- A judge whose qualification is required is qualified. -/
def Qualified (qualification : Value) : Prop :=
  ((qualification.get? "required").getD .null).truthy = true →
    qualification.get? "gate_eligible" = some (.bool true)

/-- Everything beside the rules is in order. -/
structure JudgesQualified : Prop where
  pairwise : referencesPairwiseQuality p = true →
    (pairwiseQualification C ((x.evidence.judgeQualification.get "candidate").getD .null) x.candidate).1 = true
  each : ∀ item ∈ x.evidence.judgeQualification.rows,
    (referencesPairwiseQuality p = true → item.1 ≠ "candidate") → Qualified item.2
  quality : (∃ item ∈ x.evidence.judgeQualification.rows, pairwiseMode item.2 = true) →
    ∀ r ∈ p.rules, r.booleanQuality = false

/-- The policy lets the candidate pass. -/
structure Cleared : Prop where
  rules : ∀ r ∈ p.rules, Clears b C p x r
  judges : JudgesQualified C p x

end Conditions

/-! ### One rule -/

/-- A result says of the rule that it is met, or that it is skipped, as it is. -/
structure Judged (r : GateRule) (met skipped : Prop) (result : RuleResult) : Prop where
  severity : result.severity = r.severity
  status : result.status = .pass ↔ met
  skipped : result.diagnosticSkipped = true ↔ skipped
  decision : result.decision = none ↔ met
  notPass : result.decision ≠ some .pass

section Judged
variable {r : GateRule} {met skipped met' skipped' : Prop} {reason : String} {result : RuleResult}

theorem judged_pass (hmet : met) (hskipped : ¬skipped) : Judged r met skipped (finish r .pass reason none) where
  severity := rfl
  status := by simp [finish, hmet]
  skipped := by simp [finish, hskipped]
  decision := by simp [finish, hmet]
  notPass := by simp [finish]

theorem judged_held {status : Status} {d : GateDecision} (hmet : ¬met) (hskipped : ¬skipped)
    (hstatus : status ≠ .pass ∧ status ≠ .skippedDiagnostic) (hd : d ≠ .pass) :
    Judged r met skipped (finish r status reason (some d)) where
  severity := rfl
  status := by simp [finish, hmet, hstatus.1]
  skipped := by simp [finish, hskipped, hstatus.2]
  decision := by simp [finish, hmet]
  notPass := by simp [finish, hd]

theorem judged_missing {d : GateDecision} (hmet : ¬met) (hskipped : skipped ↔ r.missingPolicy = .diagnosticSkip)
    (hd : d ≠ .pass) : Judged r met skipped (finishMissing r reason d) := by
  unfold finishMissing
  split
  · rename_i hskip
    constructor <;> simp [finish, hmet, hskipped, hskip]
  · rename_i hskip
    exact judged_held hmet (fun h => hskip (hskipped.1 h)) (by simp) hd

theorem Judged.congr (h : Judged r met skipped result) (hmet : met ↔ met') (hskipped : skipped ↔ skipped') :
    Judged r met' skipped' result where
  severity := h.severity
  status := h.status.trans hmet
  skipped := h.skipped.trans hskipped
  decision := h.decision.trans hmet
  notPass := h.notPass

end Judged

section Rules
variable {b : Builtins} {C : PairwiseContracts} {p : GatePolicyVersion} {x : Evaluation} {r : GateRule}
  {result : RuleResult}

theorem judged_baselineRule {d : MetricDefinition} {value : Double} (hkind : r.kind = .baselineDelta) :
    Judged r (Within b x r d value) False (baselineRule b x r d value) := by
  unfold baselineRule
  split
  · rename_i baseline ref hbaseline href
    split
    · rename_i reason hbase
      refine judged_held ?_ id (by simp) (by simp)
      intro h
      simp only [Within, hkind, if_true] at h
      obtain ⟨s, base, hs, -, hok, -⟩ := h
      rw [hbaseline] at hs
      cases hs
      rw [hbase] at hok
      cases hok
    · rename_i base hbase
      dsimp only
      split
      · rename_i hlost
        refine judged_pass ?_ id
        simp only [Within, hkind, if_true]
        exact ⟨baseline, base, hbaseline, by rw [href]; rfl, hbase, hlost⟩
      · rename_i hlost
        refine judged_held ?_ id (by simp) (by simp)
        intro h
        simp only [Within, hkind, if_true] at h
        obtain ⟨s, base', hs, -, hok, hle⟩ := h
        rw [hbaseline] at hs
        cases hs
        rw [hbase] at hok
        cases hok
        exact hlost hle
  · rename_i hnone
    refine judged_held ?_ id (by simp) (by simp)
    intro h
    simp only [Within, hkind, if_true] at h
    obtain ⟨s, base, hs, href, -, -⟩ := h
    obtain ⟨ref, href⟩ := Option.isSome_iff_exists.1 href
    exact hnone s ref hs href

theorem judged_thresholdRule {d : MetricDefinition} {value : Double} (hkind : r.kind ≠ .baselineDelta) :
    Judged r (Within b x r d value) False (thresholdRule b r d value) := by
  unfold thresholdRule
  split
  · rename_i threshold op hthreshold hop
    split
    · rename_i hholds
      refine judged_pass ?_ id
      simp only [Within, hkind, if_false]
      intro t o ht ho
      rw [hthreshold] at ht
      rw [hop] at ho
      cases ht
      cases ho
      exact hholds
    · rename_i hholds
      refine judged_held ?_ id (by simp) (by simp)
      intro h
      simp only [Within, hkind, if_false] at h
      exact hholds (h _ _ hthreshold hop)
  · rename_i hnone
    refine judged_pass ?_ id
    simp only [Within, hkind, if_false]
    intro t o ht ho
    exact absurd ho (hnone t o ht)

/-- The rules that read one metric. -/
theorem judged_metricRule (h : metricRule b C p x r = .ok result) :
    Judged r (∃ d value, metricDefinition p r = some d ∧ metricReading b C p x r = .ok value ∧ Within b x r d value)
      (r.missingPolicy = .diagnosticSkip ∧ (metricDefinition p r).isSome = true ∧
        ∃ reason, metricReading b C p x r = .error reason) result := by
  unfold metricRule at h
  split at h
  · rename_i hd
    cases h
    refine judged_held ?_ ?_ (by simp) (by simp)
    · rintro ⟨d, value, hd', -⟩
      rw [hd] at hd'
      cases hd'
    · rintro ⟨-, hsome, -⟩
      rw [hd] at hsome
      cases hsome
  · rename_i d hd
    split at h
    · cases h
    · split at h
      · rename_i reason hreading
        cases h
        refine judged_missing ?_ ?_ (by simp)
        · rintro ⟨d', value, -, hok, -⟩
          rw [hreading] at hok
          cases hok
        · simp [hd, hreading]
      · rename_i value hreading
        have hiff : Within b x r d value ↔ ∃ d value, metricDefinition p r = some d ∧
            metricReading b C p x r = .ok value ∧ Within b x r d value := by
          simp [hd, hreading]
        have hfalse : False ↔ r.missingPolicy = .diagnosticSkip ∧ (metricDefinition p r).isSome = true ∧
            ∃ reason, metricReading b C p x r = .error reason := by
          simp [hreading]
        split at h
        · rename_i hkind
          cases h
          exact (judged_baselineRule hkind).congr hiff hfalse
        · rename_i hkind
          cases h
          exact (judged_thresholdRule hkind).congr hiff hfalse

theorem coverageProblems_eq_nil {coverage : Value} {problems : List String}
    (h : coverageProblems b r coverage = .ok problems) :
    problems = [] ↔ ∀ required, r.minCoverage = some required → ∃ c, b.float coverage = some c ∧ c.lt required = false := by
  unfold coverageProblems at h
  split at h
  · rename_i hnone
    cases h
    simp [hnone]
  · rename_i required hrequired
    split at h
    · rename_i hnull
      cases h
      simp [hrequired, hnull, Builtins.float]
    · split at h
      · cases h
      · rename_i c hc
        cases h
        simp [hrequired, hc]

theorem sampleProblems_eq_nil {samples : Option Int} :
    sampleProblems r samples = [] ↔ ∀ (required : Nat) (n : Int), r.minSamples = some required → samples = some n → required ≤ n := by
  unfold sampleProblems
  split
  · rename_i required n hrequired
    simp [hrequired]
  · rename_i hnone
    simp only [true_iff]
    intro required n hrequired hsamples
    exact absurd hsamples (hnone required n hrequired)

theorem judged_coverageRule (h : coverageRule b C p x r = .ok result) :
    Judged r (CoverageMet b C p x r) (r.missingPolicy = .diagnosticSkip ∧ ¬CoverageMet b C p x r) result := by
  simp only [coverageRule, bind, Except.bind, pure, Except.pure] at h
  split at h
  · cases h
  · rename_i problems hproblems
    have hmet : problems ++ sampleProblems r (samplesOf p x) = [] ↔ CoverageMet b C p x r := by
      rw [List.append_eq_nil_iff, coverageProblems_eq_nil hproblems, sampleProblems_eq_nil]
      exact ⟨fun hc => ⟨hc.1, hc.2⟩, fun hc => ⟨hc.coverage, hc.samples⟩⟩
    split at h
    · rename_i hnil
      cases h
      exact judged_pass (hmet.1 hnil) (fun hs => hs.2 (hmet.1 hnil))
    · rename_i hnil
      cases h
      exact judged_missing (fun hm => hnil (hmet.2 hm))
        ⟨fun hs => hs.1, fun hs => ⟨hs, fun hm => hnil (hmet.2 hm)⟩⟩ (by simp)

theorem failures_eq_nil : failures x r = [] ↔ ∀ c ∈ r.criticalCaseIds, caseOutcome x.candidate c ≠ some .fail := by
  simp [failures]

theorem undecided_eq_nil : undecided x r = [] ↔
    ∀ c ∈ r.criticalCaseIds, caseOutcome x.candidate c = some .pass ∨ caseOutcome x.candidate c = some .fail := by
  simp only [undecided, List.filterMap_eq_nil_iff]
  constructor
  · intro h c hc
    have hnone := h c hc
    rcases houtcome : caseOutcome x.candidate c with _ | outcome
    · simp [houtcome] at hnone
    · cases outcome <;> simp_all
  · intro h c hc
    rcases h c hc with hpass | hfail
    · rw [hpass]
    · rw [hfail]

theorem judged_criticalCaseRule :
    Judged r (∀ c ∈ r.criticalCaseIds, caseOutcome x.candidate c = some .pass)
      (r.missingPolicy = .diagnosticSkip ∧ (∀ c ∈ r.criticalCaseIds, caseOutcome x.candidate c ≠ some .fail) ∧
        ∃ c ∈ r.criticalCaseIds, caseOutcome x.candidate c ≠ some .pass) (criticalCaseRule x r) := by
  have hall : (failures x r = [] ∧ undecided x r = []) ↔
      ∀ c ∈ r.criticalCaseIds, caseOutcome x.candidate c = some .pass := by
    rw [failures_eq_nil, undecided_eq_nil]
    constructor
    · intro h c hc
      exact (h.2 c hc).resolve_right (h.1 c hc)
    · intro h
      exact ⟨fun c hc => by rw [h c hc]; simp, fun c hc => .inl (h c hc)⟩
  have hsome : (∃ c ∈ r.criticalCaseIds, caseOutcome x.candidate c ≠ some .pass) ↔
      ¬(failures x r = [] ∧ undecided x r = []) := by
    rw [hall]
    push Not
    rfl
  simp only [← failures_eq_nil, hsome, ← hall]
  unfold criticalCaseRule
  by_cases hfailed : failures x r = []
  · by_cases hunknown : undecided x r = []
    · simp only [hfailed, hunknown, decide_true, Bool.and_true, if_true]
      exact judged_pass (by simp) (by simp)
    · simp only [hfailed, hunknown, decide_true, decide_false, Bool.and_false, Bool.false_eq_true, if_false, if_true]
      exact judged_missing (by simp) (by simp) (by simp)
  · simp only [hfailed, decide_false, Bool.false_and, Bool.false_eq_true, if_false]
    exact judged_held (by simp) (by simp) (by simp) (by simp)

theorem judged_modelIdentityRule :
    Judged r (x.evidence.modelIdentity ≠ .null ∧
      b.str x.evidence.modelIdentity = b.str (GateRule.nullable .str r.expected)) False (modelIdentityRule b x r) := by
  unfold modelIdentityRule
  dsimp only
  by_cases hnull : x.evidence.modelIdentity = .null
  · rw [if_pos hnull]
    exact judged_held (fun h => h.1 hnull) id (by simp) (by simp)
  · rw [if_neg hnull]
    by_cases hsame : b.str x.evidence.modelIdentity = b.str (GateRule.nullable .str r.expected)
    · rw [if_neg (not_not.2 hsame)]
      exact judged_pass ⟨hnull, hsame⟩ id
    · rw [if_pos hsame]
      exact judged_held (fun h => hsame h.2) id (by simp) (by simp)

theorem judged_sideEffectRule (h : sideEffectRule b x r = .ok result) :
    Judged r (x.evidence.sideEffectViolations ≠ .null ∧
      ∀ count, violationCount x.evidence.sideEffectViolations = some count → count.truthy = false) False result := by
  unfold sideEffectRule at h
  dsimp only at h
  split at h
  · rename_i hnull
    cases h
    exact judged_held (fun hm => hm.1 hnull) id (by simp) (by simp)
  · rename_i hnull
    split at h
    · cases h
    · rename_i count hcount
      split at h
      · rename_i htrue
        cases h
        refine judged_held (fun hm => ?_) id (by simp) (by simp)
        have hfalse := hm.2 count hcount
        rw [htrue] at hfalse
        cases hfalse
      · rename_i hfalse
        cases h
        refine judged_pass ⟨hnull, fun count' hcount' => ?_⟩ id
        rw [hcount] at hcount'
        cases hcount'
        simpa using hfalse

theorem judged_safetyMarkerRule :
    Judged r (x.evidence.safetyMarkers ≠ .null ∧ markerItems x.evidence.safetyMarkers = []) False
      (safetyMarkerRule b x r) := by
  unfold safetyMarkerRule
  dsimp only
  by_cases hnull : x.evidence.safetyMarkers = .null
  · rw [if_pos hnull]
    exact judged_held (fun h => h.1 hnull) id (by simp) (by simp)
  · rw [if_neg hnull]
    split
    · rename_i hnil
      exact judged_pass ⟨hnull, hnil⟩ id
    · rename_i hnil
      exact judged_held (fun h => hnil h.2) id (by simp) (by simp)

theorem judged_kind (h : evaluateKind b C p x r = .ok result) :
    Judged r (Met b C p x r) (r.missingPolicy = .diagnosticSkip ∧ Lacking b C p x r) result := by
  unfold evaluateKind at h
  unfold Met Lacking
  cases hkind : r.kind with
  | metricThreshold | baselineDelta | cost | latency =>
    rw [hkind] at h
    exact judged_metricRule h
  | coverage =>
    rw [hkind] at h
    exact judged_coverageRule h
  | criticalCase =>
    rw [hkind] at h
    cases h
    exact judged_criticalCaseRule
  | modelIdentity =>
    rw [hkind] at h
    cases h
    exact judged_modelIdentityRule.congr Iff.rfl (by simp)
  | noSideEffect =>
    rw [hkind] at h
    exact (judged_sideEffectRule h).congr Iff.rfl (by simp)
  | safetyMarker =>
    rw [hkind] at h
    cases h
    exact judged_safetyMarkerRule.congr Iff.rfl (by simp)

/-- One turn of the loop finds a rule satisfied, or skipped, just when it is. -/
theorem judged_rule (h : evaluateRule b C p x r = .ok result) :
    Judged r (Satisfied b C p x r) (Skipped b C p x r) result := by
  unfold evaluateRule at h
  split at h
  · rename_i hended
    have hrun : ¬(r.requiresSuccessfulRun = true → x.candidateRunStatus = "completed") := by simpa using hended
    cases h
    exact judged_held (fun hs => hrun hs.1.completed) (fun hs => hrun hs.completed) (by simp) (by simp)
  · rename_i hrun
    have hrun : r.requiresSuccessfulRun = true → x.candidateRunStatus = "completed" := by simpa using hrun
    split at h
    · rename_i hheld
      have hformal : ¬(r.experimentalEvidence = true → p.diagnostic = true) := by simpa using hheld
      cases h
      exact judged_held (fun hs => hformal hs.1.formal) (fun hs => hformal hs.formal) (by simp) (by simp)
    · rename_i hformal
      have hformal : r.experimentalEvidence = true → p.diagnostic = true := by simpa using hformal
      split at h
      · rename_i reason decision hgate
        cases h
        have hdecision : decision ≠ .pass := by
          unfold comparabilityGate at hgate
          split at hgate
          · cases hgate
          · cases hgate
            simp
          · split at hgate
            · cases hgate
              simp
            · split at hgate
              · cases hgate
                simp
              · split at hgate
                · cases hgate
                  simp
                · cases hgate
        refine judged_missing (fun hs => ?_) ⟨fun hs => hs.skips, fun hs => ⟨hrun, hformal, hs, ?_⟩⟩ hdecision
        · have hnone := hs.1.comparable
          rw [hgate] at hnone
          cases hnone
        · exact .inl (by rw [hgate]; simp)
      · rename_i hgate
        refine (judged_kind h).congr ⟨fun hm => ⟨⟨hrun, hformal, hgate⟩, hm⟩, fun hs => hs.2⟩ ?_
        constructor
        · intro hs
          exact ⟨hrun, hformal, hs.1, .inr hs.2⟩
        · intro hs
          refine ⟨hs.skips, hs.missing.resolve_left ?_⟩
          rw [hgate]
          simp

end Rules

end Motte.Gate
