import Motte.Gate.Aggregation

/-! What a diagnostic policy lets pass.

A diagnostic policy admits experimental evidence, and its rules may skip what is
missing. A skip holds the release back; the mark by itself does not. -/
namespace Motte.Gate
open Foundation

section Diagnosis
variable (b : Builtins) (C : PairwiseContracts) (p : GatePolicyVersion) (x : Evaluation)

/-- What a diagnostic policy asks for a rule: a blocking rule is met on what it may read, whatever the standing of its
evidence, and a rule that skips what is missing finds nothing missing once it is reached. -/
structure Diagnosed (r : GateRule) : Prop where
  met : r.severity = .block → (r.requiresSuccessfulRun = true → x.candidateRunStatus = "completed") ∧
    comparabilityGate r x.comparisonLevel x.metricEligibility = none ∧ Met b C p x r
  present : r.missingPolicy = .diagnosticSkip → (r.requiresSuccessfulRun = true → x.candidateRunStatus = "completed") →
    comparabilityGate r x.comparisonLevel x.metricEligibility = none ∧ ¬Lacking b C p x r

end Diagnosis

section Diagnosis
variable {δ : Type} {b : Builtins} {C : PairwiseContracts} {H : Digests δ} {p : GatePolicyVersion} {x : Evaluation}
  {a : GateResult δ}

theorem diagnosed_iff (hp : p.diagnostic = true) {r : GateRule} : Clears b C p x r ↔ Diagnosed b C p x r := by
  have hformal : r.experimentalEvidence = true → p.diagnostic = true := fun _ => hp
  constructor
  · rintro ⟨hsatisfied, hskipped⟩
    refine ⟨fun hblock => ?_, fun hskips hcompleted => ?_⟩
    · obtain ⟨hadmitted, hmet⟩ := hsatisfied hblock
      exact ⟨hadmitted.completed, hadmitted.comparable, hmet⟩
    · constructor
      · by_contra hgate
        exact hskipped ⟨hcompleted, hformal, hskips, .inl hgate⟩
      · intro hlacking
        exact hskipped ⟨hcompleted, hformal, hskips, .inr hlacking⟩
  · rintro ⟨hmet, hpresent⟩
    refine ⟨fun hblock => ?_, fun hskipped => ?_⟩
    · obtain ⟨hcompleted, hgate, hmet⟩ := hmet hblock
      exact ⟨⟨hcompleted, hformal, hgate⟩, hmet⟩
    · obtain ⟨hgate, hlacking⟩ := hpresent hskipped.skips hskipped.completed
      rcases hskipped.missing with hmissing | hmissing
      · exact hmissing hgate
      · exact hlacking hmissing

/-- A diagnostic policy passes just when no rule skips, every blocking rule is met and the judges are qualified. -/
theorem diagnostic_pass_iff (hp : p.diagnostic = true) (h : evaluateGatePolicy b C H p x = .ok a) :
    a.decision = .pass ↔ (∀ r ∈ p.rules, Diagnosed b C p x r) ∧ JudgesQualified C p x := by
  rw [decision_pass_iff h]
  constructor
  · intro hcleared
    exact ⟨fun r hr => (diagnosed_iff hp).1 (hcleared.rules r hr), hcleared.judges⟩
  · rintro ⟨hrules, hjudges⟩
    exact ⟨fun r hr => (diagnosed_iff hp).2 (hrules r hr), hjudges⟩

end Diagnosis

/-! ### A judge that is not calibrated -/

def judgedRule : GateRule :=
  { ruleId := "judge-quality", kind := .metricThreshold, metricId := some "accuracy", operator := some .gte
    threshold := some .zero, experimentalEvidence := true }

theorem judgedRule_valid : judgedRule.Valid := by
  constructor <;> simp [judgedRule, RuleKind.readsMetric] <;> decide +kernel

def judgedPolicy : GatePolicyVersion :=
  diagnosticPolicy [judgedRule] (by simp) (by simpa using judgedRule_valid) (by simp)

def accurate : Evaluation where
  candidateRef := sampleRef
  candidate := { metricValues := (∅ : Table String (Option Double)).set "accuracy" (some .one) }
  candidateRunStatus := "completed"

theorem accurate_passes : decisionAt plainBuiltins noContracts judgedPolicy accurate = some .pass := by decide +kernel

/-- The mark alone holds nothing back. -/
theorem diagnostic_releases : ¬∀ (b : Builtins) (C : PairwiseContracts) (H : Digests Value) (p : GatePolicyVersion)
    (x : Evaluation) (a : GateResult Value), p.diagnostic = true → evaluateGatePolicy b C H p x = .ok a →
    a.decision ≠ .pass := by
  intro h
  obtain ⟨a, ha, hpass⟩ := evaluated_of_decisionAt canonDigests accurate_passes
  exact h _ _ _ _ _ _ rfl ha hpass

theorem accurate_diagnosed : Diagnosed plainBuiltins noContracts judgedPolicy accurate judgedRule := by
  obtain ⟨a, ha, hpass⟩ := evaluated_of_decisionAt canonDigests accurate_passes
  exact ((diagnostic_pass_iff rfl ha).1 hpass).1 judgedRule (by simp [judgedPolicy, diagnosticPolicy])

end Motte.Gate
