import Motte.Gate.Decision

/-! The decision does not depend on the order of the rules, and hardly on their number.

A rule more gives a result more, so the blocking decisions grow. Only a decision
that rests on no blocking result at all, but on rules of severity `warn` that were
skipped for diagnosis, gives way to a blocking one of lower priority. -/
namespace Motte.Gate
open Foundation

section Congruence
variable {b : Builtins} {C : PairwiseContracts} {p q : GatePolicyVersion} {x : Evaluation}

/-- Two policies that read the same evidence in the same way. -/
structure SameReading (p q : GatePolicyVersion) : Prop where
  plain : referencesPairwiseQuality p = false
  plain' : referencesPairwiseQuality q = false
  diagnostic : q.diagnostic = p.diagnostic

/-- Without pairwise rules a rule is evaluated by itself, and by whether the policy is diagnostic. -/
theorem evaluateRule_congr (h : SameReading p q) : evaluateRule b C q x = evaluateRule b C p x := by
  funext r
  have hreads : readsPairwise q r = readsPairwise p r := by simp [readsPairwise, h.plain, h.plain']
  have hreading : metricReading b C q x r = metricReading b C p x r := by rw [metricReading, metricReading, hreads]
  have hdefinition : metricDefinition q r = metricDefinition p r := by rw [metricDefinition, metricDefinition, hreads]
  have hcoverage : coverageOf C q x = coverageOf C p x := by simp [coverageOf, h.plain, h.plain']
  have hsamples : samplesOf q x = samplesOf p x := by simp [samplesOf, h.plain, h.plain']
  have hmetric : metricRule b C q x r = metricRule b C p x r := by
    rw [metricRule, metricRule, hreading, hdefinition]
  have hcovered : coverageRule b C q x r = coverageRule b C p x r := by
    rw [coverageRule, coverageRule, hcoverage, hsamples]
  have hkind : evaluateKind b C q x r = evaluateKind b C p x r := by
    rw [evaluateKind, evaluateKind, hmetric, hcovered]
  rw [evaluateRule, evaluateRule, hkind, h.diagnostic]

theorem qualificationResults_congr (h : SameReading p q) : qualificationResults b C q x = qualificationResults b C p x := by
  simp [qualificationResults, h.plain, h.plain']

theorem pairwiseUnavailable_subset (h : ∀ r ∈ p.rules, r ∈ q.rules) {result : RuleResult}
    (hmem : result ∈ pairwiseUnavailable p x) : result ∈ pairwiseUnavailable q x := by
  unfold pairwiseUnavailable at hmem ⊢
  split at hmem
  · rename_i hmode
    rw [if_pos]
    · exact hmem
    · simp only [Bool.and_eq_true, List.any_eq_true] at hmode ⊢
      obtain ⟨hmode, r, hr, hquality⟩ := hmode
      exact ⟨hmode, r, h r hr, hquality⟩
  · cases hmem

theorem pairwiseUnavailable_perm (h : q.rules.Perm p.rules) : pairwiseUnavailable q x = pairwiseUnavailable p x := by
  have hany : q.rules.any GateRule.booleanQuality = p.rules.any GateRule.booleanQuality := by
    rw [Bool.eq_iff_iff]
    simp only [List.any_eq_true, h.mem_iff]
  rw [pairwiseUnavailable, pairwiseUnavailable, hany]

end Congruence

section Growth
variable {results results' : List RuleResult}

theorem contributions_mono (h : ∀ r ∈ results, r ∈ results') : ∀ d ∈ contributions results, d ∈ contributions results' := by
  intro d hd
  obtain ⟨r, hr, hblock, hdecision⟩ := mem_contributions.1 hd
  exact mem_contributions.2 ⟨r, h r hr, hblock, hdecision⟩

theorem decisionOf_of_aggregate (h : aggregate results ≠ .pass) : decisionOf results = aggregate results := by
  simp [decisionOf, h]

/-- More results do not lower the decision, unless it rests on skipped rules only. -/
theorem decisionOf_mono (h : ∀ r ∈ results, r ∈ results') : rank (decisionOf results') ≤ rank (decisionOf results) ∨
    (decisionOf results = .insufficientEvidence ∧ (∀ d ∈ contributions results, d = .pass) ∧
      (decisionOf results' = .notComparable ∨ decisionOf results' = .qualityFail)) := by
  have hmono := rank_aggregate_mono (contributions_mono h)
  by_cases hpass : aggregate results = .pass
  · by_cases hskip : results.any (·.diagnosticSkipped) = true
    · have hheld : decisionOf results = .insufficientEvidence := by simp [decisionOf, hpass, hskip]
      have hskip' : results'.any (·.diagnosticSkipped) = true := by
        obtain ⟨r, hr, hskipped⟩ := List.any_eq_true.1 hskip
        exact List.any_eq_true.2 ⟨r, h r hr, hskipped⟩
      rw [hheld]
      by_cases hpass' : aggregate results' = .pass
      · exact .inl (by simp [decisionOf, hpass', hskip'])
      · rw [decisionOf_of_aggregate hpass']
        cases hd : aggregate results' with
        | pass => exact absurd hd hpass'
        | safetyBlock | executionError | insufficientEvidence => exact .inl (by decide)
        | notComparable => exact .inr ⟨rfl, aggregate_eq_pass_iff.1 hpass, .inl rfl⟩
        | qualityFail => exact .inr ⟨rfl, aggregate_eq_pass_iff.1 hpass, .inr rfl⟩
    · have hpassed : decisionOf results = .pass := by simpa [decisionOf, hpass] using hskip
      rw [hpassed]
      exact .inl (rank_le_pass _)
  · have hpass' : aggregate results' ≠ .pass := by
      intro heq
      rw [heq] at hmono
      exact hpass (rank_injective (le_antisymm (rank_le_pass _) hmono))
    rw [decisionOf_of_aggregate hpass, decisionOf_of_aggregate hpass']
    exact .inl hmono

/-- No pass comes from more results. -/
theorem decisionOf_ne_pass_mono (h : ∀ r ∈ results, r ∈ results') (hheld : decisionOf results ≠ .pass) :
    decisionOf results' ≠ .pass := by
  intro hpass
  rw [decisionOf_eq_pass_iff] at hpass
  exact hheld (decisionOf_eq_pass_iff.2
    ⟨fun d hd => hpass.1 d (contributions_mono h d hd), fun r hr => hpass.2 r (h r hr)⟩)

end Growth

section Policy
variable {δ : Type} {b : Builtins} {C : PairwiseContracts} {H : Digests δ} {p q : GatePolicyVersion} {x : Evaluation}
  {a a' : GateResult δ}

theorem checkPairwise_plain (h : referencesPairwiseQuality p = false) : checkPairwise p x = .ok () := by
  simp [checkPairwise, h]

/-- The rules of the one policy, in another order, give the results of the other, in another order. -/
theorem evaluated_perm (same : SameReading p q) (hperm : q.rules.Perm p.rules)
    (h : evaluateGatePolicy b C H p x = .ok a) : ∃ a', evaluateGatePolicy b C H q x = .ok a' ∧ a'.decision = a.decision := by
  obtain ⟨⟨-, ruled, hruled, hresults⟩, hdecision, -, -⟩ := evaluateGatePolicy_ok h
  obtain ⟨ruled', hruled', hruledPerm⟩ := mapM_perm hperm (mapM_eq_ok_iff.2 hruled)
  rw [← evaluateRule_congr same] at hruled'
  apply evaluated_of_decisionAt H
  have hperm' : (ruled' ++ (qualificationResults b C q x ++ pairwiseUnavailable q x)).Perm a.ruleResults := by
    rw [hresults, qualificationResults_congr same, pairwiseUnavailable_perm hperm]
    exact hruledPerm.append_right _
  simp only [decisionAt, checkPairwise_plain same.plain', ruleResults, hruled', bind, Except.bind, pure, Except.pure]
  rw [decisionOf_perm hperm', hdecision]

/-- A rule more leaves all results there were. -/
theorem evaluated_subset (same : SameReading p q) {r : GateRule} (hperm : q.rules.Perm (r :: p.rules))
    (h : evaluateGatePolicy b C H p x = .ok a) (h' : evaluateGatePolicy b C H q x = .ok a') :
    ∀ result ∈ a.ruleResults, result ∈ a'.ruleResults := by
  obtain ⟨⟨-, ruled, hruled, hresults⟩, -, -, -⟩ := evaluateGatePolicy_ok h
  obtain ⟨⟨-, ruled', hruled', hresults'⟩, -, -, -⟩ := evaluateGatePolicy_ok h'
  intro result hmem
  rw [hresults] at hmem
  rw [hresults', qualificationResults_congr same]
  simp only [List.mem_append] at hmem ⊢
  rcases hmem with hmem | hmem | hmem
  · obtain ⟨r', hr', hresult⟩ := exists_of_forall₂ hruled.flip hmem
    obtain ⟨result', hmem', hresult'⟩ := exists_of_forall₂ hruled' (hperm.mem_iff.2 (List.mem_cons_of_mem _ hr'))
    rw [evaluateRule_congr same, hresult] at hresult'
    cases hresult'
    exact .inl hmem'
  · exact .inr (.inl hmem)
  · exact .inr (.inr (pairwiseUnavailable_subset (fun r' hr' => hperm.mem_iff.2 (List.mem_cons_of_mem _ hr')) hmem))

/-- The decision is the same under every order of the rules, and a rule more does not lower it: but a decision that
rests on no blocking result, only on skipped rules, may give way to one of lower priority that is not a pass. -/
theorem decisions_aggregate (same : SameReading p q) (h : evaluateGatePolicy b C H p x = .ok a) :
    (q.rules.Perm p.rules → ∃ a', evaluateGatePolicy b C H q x = .ok a' ∧ a'.decision = a.decision) ∧
      ∀ (r : GateRule) (a' : GateResult δ), q.rules.Perm (r :: p.rules) → evaluateGatePolicy b C H q x = .ok a' →
        (a.decision ≠ .pass → a'.decision ≠ .pass) ∧
        (rank a'.decision ≤ rank a.decision ∨
          a.decision = .insufficientEvidence ∧
            (∀ result ∈ a.ruleResults, result.severity = .block → result.decision = none) ∧
            (a'.decision = .notComparable ∨ a'.decision = .qualityFail)) := by
  refine ⟨fun hperm => evaluated_perm same hperm h, fun r a' hperm h' => ?_⟩
  have hsubset := evaluated_subset same hperm h h'
  obtain ⟨hevaluated, hdecision, -, -⟩ := evaluateGatePolicy_ok h
  obtain ⟨-, hdecision', -, -⟩ := evaluateGatePolicy_ok h'
  rw [hdecision, hdecision']
  refine ⟨decisionOf_ne_pass_mono hsubset, ?_⟩
  rcases decisionOf_mono hsubset with hle | ⟨hheld, hpass, hlower⟩
  · exact .inl hle
  · refine .inr ⟨hheld, ?_, hlower⟩
    intro result hmem hblock
    by_contra hne
    obtain ⟨d, hd⟩ := Option.ne_none_iff_exists'.1 hne
    have heq := hpass d (mem_contributions.2 ⟨result, hmem, hblock, hd⟩)
    rw [heq] at hd
    exact (hevaluated.decision hmem).2 hd

end Policy

/-! ### A skipped warning gives way -/

def skippedRule : GateRule :=
  { ruleId := "acc", kind := .metricThreshold, metricId := some "accuracy", operator := some .gte, threshold := some .one
    missingPolicy := .diagnosticSkip, severity := .warn }

def identityRule : GateRule := { ruleId := "model", kind := .modelIdentity, expected := some "m1" }

theorem skippedRule_valid : skippedRule.Valid := by
  constructor <;> simp [skippedRule, RuleKind.readsMetric] <;> decide +kernel

theorem identityRule_valid : identityRule.Valid := by constructor <;> simp [identityRule, RuleKind.readsMetric]

/-- A diagnostic policy. -/
def diagnosticPolicy (rules : List GateRule) (nonempty : rules ≠ []) (valid : ∀ r ∈ rules, r.Valid)
    (nodup : (rules.map GateRule.ruleId).Nodup) : GatePolicyVersion where
  policyId := "policy"
  version := "1"
  rules := rules
  diagnostic := true
  createdBy := "operator"
  reason := "diagnosis"
  policyId_nonempty := sampleId_nonempty
  version_nonempty := sampleVersion_nonempty
  createdBy_nonempty := sampleAuthor_nonempty
  reason_nonempty := by simp
  rules_nonempty := nonempty
  rules_valid := valid
  ids_nodup := nodup
  skips_diagnostic := fun _ _ _ => rfl

def warningPolicy : GatePolicyVersion :=
  diagnosticPolicy [skippedRule] (by simp) (by simpa using skippedRule_valid) (by simp)

def strictPolicy : GatePolicyVersion :=
  diagnosticPolicy [identityRule, skippedRule] (by simp) (by simpa using ⟨identityRule_valid, skippedRule_valid⟩)
    (by decide)

def otherModel : Evaluation where
  candidateRef := sampleRef
  candidate := {}
  candidateRunStatus := "completed"
  evidence := { modelIdentity := .str "m2" }

theorem sameReading_strict : SameReading warningPolicy strictPolicy where
  plain := by decide +kernel
  plain' := by decide +kernel
  diagnostic := rfl

theorem warning_insufficient :
    decisionAt plainBuiltins noContracts warningPolicy otherModel = some .insufficientEvidence := by decide +kernel

theorem strict_qualityFail : decisionAt plainBuiltins noContracts strictPolicy otherModel = some .qualityFail := by
  decide +kernel

/-- A blocking rule that fails takes the place of the insufficient evidence. -/
theorem added_rule_lowers : ¬∀ (b : Builtins) (C : PairwiseContracts) (H : Digests Value) (p q : GatePolicyVersion)
    (x : Evaluation) (r : GateRule) (a a' : GateResult Value), SameReading p q → q.rules.Perm (r :: p.rules) →
    evaluateGatePolicy b C H p x = .ok a → evaluateGatePolicy b C H q x = .ok a' →
    rank a'.decision ≤ rank a.decision := by
  intro h
  obtain ⟨a, hx, ha⟩ := evaluated_of_decisionAt canonDigests warning_insufficient
  obtain ⟨a', hx', ha'⟩ := evaluated_of_decisionAt canonDigests strict_qualityFail
  have hle := h _ _ _ _ _ _ identityRule a a' sameReading_strict (List.Perm.refl _) hx hx'
  rw [ha, ha'] at hle
  exact absurd hle (by decide)

theorem added_rule_not_pass : ∃ a', evaluateGatePolicy plainBuiltins noContracts canonDigests strictPolicy otherModel = .ok a' ∧
    a'.decision ≠ .pass := by
  obtain ⟨a, hx, ha⟩ := evaluated_of_decisionAt canonDigests warning_insufficient
  obtain ⟨a', hx', -⟩ := evaluated_of_decisionAt canonDigests strict_qualityFail
  have hadded := (decisions_aggregate sameReading_strict hx).2 identityRule a' (List.Perm.refl _) hx'
  exact ⟨a', hx', hadded.1 (by rw [ha]; simp)⟩

end Motte.Gate
