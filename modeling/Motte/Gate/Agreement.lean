import Motte.Gate.Decision
import Motte.Gate.Lite

/-! When the first gate and the rules it is projected to agree.

Both gates make the checks of `Shared`. Each makes some checks that the other does
not: `LiteReads` and `FullReads`. So they agree just when, where the shared checks
hold, the others hold together. A comparison that is comparable in part is where
they part in practice: the first gate takes it as comparable, the rule does not. -/
namespace Motte.Gate
open Foundation

/-! ### The checks -/

/-- The metric values of the report, an accuracy from before there was a table included. -/
def Candidate.reported (c : Candidate) : Table String (Option Double) :=
  match c.metricValues.get "accuracy", c.metricValue with
  | none, some v => c.metricValues.set "accuracy" (some v)
  | _, _ => c.metricValues

def Candidate.judges (c : Candidate) : List Value := [c.judgeQualification, c.baselineJudgeQualification]

/-- The metric is a Boolean quality. -/
def LegacyPolicy.booleanMetric (P : LegacyPolicy) : Prop :=
  P.metricId ∈ ["accuracy", "judged_accuracy", "valid_trial_pass_rate"]

section Checks
variable (b : Builtins) (P : LegacyPolicy) (c : Candidate) (comparison : Option ComparisonResult)

/-- The required coverage, where nothing is read as zero. -/
def requiredFor : Option Double :=
  match P.requiredCoverage.getD .null with
  | .null => some .zero
  | v => b.float v

/-- What both gates ask for. -/
structure Shared : Prop where
  metric : ∃ value threshold op, c.reported.get P.metricId = some (some value) ∧ value.isNan = false ∧
    b.float P.threshold = some threshold ∧ GateOperator.ofName P.operation = some op ∧ op.holds value threshold = true
  coverage : ∃ coverage required, c.coverage = some coverage ∧ requiredFor b P = some required ∧
    required.le coverage = true
  comparable : P.requireComparable = true → ∃ compared, comparison = some compared ∧ compared.eligible = true
  judges : ∀ q ∈ c.judges, Qualified q
  pairs : P.booleanMetric → ∀ q ∈ c.judges, isRequired q = true → pairwiseMode q = false

/-- What only the first gate asks for. -/
structure LiteReads : Prop where
  threshold : isNumber P.threshold = true
  required : P.requiredCoverage ≠ some .null
  cost : P.requireCostKnown = true → c.costPassable = true

/-- What only the rules ask for. -/
structure FullReads : Prop where
  threshold : ∀ t, b.float P.threshold = some t → t.isFinite = true
  value : ∀ v, c.reported.get P.metricId = some (some v) → v.isInfinite = false
  required : ∀ required, requiredFor b P = some required → Double.zero.le required = true
  cost : P.requireCostKnown = true → ∃ v, c.reported.get "cost.total_usd" = some (some v) ∧ v.isFinite = true
  level : P.requireComparable = true → ∀ compared, comparison = some compared → compared.level = .comparable
  pairs : P.booleanMetric → ∀ q ∈ c.judges, pairwiseMode q = true → isRequired q = true

/-- The first gate passes. -/
def LitePasses : Prop := ∃ a, evaluateGate b P c comparison = .ok a ∧ a.passed = true

/-- The inputs of the rules are those of the first gate. -/
structure Corresponds (x : Evaluation) : Prop where
  metricValues : x.candidate.metricValues = c.reported
  coverage : x.candidate.coverage = c.coverage
  comparisonLevel : x.comparisonLevel = comparison.map ComparisonResult.level
  judgeQualification : x.evidence.judgeQualification.rows =
    [("candidate", c.judgeQualification), ("baseline", c.baselineJudgeQualification)]

end Checks

/-- The projected policy passes. -/
def FullPasses {δ : Type} (b : Builtins) (C : PairwiseContracts) (H : Digests δ) (P : LegacyPolicy) (x : Evaluation) :
    Prop :=
  ∃ p a, legacyPolicyToRules b P = .ok p ∧ evaluateGatePolicy b C H p x = .ok a ∧ a.decision = .pass

/-- The metric is in both registries, and the operator goes its way. -/
structure InBoth (P : LegacyPolicy) (op : GateOperator) (d : MetricDefinition) : Prop where
  listed : ∃ spec, liteRegistry.find? (·.metricId = P.metricId) = some spec
  defined : lookupMetric P.metricId = some d
  operator : GateOperator.ofName P.operation = some op
  agrees : op.agrees d.direction = true

theorem InBoth.metricId_mem {P : LegacyPolicy} {op : GateOperator} {d : MetricDefinition} (h : InBoth P op d) :
    P.metricId ∈ ["accuracy", "valid_trial_pass_rate", "valid_trial_coverage", "cost.total_usd"] := by
  obtain ⟨spec, hfind⟩ := h.listed
  have hid := List.find?_some hfind
  have hmem := List.mem_of_find?_eq_some hfind
  simp only [decide_eq_true_eq] at hid
  rw [← hid]
  simp only [liteRegistry, List.mem_cons, List.not_mem_nil, or_false] at hmem
  rcases hmem with rfl | rfl | rfl | rfl <;> simp

theorem not_nan_of_holds {op : GateOperator} {value threshold : Double} (h : op.holds value threshold = true) :
    value.isNan = false := by
  cases op with
  | gte => exact (Number.not_nan_of_le h).2
  | lte => exact (Number.not_nan_of_le h).1
  | gt =>
    simp only [GateOperator.holds, Double.lt, Number.lt, Bool.and_eq_true] at h
    exact (Number.not_nan_of_le h.1).2
  | lt =>
    simp only [GateOperator.holds, Double.lt, Number.lt, Bool.and_eq_true] at h
    exact (Number.not_nan_of_le h.1).1

theorem reported_get (c : Candidate) (metricId : String) : c.reported.get metricId =
    match c.metricValues.get metricId with
    | some entry => some entry
    | none => if metricId = "accuracy" then c.metricValue.map some else none := by
  unfold Candidate.reported
  by_cases hid : metricId = "accuracy"
  · subst hid
    cases hget : c.metricValues.get "accuracy" with
    | none => cases hv : c.metricValue <;> simp [hget]
    | some entry => simp [hget]
  · split
    · rw [Table.get_set_ne _ _ hid]
      cases c.metricValues.get metricId <;> simp [hid]
    · cases c.metricValues.get metricId <;> simp [hid]

/-! ### The first gate -/

section Lite
variable {b : Builtins} {P : LegacyPolicy} {c : Candidate} {comparison : Option ComparisonResult} {op : GateOperator}
  {d : MetricDefinition}

theorem resolveMetricValue_iff (h : InBoth P op d) {value threshold : Double} (hholds : op.holds value threshold = true) :
    resolveMetricValue b P c = .ok value ↔ c.reported.get P.metricId = some (some value) := by
  obtain ⟨spec, hfind⟩ := h.listed
  rw [reported_get]
  simp only [resolveMetricValue, hfind]
  cases hget : c.metricValues.get P.metricId with
  | none =>
    by_cases hid : P.metricId = "accuracy"
    · simp only [hid, if_true]
      cases c.metricValue <;> simp
    · simp [hid]
  | some entry =>
    cases entry with
    | none =>
      dsimp only
      split <;> simp
    | some v =>
      dsimp only
      split
      · rename_i hnan
        simp only [reduceCtorEq, Option.some.injEq, false_iff]
        intro hv
        rw [hv, not_nan_of_holds hholds] at hnan
        cases hnan
      · simp

theorem liteMetricRule_passed (h : InBoth P op d) : (∃ rule, liteMetricRule b P c = .ok rule ∧ rule.passed = true) ↔
    isNumber P.threshold = true ∧ ∃ value threshold, c.reported.get P.metricId = some (some value) ∧
      b.float P.threshold = some threshold ∧ op.holds value threshold = true := by
  unfold liteMetricRule
  simp only [h.operator]
  cases hresolve : resolveMetricValue b P c with
  | error reason =>
    simp only [Except.ok.injEq, exists_eq_left', Bool.false_eq_true, false_iff, not_and, not_exists]
    intro _ value threshold hvalue _ hholds
    rw [← resolveMetricValue_iff (b := b) h hholds, hresolve] at hvalue
    cases hvalue
  | ok value =>
    dsimp only
    split
    · rename_i hnumber
      have hfalse : isNumber P.threshold = false := by simpa using hnumber
      simp [hfalse]
    · rename_i hnumber
      have htrue : isNumber P.threshold = true := by simpa using hnumber
      cases hfloat : b.float P.threshold with
      | none => simp
      | some threshold =>
        simp only [Except.ok.injEq, exists_eq_left', htrue, true_and, Option.some.injEq]
        constructor
        · intro hholds
          exact ⟨value, threshold, (resolveMetricValue_iff h hholds).1 hresolve, rfl, hholds⟩
        · rintro ⟨value', threshold', hvalue, rfl, hholds⟩
          rw [← resolveMetricValue_iff (b := b) h hholds, hresolve] at hvalue
          cases hvalue
          exact hholds

theorem requiredCoverage_iff {required : Double} : requiredCoverage b P = .ok required ↔
    P.requiredCoverage ≠ some .null ∧ requiredFor b P = some required := by
  unfold requiredCoverage requiredFor
  cases hcoverage : P.requiredCoverage with
  | none => simp
  | some v =>
    cases v with
    | null => simp [Builtins.float]
    | bool _ | int _ | float _ | str _ | arr _ | obj _ =>
      dsimp only [Option.getD_some]
      split
      · rename_i hfloat
        simp [hfloat]
      · rename_i hfloat
        simp [hfloat]

theorem liteCoverageRule_passed {required : Double} : (liteCoverageRule b c required).passed = true ↔
    ∃ coverage, c.coverage = some coverage ∧ required.le coverage = true := by
  unfold liteCoverageRule
  cases hcoverage : c.coverage with
  | none => simp
  | some v => by_cases hle : required.le v = true <;> simp [hle]

theorem liteQualificationRules_passed : (liteQualificationRules b c).all LiteRule.passed = true ↔
    ∀ q ∈ c.judges, Qualified q := by
  have hone : ∀ q : Value, (isRequired q = true → q.get? "gate_eligible" = some (.bool true)) ↔ Qualified q :=
    fun q => Iff.rfl
  simp only [liteQualificationRules, List.all_map, List.all_eq_true, Function.comp, requiredQualifications,
    List.mem_filter, Candidate.judges, ← hone, decide_eq_true_eq, and_imp]
  simp

theorem litePairwiseRules_passed : (litePairwiseRules P c).all LiteRule.passed = true ↔
    (P.booleanMetric → ∀ q ∈ c.judges, isRequired q = true → pairwiseMode q = false) := by
  unfold litePairwiseRules LegacyPolicy.booleanMetric
  split
  · rename_i hmode
    simp only [Bool.and_eq_true, decide_eq_true_eq, List.any_eq_true, requiredQualifications, List.mem_filter] at hmode
    obtain ⟨hmetric, item, ⟨hitem, hrequired⟩, hpairwise⟩ := hmode
    simp only [List.all_cons, Bool.false_and, Bool.false_eq_true, false_iff]
    intro hall
    have hmem : item.2 ∈ c.judges := by
      simp only [List.mem_cons, List.not_mem_nil, or_false] at hitem
      rcases hitem with rfl | rfl <;> simp [Candidate.judges]
    have hfalse := hall hmetric item.2 hmem hrequired
    rw [hpairwise] at hfalse
    cases hfalse
  · rename_i hmode
    simp only [List.all_nil, true_iff]
    intro hmetric q hq hrequired
    by_contra hpairwise
    apply hmode
    simp only [Bool.and_eq_true, decide_eq_true_eq, List.any_eq_true, requiredQualifications, List.mem_filter]
    simp only [Candidate.judges, List.mem_cons, List.not_mem_nil, or_false] at hq
    rcases hq with rfl | rfl
    · exact ⟨hmetric, ("judge_qualification", _), ⟨by simp, hrequired⟩, by simpa using hpairwise⟩
    · exact ⟨hmetric, ("baseline_judge_qualification", _), ⟨by simp, hrequired⟩, by simpa using hpairwise⟩

theorem liteCostRules_passed : (liteCostRules P c).all LiteRule.passed = true ↔
    (P.requireCostKnown = true → c.costPassable = true) := by
  unfold liteCostRules
  split
  · rename_i hcost
    simp [hcost]
  · rename_i hcost
    simp [hcost]

theorem liteComparableRules_passed : (liteComparableRules P comparison).all LiteRule.passed = true ↔
    (P.requireComparable = true → ∃ compared, comparison = some compared ∧ compared.eligible = true) := by
  unfold liteComparableRules
  split
  · rename_i hcomparable
    cases comparison <;> simp [hcomparable]
  · rename_i hcomparable
    simp [hcomparable]

/-- The first gate makes the shared checks and its own. -/
theorem litePasses_iff (h : InBoth P op d) :
    LitePasses b P c comparison ↔ Shared b P c comparison ∧ LiteReads P c := by
  have hpasses : LitePasses b P c comparison ↔ (∃ rule, liteMetricRule b P c = .ok rule ∧ rule.passed = true) ∧
      (∃ required, requiredCoverage b P = .ok required ∧ (liteCoverageRule b c required).passed = true) ∧
      (liteCostRules P c).all LiteRule.passed = true ∧ (liteComparableRules P comparison).all LiteRule.passed = true ∧
      (liteQualificationRules b c).all LiteRule.passed = true ∧ (litePairwiseRules P c).all LiteRule.passed = true := by
    simp only [LitePasses, evaluateGate, except_bind_ok_iff, except_pure_ok_iff]
    constructor
    · rintro ⟨a, ⟨rule, hrule, required, hrequired, rfl⟩, hpassed⟩
      simp only [List.all_append, List.all_cons, List.all_nil, Bool.and_true, Bool.and_eq_true] at hpassed
      obtain ⟨⟨⟨⟨⟨hmetric, hcoverage⟩, hcost⟩, hcomparable⟩, hqualified⟩, hpairs⟩ := hpassed
      exact ⟨⟨rule, hrule, hmetric⟩, ⟨required, hrequired, hcoverage⟩, hcost, hcomparable, hqualified, hpairs⟩
    · rintro ⟨⟨rule, hrule, hmetric⟩, ⟨required, hrequired, hcoverage⟩, hcost, hcomparable, hqualified, hpairs⟩
      refine ⟨_, ⟨rule, hrule, required, hrequired, rfl⟩, ?_⟩
      simp only [List.all_append, List.all_cons, List.all_nil, Bool.and_true, Bool.and_eq_true]
      exact ⟨⟨⟨⟨⟨hmetric, hcoverage⟩, hcost⟩, hcomparable⟩, hqualified⟩, hpairs⟩
  rw [hpasses, liteMetricRule_passed h, liteCostRules_passed, liteComparableRules_passed, liteQualificationRules_passed,
    litePairwiseRules_passed]
  simp only [requiredCoverage_iff, liteCoverageRule_passed]
  constructor
  · rintro ⟨⟨hnumber, value, threshold, hvalue, hthreshold, hholds⟩, ⟨required, ⟨hrequired, hfor⟩, coverage, hcoverage, hle⟩,
      hcost, hcomparable, hqualified, hpairs⟩
    exact ⟨⟨⟨value, threshold, op, hvalue, not_nan_of_holds hholds, hthreshold, h.operator, hholds⟩,
      ⟨coverage, required, hcoverage, hfor, hle⟩, hcomparable, hqualified, hpairs⟩, ⟨hnumber, hrequired, hcost⟩⟩
  · rintro ⟨hshared, hreads⟩
    obtain ⟨value, threshold, op', hvalue, -, hthreshold, hop, hholds⟩ := hshared.metric
    obtain ⟨coverage, required, hcoverage, hfor, hle⟩ := hshared.coverage
    rw [h.operator] at hop
    cases hop
    exact ⟨⟨hreads.threshold, value, threshold, hvalue, hthreshold, hholds⟩,
      ⟨required, ⟨hreads.required, hfor⟩, coverage, hcoverage, hle⟩, hreads.cost, hshared.comparable, hshared.judges,
      hshared.pairs⟩

end Lite

/-! ### The rules -/

section Full
variable {δ : Type} {b : Builtins} {C : PairwiseContracts} {H : Digests δ} {P : LegacyPolicy} {c : Candidate}
  {comparison : Option ComparisonResult} {op : GateOperator} {d : MetricDefinition} {p : GatePolicyVersion} {x : Evaluation}

/-- What is known of a projected policy. -/
structure Projected (b : Builtins) (P : LegacyPolicy) (op : GateOperator) (p : GatePolicyVersion)
    (threshold required : Double) : Prop where
  readThreshold : b.float P.threshold = some threshold
  finite : threshold.isFinite = true
  readRequired : requiredFor b P = some required
  ratio : required.isRatio = true
  rules : p.rules = legacyRules P op (some threshold) required
  formal : p.diagnostic = false

theorem floatOrNone_ok {v : Value} {o : Option Double} : floatOrNone b v = .ok o ↔
    (v = .null ∧ o = none) ∨ (v ≠ .null ∧ ∃ x, b.float v = some x ∧ o = some x) := by
  cases v with
  | null => simp [floatOrNone, eq_comm]
  | bool _ | int _ | float _ | str _ | arr _ | obj _ =>
    unfold floatOrNone
    split
    · contradiction
    · rename_i hfloat
      split
      · rename_i x hx
        simp [hx, eq_comm]
      · rename_i hx
        simp [hx]

theorem requiredFor_eq_some {required : Double} : requiredFor b P = some required ↔
    ∃ o, floatOrNone b (P.requiredCoverage.getD .null) = .ok o ∧ o.getD .zero = required := by
  unfold requiredFor
  split
  · rename_i hnull
    simp [floatOrNone, hnull]
  · rename_i v hnull
    simp only [floatOrNone_ok]
    constructor
    · intro h
      exact ⟨some required, .inr ⟨hnull, required, h, rfl⟩, rfl⟩
    · rintro ⟨o, ⟨hv, -⟩ | ⟨-, y, hy, rfl⟩, rfl⟩
      · exact absurd hv hnull
      · exact hy

theorem legacyRules_valid (hmetric : P.metricId ≠ "") {threshold : Option Double} {required : Double} :
    (∀ r ∈ legacyRules P op threshold required, r.Valid) ↔
      (∃ t, threshold = some t ∧ t.isFinite = true) ∧ required.isRatio = true := by
  have hthreshold : (thresholdLegacyRule P op threshold).Valid ↔ ∃ t, threshold = some t ∧ t.isFinite = true := by
    rw [GateRule.valid_iff]
    cases threshold <;> simp [GateRule.check, thresholdLegacyRule, hmetric, RuleKind.readsMetric]
  have hcomparable : (comparableLegacyRule P op threshold).Valid ↔ ∃ t, threshold = some t ∧ t.isFinite = true := by
    rw [GateRule.valid_iff]
    cases threshold <;> simp [GateRule.check, comparableLegacyRule, hmetric, RuleKind.readsMetric]
  have hcoverage : (coverageLegacyRule required).Valid ↔ required.isRatio = true := by
    rw [GateRule.valid_iff]
    simp [GateRule.check, coverageLegacyRule, RuleKind.readsMetric]
  have hcost : costLegacyRule.Valid := by decide
  unfold legacyRules
  simp only [List.forall_mem_append, List.forall_mem_cons, List.not_mem_nil, false_implies, implies_true, and_true,
    hthreshold, hcoverage]
  constructor
  · exact fun h => h.1.1
  · intro h
    refine ⟨⟨h, ?_⟩, ?_⟩
    · split
      · simpa using hcost
      · simp
    · split
      · simpa [hcomparable] using h.1
      · simp

theorem legacyPolicyToRules_ok (h : InBoth P op d) (hp : legacyPolicyToRules b P = .ok p) :
    ∃ threshold required, Projected b P op p threshold required := by
  have hmetric : P.metricId ≠ "" := orElse_ne_empty (by decide)
  simp only [legacyPolicyToRules, except_bind_ok_iff, h.operator, legacyPolicy] at hp
  obtain ⟨threshold, hthreshold, required, hrequired, hp⟩ := hp
  split at hp
  · rename_i hvalid
    cases hp
    obtain ⟨⟨t, rfl, hfinite⟩, hratio⟩ := (legacyRules_valid hmetric).1 hvalid
    have hfloat : b.float P.threshold = some t := by
      rcases floatOrNone_ok.1 hthreshold with ⟨-, hnone⟩ | ⟨-, y, hy, hsome⟩
      · cases hnone
      · cases hsome
        exact hy
    exact ⟨t, required.getD .zero, hfloat, hfinite, requiredFor_eq_some.2 ⟨required, hrequired, rfl⟩, hratio, rfl, rfl⟩
  · cases hp

theorem legacyPolicyToRules_of (h : InBoth P op d) {threshold required : Double} (hfloat : b.float P.threshold = some threshold)
    (hfinite : threshold.isFinite = true) (hfor : requiredFor b P = some required) (hratio : required.isRatio = true) :
    ∃ p, legacyPolicyToRules b P = .ok p ∧ Projected b P op p threshold required := by
  have hmetric : P.metricId ≠ "" := orElse_ne_empty (by decide)
  obtain ⟨o, ho, rfl⟩ := requiredFor_eq_some.1 hfor
  have hnull : P.threshold ≠ .null := by
    intro hnull
    rw [hnull] at hfloat
    cases hfloat
  have hthreshold : floatOrNone b P.threshold = .ok (some threshold) :=
    floatOrNone_ok.2 (.inr ⟨hnull, threshold, hfloat, rfl⟩)
  have hvalid := (@legacyRules_valid P op hmetric _ _).2 ⟨⟨threshold, rfl, hfinite⟩, hratio⟩
  cases hp : legacyPolicyToRules b P with
  | ok p =>
    obtain ⟨t, q, hprojected⟩ := legacyPolicyToRules_ok h hp
    have ht : t = threshold := Option.some.inj (hprojected.readThreshold.symm.trans hfloat)
    have hq : q = o.getD .zero := Option.some.inj (hprojected.readRequired.symm.trans hfor)
    exact ⟨p, rfl, ht ▸ hq ▸ hprojected⟩
  | error e =>
    simp only [legacyPolicyToRules, h.operator, legacyPolicy, hthreshold, ho, bind, Except.bind] at hp
    rw [dif_pos hvalid] at hp
    cases hp

theorem mem_legacyRules {r : GateRule} {threshold : Option Double} {required : Double} :
    r ∈ legacyRules P op threshold required ↔ r = thresholdLegacyRule P op threshold ∨ r = coverageLegacyRule required ∨
      (P.requireCostKnown = true ∧ r = costLegacyRule) ∨
      (P.requireComparable = true ∧ r = comparableLegacyRule P op threshold) := by
  unfold legacyRules
  cases P.requireCostKnown <;> cases P.requireComparable <;> simp

theorem Projected.plain (h : InBoth P op d) {threshold required : Double} (hp : Projected b P op p threshold required) :
    referencesPairwiseQuality p = false := by
  have hmetric : namesPairwise (some P.metricId) = false := by
    have hmem := h.metricId_mem
    simp only [List.mem_cons, List.not_mem_nil, or_false] at hmem
    rcases hmem with hid | hid | hid | hid <;> rw [hid] <;> decide +kernel
  have hcost : namesPairwise (some "cost.total_usd") = false := by decide +kernel
  rw [referencesPairwiseQuality, List.any_eq_false]
  intro r hr
  rw [hp.rules, mem_legacyRules] at hr
  rcases hr with rfl | rfl | ⟨-, rfl⟩ | ⟨-, rfl⟩
  · simp [thresholdLegacyRule, hmetric]
  · simp [coverageLegacyRule, namesPairwise]
  · simp [costLegacyRule, hcost]
  · simp [comparableLegacyRule, hmetric]

theorem metricValue_ok {s : Snapshot} {metricId : String} {definition : MetricDefinition}
    (hdefined : lookupMetric metricId = some definition) {v : Double} :
    metricValue b s metricId = .ok v ↔ s.metricValues.get metricId = some (some v) ∧ v.isFinite = true := by
  simp only [metricValue, hdefined]
  cases hget : s.metricValues.get metricId with
  | none => simp
  | some entry =>
    cases entry with
    | none =>
      dsimp only
      split <;> simp
    | some w =>
      simp only [Option.some.injEq]
      cases hnan : w.isNan with
      | true =>
        simp only [if_true, reduceCtorEq, false_iff, not_and]
        rintro rfl
        simp [Double.isFinite, hnan]
      | false =>
        cases hinfinite : w.isInfinite with
        | true =>
          simp only [Bool.false_eq_true, if_false, if_true, reduceCtorEq, false_iff, not_and]
          rintro rfl
          simp [Double.isFinite, hinfinite]
        | false =>
          simp only [Bool.false_eq_true, if_false, Except.ok.injEq]
          constructor
          · rintro rfl
            exact ⟨rfl, by simp [Double.isFinite, hnan, hinfinite]⟩
          · exact fun hv => hv.1

/-- A blocking rule that does not skip clears the way when it is satisfied. -/
theorem clears_iff {r : GateRule} (hblock : r.severity = .block) (hclosed : r.missingPolicy = .failClosed) :
    Clears b C p x r ↔ Satisfied b C p x r := by
  constructor
  · exact fun hc => hc.1 hblock
  · intro hs
    refine ⟨fun _ => hs, fun hskipped => ?_⟩
    have hskips := hskipped.skips
    rw [hclosed] at hskips
    cases hskips

section Rules
variable (plain : referencesPairwiseQuality p = false)
include plain

theorem satisfied_metric {r : GateRule} (hkind : r.kind.readsMetric = true) (hdelta : r.kind ≠ .baselineDelta)
    (hrun : r.requiresSuccessfulRun = false) (hformal : r.experimentalEvidence = false) {metricId : String}
    (hmetric : r.metricId = some metricId) {definition : MetricDefinition} (hdefined : lookupMetric metricId = some definition) :
    Satisfied b C p x r ↔ comparabilityGate r x.comparisonLevel x.metricEligibility = none ∧
      ∃ v, x.candidate.metricValues.get metricId = some (some v) ∧ v.isFinite = true ∧
        ∀ t o, r.threshold = some t → r.operator = some o → o.holds v t = true := by
  have hreads : readsPairwise p r = false := by simp [readsPairwise, plain]
  have hadmitted : Admitted p x r ↔ comparabilityGate r x.comparisonLevel x.metricEligibility = none :=
    ⟨fun ha => ha.comparable, fun hg => ⟨by simp [hrun], by simp [hformal], hg⟩⟩
  have hmet : Met b C p x r ↔ ∃ d value, metricDefinition p r = some d ∧ metricReading b C p x r = .ok value ∧
      Within b x r d value := by
    unfold Met
    cases hk : r.kind <;> simp_all [RuleKind.readsMetric]
  have hreading : ∀ v, metricReading b C p x r = .ok v ↔
      x.candidate.metricValues.get metricId = some (some v) ∧ v.isFinite = true := by
    intro v
    rw [metricReading, hreads, if_neg (by simp), hmetric]
    exact metricValue_ok hdefined
  rw [Satisfied, hadmitted, hmet]
  simp only [metricDefinition, hreads, hmetric, Bool.false_eq_true, if_false, Option.getD_some, hdefined,
    Option.some.injEq, exists_and_left, exists_eq_left', hreading, Within, hdelta, and_assoc]

theorem satisfied_coverage {required : Double} (hratio : required.isRatio = true)
    (hcoverage : ∀ v, x.candidate.coverage = some v → v.isRatio = true) :
    Satisfied b C p x (coverageLegacyRule required) ↔
      ∃ v, x.candidate.coverage = some v ∧ required.le v = true := by
  have hnan : ∀ v : Double, v.isRatio = true → v.number.isNan = false := by
    intro v hv
    simp only [Double.isRatio, Bool.and_eq_true] at hv
    exact (Number.not_nan_of_le hv.2).1
  have hmet : Met b C p x (coverageLegacyRule required) ↔ ∃ v, x.candidate.coverage = some v ∧ v.lt required = false := by
    have hread : coverageOf C p x = GateRule.nullable (.float ·.bits) x.candidate.coverage := by
      rw [coverageOf, plain, if_neg (by simp)]
    constructor
    · intro hm
      obtain ⟨v, hv, hlt⟩ := CoverageMet.coverage hm required rfl
      rw [hread] at hv
      cases hc : x.candidate.coverage with
      | none =>
        rw [hc] at hv
        cases hv
      | some w =>
        rw [hc] at hv
        cases hv
        exact ⟨w, rfl, hlt⟩
    · rintro ⟨v, hv, hlt⟩
      refine ⟨fun required' hrequired' => ?_, fun _ _ hnone _ => by cases hnone⟩
      cases hrequired'
      exact ⟨v, by rw [hread, hv]; rfl, hlt⟩
  have hadmitted : Admitted p x (coverageLegacyRule required) := ⟨nofun, nofun, rfl⟩
  rw [Satisfied, hmet]
  constructor
  · rintro ⟨-, v, hv, hlt⟩
    exact ⟨v, hv, (Number.lt_eq_false (hnan v (hcoverage v hv)) (hnan required hratio)).1 hlt⟩
  · rintro ⟨v, hv, hle⟩
    exact ⟨hadmitted, v, hv, (Number.lt_eq_false (hnan v (hcoverage v hv)) (hnan required hratio)).2 hle⟩

end Rules

/-! #### The evaluation comes to a decision -/

theorem mapM_total {α β ε : Type} {f : α → Except ε β} {xs : List α} (h : ∀ x ∈ xs, ∃ y, f x = .ok y) :
    ∃ ys, xs.mapM f = .ok ys := by
  induction xs with
  | nil => exact ⟨[], rfl⟩
  | cons x rest ih =>
    obtain ⟨y, hy⟩ := h x (List.mem_cons_self ..)
    obtain ⟨ys, hys⟩ := ih (fun z hz => h z (List.mem_cons_of_mem _ hz))
    exact ⟨y :: ys, by simp only [List.mapM_cons, hy, hys, bind, Except.bind, pure, Except.pure]⟩

theorem metricRule_total {r : GateRule} (h : ∀ d, metricDefinition p r = some d → ruleDirectionReason b r d = none) :
    ∃ result, metricRule b C p x r = .ok result := by
  unfold metricRule
  cases hd : metricDefinition p r with
  | none => exact ⟨_, rfl⟩
  | some d =>
    simp only [h d hd]
    split
    · exact ⟨_, rfl⟩
    · split <;> exact ⟨_, rfl⟩

theorem coverageRule_total (plain : referencesPairwiseQuality p = false) (r : GateRule) :
    ∃ result, coverageRule b C p x r = .ok result := by
  have hproblems : ∃ problems, coverageProblems b r (coverageOf C p x) = .ok problems := by
    have hread : coverageOf C p x = GateRule.nullable (.float ·.bits) x.candidate.coverage := by
      rw [coverageOf, plain, if_neg (by simp)]
    unfold coverageProblems
    rw [hread]
    cases r.minCoverage with
    | none => exact ⟨_, rfl⟩
    | some required => cases x.candidate.coverage <;> exact ⟨_, rfl⟩
  obtain ⟨problems, hproblems⟩ := hproblems
  simp only [coverageRule, hproblems, bind, Except.bind, pure, Except.pure]
  split <;> exact ⟨_, rfl⟩

theorem Projected.evaluated (h : InBoth P op d) {threshold required : Double}
    (hp : Projected b P op p threshold required) : ∃ a, evaluateGatePolicy b C H p x = .ok a := by
  have plain := hp.plain h
  have hdirection : ∀ {r : GateRule}, r.metricId = some P.metricId → r.operator = some op → ∀ d',
      metricDefinition p r = some d' → ruleDirectionReason b r d' = none := by
    intro r hmetric hoperator d' hd'
    have hreads : readsPairwise p r = false := by simp [readsPairwise, plain]
    rw [metricDefinition, hreads, if_neg (by simp), hmetric, Option.getD_some, h.defined] at hd'
    cases hd'
    simp [ruleDirectionReason, hoperator, h.agrees]
  have hcost : ∀ d', metricDefinition p costLegacyRule = some d' → ruleDirectionReason b costLegacyRule d' = none := by
    intro d' hd'
    have hreads : readsPairwise p costLegacyRule = false := by simp [readsPairwise, plain]
    have hlookup : (lookupMetric "cost.total_usd").map MetricDefinition.direction = some .lte := by decide +kernel
    rw [metricDefinition, hreads, if_neg (by simp)] at hd'
    change lookupMetric "cost.total_usd" = some d' at hd'
    rw [hd'] at hlookup
    have hlte : d'.direction = .lte := Option.some.inj hlookup
    simp [ruleDirectionReason, costLegacyRule, hlte, GateOperator.agrees]
  have hkind : ∀ r ∈ p.rules, ∃ result, evaluateKind b C p x r = .ok result := by
    intro r hr
    rw [hp.rules, mem_legacyRules] at hr
    rcases hr with rfl | rfl | ⟨-, rfl⟩ | ⟨-, rfl⟩
    · exact metricRule_total (hdirection rfl rfl)
    · exact coverageRule_total plain _
    · exact metricRule_total hcost
    · exact metricRule_total (hdirection rfl rfl)
  have hrule : ∀ r ∈ p.rules, ∃ result, evaluateRule b C p x r = .ok result := by
    intro r hr
    unfold evaluateRule
    split
    · exact ⟨_, rfl⟩
    · split
      · exact ⟨_, rfl⟩
      · split
        · exact ⟨_, rfl⟩
        · exact hkind r hr
  obtain ⟨results, hresults⟩ := mapM_total hrule
  have hchecked : checkPairwise p x = .ok () := by simp [checkPairwise, plain]
  obtain ⟨a, ha, -⟩ := evaluated_of_decisionAt (b := b) (C := C) (p := p) (x := x) H
    (d := decisionOf (results ++ (qualificationResults b C p x ++ pairwiseUnavailable p x)))
    (by simp only [decisionAt, hchecked, ruleResults, hresults, bind, Except.bind, pure, Except.pure])
  exact ⟨a, ha⟩

/-! #### What the projected rules ask for -/

theorem Projected.judges_iff (h : InBoth P op d) {threshold required : Double}
    (hp : Projected b P op p threshold required) (hx : Corresponds c comparison x) :
    JudgesQualified C p x ↔ (∀ q ∈ c.judges, Qualified q) ∧
      (P.booleanMetric → ∀ q ∈ c.judges, pairwiseMode q = false) := by
  have plain := hp.plain h
  have hboolean : (∀ r ∈ p.rules, r.booleanQuality = false) ↔ ¬P.booleanMetric := by
    have hquality : P.metricId ∈ ["accuracy", "judged_accuracy", "valid_trial_pass_rate", "cost.per_success_usd"] ↔
        P.booleanMetric := by
      unfold LegacyPolicy.booleanMetric
      have hmem := h.metricId_mem
      simp only [List.mem_cons, List.not_mem_nil, or_false] at hmem ⊢
      rcases hmem with hid | hid | hid | hid <;> simp [hid]
    rw [hp.rules]
    constructor
    · intro hall hb
      have hfalse := hall _ (mem_legacyRules.2 (.inl rfl))
      simp only [GateRule.booleanQuality, thresholdLegacyRule, Option.any_some, hquality.2 hb, decide_true,
        Bool.or_true, Bool.true_eq_false] at hfalse
    · intro hb r hr
      have hnot : decide (P.metricId ∈ ["accuracy", "judged_accuracy", "valid_trial_pass_rate", "cost.per_success_usd"]) =
          false := decide_eq_false (fun hm => hb (hquality.1 hm))
      rcases mem_legacyRules.1 hr with rfl | rfl | ⟨-, rfl⟩ | ⟨-, rfl⟩
      · simp only [GateRule.booleanQuality, thresholdLegacyRule, Option.any_some, hnot]
        rfl
      · rfl
      · decide
      · simp only [GateRule.booleanQuality, comparableLegacyRule, Option.any_some, hnot]
        rfl
  have heach : (∀ item ∈ x.evidence.judgeQualification.rows,
      (referencesPairwiseQuality p = true → item.1 ≠ "candidate") → Qualified item.2) ↔ ∀ q ∈ c.judges, Qualified q := by
    simp [plain, hx.judgeQualification, Candidate.judges]
  have hmode : (∃ item ∈ x.evidence.judgeQualification.rows, pairwiseMode item.2 = true) ↔
      ∃ q ∈ c.judges, pairwiseMode q = true := by
    simp [hx.judgeQualification, Candidate.judges]
  constructor
  · intro hj
    refine ⟨heach.1 hj.each, fun hb q hq => ?_⟩
    by_contra hpairwise
    exact hboolean.1 (hj.quality (hmode.2 ⟨q, hq, by simpa using hpairwise⟩)) hb
  · rintro ⟨hqualified, hpairs⟩
    refine ⟨by simp [plain], heach.2 hqualified, fun hpair => ?_⟩
    rw [hboolean]
    intro hb
    obtain ⟨q, hq, hpairwise⟩ := hmode.1 hpair
    have hfalse := hpairs hb q hq
    rw [hpairwise] at hfalse
    cases hfalse

theorem comparabilityGate_comparable {r : GateRule} (hrequired : r.requiredComparability = some .comparable)
    {level : Option ComparabilityLevel} {eligibility : Table String (Option Bool)} :
    comparabilityGate r level eligibility = none ↔ level = some .comparable := by
  cases level with
  | none => simp [comparabilityGate, hrequired]
  | some level => cases level <;> simp [comparabilityGate, hrequired]

/-- A comparison at the level that the rule asks for, for the same value and threshold. -/
theorem Projected.rules_iff (h : InBoth P op d) {threshold required : Double}
    (hp : Projected b P op p threshold required) (hx : Corresponds c comparison x) :
    (∀ r ∈ p.rules, Clears b C p x r) ↔
      (∃ v, c.reported.get P.metricId = some (some v) ∧ v.isFinite = true ∧ op.holds v threshold = true) ∧
      (∃ v, c.coverage = some v ∧ required.le v = true) ∧
      (P.requireCostKnown = true → ∃ v, c.reported.get "cost.total_usd" = some (some v) ∧ v.isFinite = true) ∧
      (P.requireComparable = true → ∃ compared, comparison = some compared ∧ compared.level = .comparable) := by
  have plain := hp.plain h
  have hthreshold : Clears b C p x (thresholdLegacyRule P op (some threshold)) ↔
      ∃ v, c.reported.get P.metricId = some (some v) ∧ v.isFinite = true ∧ op.holds v threshold = true := by
    rw [clears_iff rfl rfl, satisfied_metric plain rfl (by simp [thresholdLegacyRule]) rfl rfl rfl h.defined, hx.metricValues]
    simp [comparabilityGate, thresholdLegacyRule]
  have hcoverage : Clears b C p x (coverageLegacyRule required) ↔ ∃ v, c.coverage = some v ∧ required.le v = true := by
    rw [clears_iff rfl rfl, satisfied_coverage plain hp.ratio (by rw [hx.coverage]; exact c.coverage_ratio), hx.coverage]
  have hcost : Clears b C p x costLegacyRule ↔
      ∃ v, c.reported.get "cost.total_usd" = some (some v) ∧ v.isFinite = true := by
    obtain ⟨definition, hdefinition⟩ : ∃ definition, lookupMetric "cost.total_usd" = some definition :=
      Option.isSome_iff_exists.1 (by decide +kernel)
    rw [clears_iff rfl rfl, satisfied_metric plain rfl (by decide) rfl rfl rfl hdefinition, hx.metricValues]
    simp [comparabilityGate, costLegacyRule]
  have hcomparable : Clears b C p x (comparableLegacyRule P op (some threshold)) ↔
      (∃ compared, comparison = some compared ∧ compared.level = .comparable) ∧
        ∃ v, c.reported.get P.metricId = some (some v) ∧ v.isFinite = true ∧ op.holds v threshold = true := by
    rw [clears_iff rfl rfl, satisfied_metric plain rfl (by simp [comparableLegacyRule]) rfl rfl rfl h.defined, hx.metricValues,
      comparabilityGate_comparable rfl, hx.comparisonLevel]
    simp [comparableLegacyRule]
  rw [hp.rules]
  constructor
  · intro hall
    have hmetric := hthreshold.1 (hall _ (mem_legacyRules.2 (.inl rfl)))
    refine ⟨hmetric, hcoverage.1 (hall _ (mem_legacyRules.2 (.inr (.inl rfl)))), fun hc => ?_, fun hc => ?_⟩
    · exact hcost.1 (hall _ (mem_legacyRules.2 (.inr (.inr (.inl ⟨hc, rfl⟩)))))
    · exact (hcomparable.1 (hall _ (mem_legacyRules.2 (.inr (.inr (.inr ⟨hc, rfl⟩)))))).1
  · rintro ⟨hmetric, hcovered, hknown, hcompared⟩ r hr
    rcases mem_legacyRules.1 hr with rfl | rfl | ⟨hc, rfl⟩ | ⟨hc, rfl⟩
    · exact hthreshold.2 hmetric
    · exact hcoverage.2 hcovered
    · exact hcost.2 (hknown hc)
    · exact hcomparable.2 ⟨hcompared hc, hmetric⟩

/-- A comparison that is comparable is eligible, and the other way round up to the level. -/
def Produced (comparison : Option ComparisonResult) : Prop :=
  ∀ compared, comparison = some compared →
    ∃ structural baseline candidate pairwise, compared = compareRunReports structural baseline candidate pairwise

theorem Produced.eligible (hproduced : Produced comparison) {compared : ComparisonResult} (hc : comparison = some compared)
    (hlevel : compared.level = .comparable) : compared.eligible = true := by
  obtain ⟨structural, baseline, candidate, pairwise, rfl⟩ := hproduced compared hc
  rw [eligible_iff, hlevel]
  simp

/-- The projected rules make the shared checks and their own. -/
theorem fullPasses_iff (h : InBoth P op d) (hproduced : Produced comparison) (hx : Corresponds c comparison x) :
    FullPasses b C H P x ↔ Shared b P c comparison ∧ FullReads b P c comparison := by
  constructor
  · rintro ⟨p, a, hp, ha, hpass⟩
    obtain ⟨threshold, required, hprojected⟩ := legacyPolicyToRules_ok h hp
    obtain ⟨hrules, hjudges⟩ := (decision_pass_iff ha).1 hpass
    obtain ⟨⟨v, hv, hfinite, hholds⟩, ⟨w, hw, hle⟩, hcost, hcomparable⟩ := (hprojected.rules_iff h hx).1 hrules
    obtain ⟨hqualified, hpairs⟩ := (hprojected.judges_iff h hx).1 hjudges
    have hzero : Double.zero.le required = true := by
      have hratio := hprojected.ratio
      simp only [Double.isRatio, Bool.and_eq_true] at hratio
      exact hratio.1
    refine ⟨⟨⟨v, threshold, op, hv, not_nan_of_holds hholds, hprojected.readThreshold, h.operator, hholds⟩,
      ⟨w, required, hw, hprojected.readRequired, hle⟩, fun hc => ?_, hqualified, fun hb q hq _ => hpairs hb q hq⟩,
      ⟨fun t ht => ?_, fun u hu => ?_, fun r hr => ?_, hcost, fun hc compared hcompared => ?_, fun hb q hq hpair => ?_⟩⟩
    · obtain ⟨compared, hcompared, hlevel⟩ := hcomparable hc
      exact ⟨compared, hcompared, hproduced.eligible hcompared hlevel⟩
    · rw [hprojected.readThreshold] at ht
      cases ht
      exact hprojected.finite
    · rw [hv] at hu
      cases hu
      simp only [Double.isFinite, Bool.and_eq_true, Bool.not_eq_true'] at hfinite
      exact hfinite.2
    · rw [hprojected.readRequired] at hr
      cases hr
      exact hzero
    · obtain ⟨compared', hcompared', hlevel⟩ := hcomparable hc
      rw [hcompared] at hcompared'
      cases hcompared'
      exact hlevel
    · rw [hpairs hb q hq] at hpair
      cases hpair
  · rintro ⟨hshared, hreads⟩
    obtain ⟨v, threshold, op', hv, hnan, hthreshold, hop, hholds⟩ := hshared.metric
    obtain ⟨w, required, hw, hrequired, hle⟩ := hshared.coverage
    rw [h.operator] at hop
    cases hop
    have hratio : required.isRatio = true := by
      have hone := c.coverage_ratio w hw
      simp only [Double.isRatio, Bool.and_eq_true] at hone ⊢
      exact ⟨hreads.required required hrequired, Number.le_trans hle hone.2⟩
    obtain ⟨p, hp, hprojected⟩ := legacyPolicyToRules_of h hthreshold (hreads.threshold _ hthreshold) hrequired hratio
    obtain ⟨a, ha⟩ := hprojected.evaluated (C := C) (H := H) (x := x) h
    refine ⟨p, a, hp, ha, (decision_pass_iff ha).2 ⟨(hprojected.rules_iff h hx).2 ⟨?_, ⟨w, hw, hle⟩, hreads.cost, ?_⟩,
      (hprojected.judges_iff h hx).2 ⟨hshared.judges, ?_⟩⟩⟩
    · exact ⟨v, hv, by simp [Double.isFinite, hnan, hreads.value v hv], hholds⟩
    · intro hc
      obtain ⟨compared, hcompared, -⟩ := hshared.comparable hc
      exact ⟨compared, hcompared, hreads.level hc compared hcompared⟩
    · intro hb q hq
      by_contra hpairwise
      have hmode : pairwiseMode q = true := by simpa using hpairwise
      have hfalse := hshared.pairs hb q hq (hreads.pairs hb q hq hmode)
      rw [hmode] at hfalse
      cases hfalse

/-- The two gates agree just when, where the checks that both make hold, those that only one makes hold together. -/
theorem gates_agree_iff (h : InBoth P op d) (hproduced : Produced comparison) (hx : Corresponds c comparison x) :
    (LitePasses b P c comparison ↔ FullPasses b C H P x) ↔
      (Shared b P c comparison → (LiteReads P c ↔ FullReads b P c comparison)) := by
  rw [litePasses_iff h, fullPasses_iff h hproduced hx]
  constructor
  · intro hiff hshared
    exact ⟨fun hl => (hiff.1 ⟨hshared, hl⟩).2, fun hf => (hiff.2 ⟨hshared, hf⟩).2⟩
  · intro hiff
    exact ⟨fun hl => ⟨hl.1, (hiff hl.1).1 hl.2⟩, fun hf => ⟨hf.1, (hiff hf.1).2 hf.2⟩⟩

end Full

/-! ### A cost that is not known -/

def comparablePolicy : LegacyPolicy := { threshold := .int 0, requireComparable := true }

/-- Accuracy one, full coverage. -/
def perfect : Candidate where
  metricValues := (∅ : Table String (Option Double)).set "accuracy" (some .one)
  coverage := some .one
  coverage_ratio c h := by
    cases h
    decide +kernel

/-- Nothing is blocked structurally, and the cost of the baseline is not known. -/
def costUnknown : ComparisonResult := compareRunReports [] {} { known := true } false

def perfectInputs : Evaluation where
  candidateRef := sampleRef
  candidate := { metricValues := perfect.reported, coverage := some .one }
  candidateRunStatus := "completed"
  comparisonLevel := some costUnknown.level
  metricEligibility := costUnknown.metricEligibility
  evidence := { judgeQualification := ⟨[("candidate", .null), ("baseline", .null)], by decide⟩ }

def accuracyDefinition : MetricDefinition :=
  { metricId := "accuracy", unit := "ratio", direction := .gte, aggregation := "ratio"
    denominator := "selected_cases", eligibility := "all selected cases judged"
    description := "selected-case accuracy (platform recomputation)" }

theorem comparablePolicy_inBoth : InBoth comparablePolicy .gte accuracyDefinition where
  listed := ⟨_, rfl⟩
  defined := rfl
  operator := by decide
  agrees := by decide

theorem costUnknown_produced : Produced (some costUnknown) := by
  intro compared hcompared
  cases hcompared
  exact ⟨_, _, _, _, rfl⟩

theorem perfect_corresponds : Corresponds perfect (some costUnknown) perfectInputs where
  metricValues := rfl
  coverage := rfl
  comparisonLevel := rfl
  judgeQualification := rfl

theorem perfect_shared : Shared plainBuiltins comparablePolicy perfect (some costUnknown) where
  metric := ⟨.one, .zero, .gte, by decide +kernel, by decide +kernel, by decide +kernel, by decide +kernel, by decide +kernel⟩
  coverage := ⟨.one, .zero, rfl, rfl, by decide +kernel⟩
  comparable _ := ⟨costUnknown, rfl, by decide +kernel⟩
  judges := by simp [Candidate.judges, perfect, Qualified, Value.get?, Value.truthy]
  pairs := by simp [Candidate.judges, perfect, isRequired, Value.get?, Value.truthy]

theorem perfect_liteReads : LiteReads comparablePolicy perfect where
  threshold := by decide
  required := by decide
  cost h := by cases h

theorem costUnknown_partly : costUnknown.level = .partiallyComparable := by decide +kernel

/-- The first gate passes a perfect accuracy while the cost of the baseline is unknown; the rules do not. -/
theorem gates_part : ¬∀ (b : Builtins) (C : PairwiseContracts) (H : Digests Value) (P : LegacyPolicy) (c : Candidate)
    (comparison : Option ComparisonResult) (x : Evaluation) (op : GateOperator) (d : MetricDefinition), InBoth P op d →
    Produced comparison → Corresponds c comparison x → (LitePasses b P c comparison ↔ FullPasses b C H P x) := by
  intro h
  have hiff := h plainBuiltins noContracts canonDigests comparablePolicy perfect (some costUnknown) perfectInputs _ _
    comparablePolicy_inBoth costUnknown_produced perfect_corresponds
  have hlite := (litePasses_iff comparablePolicy_inBoth).2 ⟨perfect_shared, perfect_liteReads⟩
  obtain ⟨-, hfull⟩ := (fullPasses_iff comparablePolicy_inBoth costUnknown_produced perfect_corresponds).1 (hiff.1 hlite)
  have hlevel := hfull.level rfl costUnknown rfl
  rw [costUnknown_partly] at hlevel
  cases hlevel

theorem perfect_parts : ¬(LitePasses plainBuiltins comparablePolicy perfect (some costUnknown) ↔
    FullPasses plainBuiltins noContracts canonDigests comparablePolicy perfectInputs) := by
  rw [gates_agree_iff comparablePolicy_inBoth costUnknown_produced perfect_corresponds]
  intro hiff
  have hlevel := ((hiff perfect_shared).1 perfect_liteReads).level rfl costUnknown rfl
  rw [costUnknown_partly] at hlevel
  cases hlevel

end Motte.Gate
