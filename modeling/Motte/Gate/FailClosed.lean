import Motte.Gate.Decision

/-! Whether lost evidence can turn into a pass.

`EvidenceLoss x y` says that `y` is `x` with entries deleted or set to nothing. A
rule that is not satisfied stays so, in two cases excepted: a coverage rule checks
its number of samples only if there is one (`LiftsSamples`), and a comparison that
is comparable in part only excludes a scope that is entered as ineligible
(`LiftsEligibility`). -/
namespace Motte.Gate
open Foundation

/-! ### Losing evidence -/

/-- Every entry is kept, deleted, or set to nothing. -/
def Thinner {α : Type} (t u : Table String (Option α)) : Prop :=
  ∀ key, u.get key = t.get key ∨ u.get key = none ∨ u.get key = some none

/-- A member of the pairwise section is missing or null. -/
def PairwiseLost (s : Snapshot) : Prop :=
  ∃ key ∈ ["value", "coverage", "planned_pairs"],
    (pairwiseSection s).get? key = none ∨ (pairwiseSection s).get? key = some .null

structure SnapshotLoss (s t : Snapshot) : Prop where
  metricValues : Thinner s.metricValues t.metricValues
  coverage : t.coverage = s.coverage ∨ t.coverage = none
  counts : Thinner s.counts t.counts
  caseResults : Thinner s.caseResults t.caseResults
  pairwise : t.pairwiseQuality = s.pairwiseQuality ∨ PairwiseLost t
  caseDispositions : t.caseDispositions = s.caseDispositions
  ref : t.ref = s.ref
  scoringPassId : t.scoringPassId = s.scoringPassId
  reportSchema : t.reportSchema = s.reportSchema
  metricRegistryVersion : t.metricRegistryVersion = s.metricRegistryVersion

structure EvidenceLoss (x y : Evaluation) : Prop where
  candidate : SnapshotLoss x.candidate y.candidate
  baseline : x.baseline = none ∧ y.baseline = none ∨
    ∃ s t, x.baseline = some s ∧ y.baseline = some t ∧ SnapshotLoss s t
  comparisonLevel : y.comparisonLevel = x.comparisonLevel ∨ y.comparisonLevel = none
  metricEligibility : Thinner x.metricEligibility y.metricEligibility
  modelIdentity : y.evidence.modelIdentity = x.evidence.modelIdentity ∨ y.evidence.modelIdentity = .null
  sideEffectViolations : y.evidence.sideEffectViolations = x.evidence.sideEffectViolations ∨
    y.evidence.sideEffectViolations = .null
  safetyMarkers : y.evidence.safetyMarkers = x.evidence.safetyMarkers ∨ y.evidence.safetyMarkers = .null
  judgeQualification : y.evidence.judgeQualification = x.evidence.judgeQualification
  candidateRef : y.candidateRef = x.candidateRef
  candidateRunStatus : y.candidateRunStatus = x.candidateRunStatus
  baselineRef : y.baselineRef = x.baselineRef

theorem Thinner.kept {α : Type} {t u : Table String (Option α)} (h : Thinner t u) {key : String} {a : α}
    (hget : u.get key = some (some a)) : t.get key = some (some a) := by
  rcases h key with hsame | hnone | hnull
  · rw [← hsame, hget]
  · rw [hnone] at hget
    cases hget
  · rw [hnull] at hget
    cases hget

/-! ### What a loss can lift -/

/-- A coverage rule had too few samples, and after the loss it has no number to compare, or another one. -/
structure LiftsSamples (p : GatePolicyVersion) (x y : Evaluation) (r : GateRule) : Prop where
  kind : r.kind = .coverage
  plain : referencesPairwiseQuality p = false
  short : ∃ (required : Nat) (n : Int), r.minSamples = some required ∧ sampleCount x.candidate = some n ∧ n < required
  unnoticed : ∀ (required : Nat) (n : Int), r.minSamples = some required → sampleCount y.candidate = some n → required ≤ n

/-- A rule was held back for a scope that is ineligible, and after the loss the scope is not entered as such. -/
structure LiftsEligibility (x y : Evaluation) (r : GateRule) : Prop where
  required : r.requiredComparability ≠ none
  level : x.comparisonLevel = some .partiallyComparable
  kept : y.comparisonLevel = some .partiallyComparable
  ineligible : x.metricEligibility.get r.scope = some (some false)
  lost : y.metricEligibility.get r.scope ≠ some (some false)

/-- The loss can lift the rule. -/
def Lifts (p : GatePolicyVersion) (x y : Evaluation) (r : GateRule) : Prop :=
  LiftsSamples p x y r ∨ LiftsEligibility x y r

/-! ### Each reading -/

section Readings
variable {b : Builtins} {C : PairwiseContracts} {p : GatePolicyVersion} {x y : Evaluation} {r : GateRule}
  {s t : Snapshot}

theorem metricValue_loss (h : SnapshotLoss s t) {metricId : String} {v : Double}
    (hv : metricValue b t metricId = .ok v) : metricValue b s metricId = .ok v := by
  unfold metricValue at hv ⊢
  cases hd : lookupMetric metricId with
  | none =>
    rw [hd] at hv
    cases hv
  | some d =>
    simp only [hd] at hv ⊢
    cases hget : t.metricValues.get metricId with
    | none => simp only [hget, reduceCtorEq] at hv
    | some entry =>
      cases entry with
      | none =>
        simp only [hget] at hv
        split at hv <;> cases hv
      | some w =>
        rw [h.metricValues.kept hget]
        rwa [hget] at hv

/-- A case that passes, or fails, did so before. -/
theorem caseOutcome_loss (h : SnapshotLoss s t) {c : String} {outcome : CaseOutcome} (hknown : outcome ≠ .unknown)
    (houtcome : caseOutcome t c = some outcome) : caseOutcome s c = some outcome := by
  unfold caseOutcome at houtcome ⊢
  rw [h.caseDispositions] at houtcome
  cases hfind : s.caseDispositions.find? (fun record => record.1 = c) with
  | none =>
    rw [hfind] at houtcome
    cases houtcome
  | some record =>
    simp only [hfind] at houtcome ⊢
    by_cases hjudged : record.2 = "judged"
    · simp only [hjudged, if_true] at houtcome ⊢
      cases hget : t.caseResults.get c with
      | none =>
        simp only [hget, Option.some.injEq] at houtcome
        exact absurd houtcome.symm hknown
      | some entry =>
        cases entry with
        | none =>
          simp only [hget, Option.some.injEq] at houtcome
          exact absurd houtcome.symm hknown
        | some v =>
          rw [h.caseResults.kept hget]
          rwa [hget] at houtcome
    · simpa only [hjudged, if_false] using houtcome

theorem comparabilityGate_loss (h : EvidenceLoss x y) (hlift : ¬LiftsEligibility x y r)
    (hgate : comparabilityGate r y.comparisonLevel y.metricEligibility = none) :
    comparabilityGate r x.comparisonLevel x.metricEligibility = none := by
  cases hrequired : r.requiredComparability with
  | none => simp [comparabilityGate, hrequired]
  | some required =>
    have hsame : y.comparisonLevel = x.comparisonLevel := by
      rcases h.comparisonLevel with hsame | hnone
      · exact hsame
      · simp [comparabilityGate, hrequired, hnone] at hgate
    rw [hsame] at hgate
    cases hlevel : x.comparisonLevel with
    | none => simp [comparabilityGate, hrequired, hlevel] at hgate
    | some level =>
      have hscope : x.metricEligibility.get r.scope = some (some false) → level = .partiallyComparable →
          y.metricEligibility.get r.scope = some (some false) := by
        intro hineligible hpartly
        by_contra hlost
        rw [hpartly] at hlevel
        exact hlift ⟨by rw [hrequired]; simp, hlevel, by rw [hsame, hlevel], hineligible, hlost⟩
      simp only [comparabilityGate, hrequired, hlevel] at hgate ⊢
      split at hgate
      · cases hgate
      · rename_i hcomparable
        rw [if_neg hcomparable]
        split at hgate
        · cases hgate
        · rename_i hpartly
          rw [if_neg hpartly]
          split at hgate
          · cases hgate
          · rename_i heligible
            apply if_neg
            intro hineligible
            apply heligible
            simp only [Bool.and_eq_true, decide_eq_true_eq] at hineligible ⊢
            exact ⟨hineligible.1, hscope hineligible.2 hineligible.1⟩

/-! The pairwise section is as it was, or it resolves to nothing. -/

theorem selectedRef_loss (h : EvidenceLoss x y) : selectedRef y = selectedRef x := by
  rw [selectedRef, selectedRef, h.candidate.ref, h.candidateRef]

theorem pairwiseSection_congr (h : t.pairwiseQuality = s.pairwiseQuality) : pairwiseSection t = pairwiseSection s := by
  rw [pairwiseSection, pairwiseSection, h]

theorem pairwiseResolved_same (h : EvidenceLoss x y)
    (hsame : y.candidate.pairwiseQuality = x.candidate.pairwiseQuality) : pairwiseResolved C y = pairwiseResolved C x := by
  simp only [pairwiseResolved, resolvePairwiseGateMetric, selectedRef_loss h, h.candidateRef,
    pairwiseSection_congr hsame, h.candidate.scoringPassId, h.candidate.reportSchema, h.candidate.metricRegistryVersion]

theorem pairwiseResolved_lost (h : PairwiseLost y.candidate) (v : Double) : pairwiseResolved C y ≠ .ok v := by
  intro hok
  unfold pairwiseResolved at hok
  split at hok
  · unfold resolvePairwiseGateMetric at hok
    split at hok
    · rename_i q members hq href
      dsimp only at hok
      split at hok
      · cases hok
      · cases hvalue : q.value with
        | none =>
          rw [hvalue] at hok
          cases hok
        | some w =>
          simp only [hvalue] at hok
          split at hok
          · cases hok
          · rename_i hcomplete
            obtain ⟨key, hkey, hlost⟩ := h
            obtain ⟨rawValue, hrawValue, hvalueNull⟩ := C.value_read hq
            obtain ⟨rawCoverage, hrawCoverage, hcoverageNull⟩ := C.coverage_read hq
            simp only [List.mem_cons, List.not_mem_nil, or_false] at hkey
            rcases hkey with rfl | rfl | rfl
            · rw [hrawValue] at hlost
              have hnone := hvalueNull (by simpa using hlost)
              rw [hvalue] at hnone
              cases hnone
            · rw [hrawCoverage] at hlost
              have hnone := hcoverageNull (by simpa using hlost)
              simp [hnone] at hcomplete
            · rw [C.planned_read hq] at hlost
              simp at hlost
    · cases hok
  · cases hok

end Readings

/-! ### A valid pairwise policy has a blocking threshold -/

theorem refused_or {ε α : Type} {c : Prop} [Decidable c] {e : ε} {rest : Except ε α} {a : α} :
    (if c then .error e else rest) = .ok a ↔ ¬c ∧ rest = .ok a := by
  split <;> simp_all

theorem threshold_of_validatePairwiseRule {r : GateRule} (h : validatePairwiseRule r = .ok true) :
    r.kind = .metricThreshold ∧ r.severity = .block := by
  simp only [validatePairwiseRule, bind, Except.bind, pure, Except.pure, invalidPolicy, refused_or] at h
  obtain ⟨-, -, -, hblocking, h⟩ := h
  have hblock : r.severity = .block := by
    by_contra hwarn
    simp [hwarn] at hblocking
  refine ⟨?_, hblock⟩
  by_contra hkind
  rw [if_neg hkind, refused_or] at h
  obtain ⟨-, h⟩ := h
  split at h
  · cases h
  · simp [refused_or] at h

theorem threshold_of_validateRule {r : GateRule} (h : validateRule r = .ok true) :
    r.kind = .metricThreshold ∧ r.severity = .block := by
  simp only [validateRule, bind, Except.bind, pure, Except.pure, unsupportedPolicy, refused_or] at h
  obtain ⟨-, -, h⟩ := h
  split at h
  · exact threshold_of_validatePairwiseRule h
  · cases h

theorem threshold_of_validatePolicy {p : GatePolicyVersion} (h : validatePairwiseQualityPolicy p = .ok ()) :
    ∃ r ∈ p.rules, r.kind = .metricThreshold ∧ r.severity = .block := by
  unfold validatePairwiseQualityPolicy at h
  by_cases hdiagnostic : p.diagnostic = true
  · simp [hdiagnostic, bind, Except.bind, invalidPolicy] at h
  · simp only [hdiagnostic, Bool.false_eq_true, if_false, except_bind_ok_iff] at h
    obtain ⟨thresholds, hthresholds, h⟩ := h
    have hmem : true ∈ thresholds := by
      by_contra hnone
      simp [hnone, invalidPolicy] at h
    obtain ⟨r, hr, hvalid⟩ := exists_of_forall₂ (mapM_ok hthresholds).flip hmem
    exact ⟨r, hr, threshold_of_validateRule hvalid⟩

/-! ### Each rule -/

section Rule
variable {b : Builtins} {C : PairwiseContracts} {p : GatePolicyVersion} {x y : Evaluation} {r : GateRule}

/-- The pairwise section counts, and is as it was. -/
def SectionKept (p : GatePolicyVersion) (x y : Evaluation) : Prop :=
  referencesPairwiseQuality p = true → y.candidate.pairwiseQuality = x.candidate.pairwiseQuality

theorem metricReading_loss (h : EvidenceLoss x y) (hsection : SectionKept p x y) {v : Double}
    (hv : metricReading b C p y r = .ok v) : metricReading b C p x r = .ok v := by
  unfold metricReading at hv ⊢
  by_cases hpairwise : readsPairwise p r = true
  · rw [if_pos hpairwise] at hv ⊢
    have href : referencesPairwiseQuality p = true := by
      simp only [readsPairwise, Bool.and_eq_true] at hpairwise
      exact hpairwise.1
    rwa [← pairwiseResolved_same h (hsection href)]
  · rw [if_neg hpairwise] at hv ⊢
    exact metricValue_loss h.candidate hv

theorem within_loss (h : EvidenceLoss x y) {d : MetricDefinition} {v : Double} (hw : Within b y r d v) :
    Within b x r d v := by
  unfold Within at hw ⊢
  split
  · rename_i hkind
    rw [if_pos hkind] at hw
    obtain ⟨t, base, ht, href, hbase, hle⟩ := hw
    rcases h.baseline with ⟨-, hnone⟩ | ⟨s, t', hs, ht', hloss⟩
    · rw [hnone] at ht
      cases ht
    · rw [ht] at ht'
      cases ht'
      exact ⟨s, base, hs, by rw [← h.baselineRef]; exact href, metricValue_loss hloss hbase, hle⟩
  · rename_i hkind
    rwa [if_neg hkind] at hw

theorem coverageOf_loss (h : EvidenceLoss x y) (hsection : SectionKept p x y) :
    coverageOf C p y = coverageOf C p x ∨ coverageOf C p y = .null := by
  unfold coverageOf
  by_cases hpairwise : referencesPairwiseQuality p = true
  · rw [if_pos hpairwise, if_pos hpairwise, pairwiseResolved_same h (hsection hpairwise),
      pairwiseSection_congr (hsection hpairwise)]
    exact .inl rfl
  · rw [if_neg hpairwise, if_neg hpairwise]
    rcases h.candidate.coverage with hsame | hnone
    · rw [hsame]
      exact .inl rfl
    · rw [hnone]
      exact .inr rfl

theorem coverageMet_loss (h : EvidenceLoss x y) (hsection : SectionKept p x y) (hkind : r.kind = .coverage)
    (hlift : ¬LiftsSamples p x y r) (hmet : CoverageMet b C p y r) : CoverageMet b C p x r where
  coverage required hrequired := by
    obtain ⟨c, hc, hle⟩ := hmet.coverage required hrequired
    rcases coverageOf_loss h hsection with hsame | hnull
    · exact ⟨c, by rw [← hsame]; exact hc, hle⟩
    · rw [hnull] at hc
      cases hc
  samples required n hrequired hn := by
    by_cases hpairwise : referencesPairwiseQuality p = true
    · have hsame : samplesOf p y = samplesOf p x := by
        rw [samplesOf, samplesOf, if_pos hpairwise, if_pos hpairwise, pairwiseSection_congr (hsection hpairwise)]
      exact hmet.samples required n hrequired (hsame ▸ hn)
    · have hplain : referencesPairwiseQuality p = false := by simpa using hpairwise
      have hsamples : ∀ z, samplesOf p z = sampleCount z.candidate := by
        intro z
        rw [samplesOf, if_neg hpairwise]
      rw [hsamples] at hn
      by_contra hshort
      refine hlift ⟨hkind, hplain, ⟨required, n, hrequired, hn, not_le.1 hshort⟩, ?_⟩
      intro required' n' hrequired' hn'
      exact hmet.samples required' n' hrequired' (by rw [hsamples]; exact hn')

theorem met_loss (h : EvidenceLoss x y) (hsection : SectionKept p x y) (hlift : ¬LiftsSamples p x y r)
    (hmet : Met b C p y r) : Met b C p x r := by
  unfold Met at hmet ⊢
  cases hkind : r.kind with
  | metricThreshold | baselineDelta | cost | latency =>
    simp only [hkind] at hmet ⊢
    obtain ⟨d, v, hd, hv, hw⟩ := hmet
    exact ⟨d, v, hd, metricReading_loss h hsection hv, within_loss h hw⟩
  | coverage =>
    simp only [hkind] at hmet ⊢
    exact coverageMet_loss h hsection hkind hlift hmet
  | criticalCase =>
    simp only [hkind] at hmet ⊢
    intro c hc
    exact caseOutcome_loss h.candidate (by simp) (hmet c hc)
  | modelIdentity =>
    simp only [hkind] at hmet ⊢
    rwa [← h.modelIdentity.resolve_right hmet.1]
  | noSideEffect =>
    simp only [hkind] at hmet ⊢
    rwa [← h.sideEffectViolations.resolve_right hmet.1]
  | safetyMarker =>
    simp only [hkind] at hmet ⊢
    rwa [← h.safetyMarkers.resolve_right hmet.1]

theorem lacking_loss (h : EvidenceLoss x y) (hsection : SectionKept p x y) (hlift : ¬LiftsSamples p x y r)
    (hlacking : Lacking b C p x r) : Lacking b C p y r := by
  unfold Lacking at hlacking ⊢
  cases hkind : r.kind with
  | metricThreshold | baselineDelta | cost | latency =>
    simp only [hkind] at hlacking ⊢
    obtain ⟨hd, reason, hreason⟩ := hlacking
    refine ⟨hd, ?_⟩
    cases hreading : metricReading b C p y r with
    | error reason' => exact ⟨reason', rfl⟩
    | ok v =>
      rw [metricReading_loss h hsection hreading] at hreason
      cases hreason
  | coverage =>
    simp only [hkind] at hlacking ⊢
    exact fun hmet => hlacking (coverageMet_loss h hsection hkind hlift hmet)
  | criticalCase =>
    simp only [hkind] at hlacking ⊢
    obtain ⟨hfail, c, hc, hpass⟩ := hlacking
    exact ⟨fun c hc hy => hfail c hc (caseOutcome_loss h.candidate (by simp) hy), c, hc,
      fun hy => hpass (caseOutcome_loss h.candidate (by simp) hy)⟩
  | modelIdentity | noSideEffect | safetyMarker =>
    simp only [hkind] at hlacking

/-- A rule that the loss does not lift and that stands in the way stays in the way. -/
theorem clears_loss (h : EvidenceLoss x y) (hsection : SectionKept p x y) (hlift : ¬Lifts p x y r)
    (hclears : Clears b C p y r) : Clears b C p x r := by
  have hsamples : ¬LiftsSamples p x y r := fun hl => hlift (.inl hl)
  have hgate := comparabilityGate_loss h (fun hl => hlift (.inr hl))
  constructor
  · intro hblock
    obtain ⟨hadmitted, hmet⟩ := hclears.1 hblock
    exact ⟨⟨h.candidateRunStatus ▸ hadmitted.completed, hadmitted.formal, hgate hadmitted.comparable⟩,
      met_loss h hsection hsamples hmet⟩
  · intro hskipped
    refine hclears.2 ⟨h.candidateRunStatus ▸ hskipped.completed, hskipped.formal, hskipped.skips, ?_⟩
    by_cases hmissing : comparabilityGate r y.comparisonLevel y.metricEligibility = none
    · rcases hskipped.missing with hne | hlacking
      · exact absurd (hgate hmissing) hne
      · exact .inr (lacking_loss h hsection hsamples hlacking)
    · exact .inl hmissing

theorem judgesQualified_loss (h : EvidenceLoss x y) (hsection : SectionKept p x y) (hjudges : JudgesQualified C p y) :
    JudgesQualified C p x where
  pairwise hpairwise := by
    have hq := hjudges.pairwise hpairwise
    rw [h.judgeQualification] at hq
    unfold pairwiseQualification at hq ⊢
    rwa [pairwiseSection_congr (hsection hpairwise)] at hq
  each := by
    rw [← h.judgeQualification]
    exact hjudges.each
  quality := by
    rw [← h.judgeQualification]
    exact hjudges.quality

end Rule

/-! ### The policy -/

section Policy
variable {δ : Type} {b : Builtins} {C : PairwiseContracts} {H : Digests δ} {p : GatePolicyVersion} {x y : Evaluation}
  {a a' : GateResult δ}

theorem section_kept (h : EvidenceLoss x y) (hy : evaluateGatePolicy b C H p y = .ok a') (hcleared : Cleared b C p y) :
    SectionKept p x y := by
  intro hpairwise
  refine h.candidate.pairwise.resolve_right (fun hlost => ?_)
  obtain ⟨⟨hchecked, -⟩, -⟩ := evaluateGatePolicy_ok hy
  unfold checkPairwise at hchecked
  rw [if_pos hpairwise] at hchecked
  simp only [except_bind_ok_iff] at hchecked
  obtain ⟨_, hvalid, -⟩ := hchecked
  obtain ⟨r, hr, hkind, hblock⟩ := threshold_of_validatePolicy hvalid
  obtain ⟨-, hmet⟩ := (hcleared.rules r hr).1 hblock
  simp only [Met, hkind] at hmet
  obtain ⟨d, v, -, hv, -⟩ := hmet
  have hreads : readsPairwise p r = true := by simp [readsPairwise, hpairwise, hkind]
  rw [metricReading, if_pos hreads] at hv
  exact pairwiseResolved_lost hlost v hv

/-- Decisions are closed against lost evidence, unless the loss lifts a rule and nothing else is left to stop the
release; and a pass is never given over a blocking result that does not pass. -/
theorem fail_closed (h : evaluateGatePolicy b C H p x = .ok a) :
    (a.decision = .pass → ∀ result ∈ a.ruleResults, result.severity = .block → result.status = .pass) ∧
      ∀ (y : Evaluation) (a' : GateResult δ), EvidenceLoss x y → evaluateGatePolicy b C H p y = .ok a' →
        a.decision ≠ .pass →
        (a'.decision ≠ .pass ↔ ((∃ r ∈ p.rules, Lifts p x y r) → ¬Cleared b C p y)) := by
  refine ⟨blocking_of_pass h, fun y a' hloss hy hheld => ?_⟩
  rw [ne_eq, decision_pass_iff hy]
  constructor
  · intro hnot _
    exact hnot
  · intro hlifts hcleared
    have hnone : ∀ r ∈ p.rules, ¬Lifts p x y r := fun r hr hl => hlifts ⟨r, hr, hl⟩ hcleared
    have hsection := section_kept hloss hy hcleared
    apply hheld
    rw [decision_pass_iff h]
    exact ⟨fun r hr => clears_loss hloss hsection (hnone r hr) (hcleared.rules r hr),
      judgesQualified_loss hloss hsection hcleared.judges⟩

end Policy

/-! ### A number of samples that is not there -/

def minSamplesRule : GateRule := { ruleId := "cov", kind := .coverage, minSamples := some 10 }

theorem minSamplesRule_valid : minSamplesRule.Valid := by constructor <;> simp [minSamplesRule, RuleKind.readsMetric]

def minSamplesPolicy : GatePolicyVersion := formalPolicy minSamplesRule minSamplesRule_valid rfl

def fewSamples : Evaluation where
  candidateRef := sampleRef
  candidate := { counts := (∅ : Table String (Option Int)).set "selected" (some 5) }
  candidateRunStatus := "completed"

def noSamples : Evaluation := { fewSamples with candidate := { counts := fewSamples.candidate.counts.set "selected" none } }

theorem fewSamples_loss : EvidenceLoss fewSamples noSamples where
  candidate := {
    metricValues := fun _ => .inl rfl
    coverage := .inl rfl
    counts := by
      intro key
      by_cases hkey : key = "selected"
      · subst hkey
        exact .inr (.inr (by simp [noSamples]))
      · exact .inl (by simp [noSamples, hkey])
    caseResults := fun _ => .inl rfl
    pairwise := .inl rfl
    caseDispositions := rfl
    ref := rfl
    scoringPassId := rfl
    reportSchema := rfl
    metricRegistryVersion := rfl }
  baseline := .inl ⟨rfl, rfl⟩
  comparisonLevel := .inl rfl
  metricEligibility := fun _ => .inl rfl
  modelIdentity := .inl rfl
  sideEffectViolations := .inl rfl
  safetyMarkers := .inl rfl
  judgeQualification := rfl
  candidateRef := rfl
  candidateRunStatus := rfl
  baselineRef := rfl

theorem fewSamples_insufficient :
    decisionAt plainBuiltins noContracts minSamplesPolicy fewSamples = some .insufficientEvidence := by decide +kernel

theorem noSamples_pass : decisionAt plainBuiltins noContracts minSamplesPolicy noSamples = some .pass := by
  decide +kernel

/-- Five samples are too few; without their number the release passes. -/
theorem lost_count_passes : ¬∀ (b : Builtins) (C : PairwiseContracts) (H : Digests Value) (p : GatePolicyVersion)
    (x y : Evaluation) (a a' : GateResult Value), EvidenceLoss x y → evaluateGatePolicy b C H p x = .ok a →
    evaluateGatePolicy b C H p y = .ok a' → a.decision ≠ .pass → a'.decision ≠ .pass := by
  intro h
  obtain ⟨a, hx, ha⟩ := evaluated_of_decisionAt canonDigests fewSamples_insufficient
  obtain ⟨a', hy, ha'⟩ := evaluated_of_decisionAt canonDigests noSamples_pass
  exact h _ _ _ _ _ _ _ _ fewSamples_loss hx hy (by rw [ha]; simp) ha'

/-- The loss of the number lifts the rule, and nothing else stops the release. -/
theorem lost_count_lifts : ∃ a, evaluateGatePolicy plainBuiltins noContracts canonDigests minSamplesPolicy fewSamples = .ok a ∧
    ((∃ r ∈ minSamplesPolicy.rules, Lifts minSamplesPolicy fewSamples noSamples r) ∧
      Cleared plainBuiltins noContracts minSamplesPolicy noSamples) := by
  obtain ⟨a, hx, ha⟩ := evaluated_of_decisionAt canonDigests fewSamples_insufficient
  obtain ⟨a', hy, ha'⟩ := evaluated_of_decisionAt canonDigests noSamples_pass
  have hiff := (fail_closed hx).2 noSamples a' fewSamples_loss hy (by rw [ha]; simp)
  refine ⟨a, hx, ?_⟩
  by_contra hnot
  exact hiff.2 (fun hl hc => hnot ⟨hl, hc⟩) ha'

end Motte.Gate
