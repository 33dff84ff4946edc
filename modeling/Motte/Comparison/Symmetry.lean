import Motte.Comparison.Eligible

/-! The two directions of a comparison.

Every check but one looks at both sides alike. Whether a difference can be put down
to the skill is asked of the first side's budget policy and of the interventions of
the first side that records any. -/
namespace Motte.Comparison
open Foundation Gate

/-! ### Each check -/

section Checks
variable {P : ComparisonPolicy} {base cand : Document} {s t : Side}

theorem equals_str {v : Value} {text : String} : v.equals (.str text) = true ↔ v = .str text := by
  cases v <;> simp [Value.equals, Value.canon, Value.alike, Value.number?]

/-- Equal policies are the same texts, if they are texts. -/
theorem str_congr {x y : Value} (h : x.equals y = true) (text : String) :
    x.equals (.str text) = true ↔ y.equals (.str text) = true := by
  rw [equals_str, equals_str]
  constructor
  · rintro rfl
    rw [Value.equals_comm] at h
    exact equals_str.1 h
  · rintro rfl
    exact equals_str.1 h

theorem comparableBudget_congr {x y : Value} (h : x.equals y = true) : comparableBudget x = comparableBudget y := by
  rw [Bool.eq_iff_iff]
  simp only [comparableBudget, List.any_eq_true, str_congr h]

theorem fixedDimension_congr {x y : Value} (h : x.equals y = true) : fixedDimension x = fixedDimension y := by
  unfold fixedDimension
  simp only [str_congr h]

theorem InvariantsMatch.symm (h : InvariantsMatch P base cand s t) : InvariantsMatch P cand base t s where
  interventions := h.interventions.imp_right (fun hi =>
    ⟨hi.cand, hi.base, by rw [Value.equals_comm]; exact hi.hash⟩)
  model := h.model.imp_right (fun hm => by rwa [Value.equals_comm])
  runtime := matches_comm.1 h.runtime
  profile c hc := matches_comm.1 (h.profile c hc)
  agent := matches_comm.1 h.agent
  agentConfig := by
    rw [Value.equals_comm]
    exact h.agentConfig
  evaluation hx hy field hf := by
    rw [Value.equals_comm]
    exact h.evaluation hy hx field hf

theorem DimensionsMatch.symm {d e : BudgetDimensions} {policy policy' : Value} (h : DimensionsMatch d e policy)
    (hpolicy : policy.equals policy' = true) : DimensionsMatch e d policy' where
  other key hkey := by
    rw [Value.equals_comm]
    exact h.other key hkey.symm
  fixed hcomparable := by
    rw [Value.equals_comm, ← fixedDimension_congr hpolicy]
    exact h.fixed (by rwa [comparableBudget_congr hpolicy])

theorem BudgetsMatch.symm (h : BudgetsMatch P base cand) : BudgetsMatch P cand base := by
  unfold BudgetsMatch at h ⊢
  rw [Value.equals_comm]
  split
  · rename_i hpolicy
    rw [if_pos hpolicy] at h
    cases hd : (budgetSource base).map budgetDimensions <;> cases he : (budgetSource cand).map budgetDimensions <;>
      simp only [hd, he] at h ⊢
    exact h.symm hpolicy
  · rename_i hpolicy
    rwa [if_neg hpolicy] at h

theorem ArmsMatch.symm (h : ArmsMatch P base cand s t) : ArmsMatch P cand base t s where
  workflow := matches_comm.1 h.workflow
  fixture ht hs := (h.fixture hs ht).imp_right (fun hf => by rwa [Value.equals_comm])
  skill := matches_comm.1 h.skill
  budget := h.budget.symm

theorem ProvenancesMatch.symm (h : ProvenancesMatch P base cand) : ProvenancesMatch P cand base where
  present := h.present.symm
  fields := by
    rcases h.fields with heq | hfields
    · exact .inl (by rwa [Value.equals_comm])
    · refine .inr (fun c hc => ?_)
      obtain ⟨hequal, hpresent⟩ := hfields c hc
      exact ⟨hequal.imp_left (fun he => by rwa [Value.equals_comm]), fun hm => (hpresent hm).symm⟩

theorem CasesMatch.symm (h : CasesMatch base cand s t) : CasesMatch cand base t s where
  same c := (h.same c).symm
  expectations x y hx hy c hc := by
    rw [Value.equals_comm]
    exact h.expectations y x hy hx c ((h.same c).2 hc)
  present := h.present.symm
  contents hx hy c hc := by
    rw [Value.equals_comm]
    exact h.contents hy hx c ((h.same c).2 hc)
  fewShot := by
    rw [Value.equals_comm]
    exact h.fewShot

theorem Shared.symm (h : Shared P base cand s t) : Shared P cand base t s where
  invariants := h.invariants.symm
  arms := h.arms.symm
  scenario f hf := matches_comm.1 (h.scenario f hf)
  provenance := h.provenance.symm
  cases := h.cases.symm

theorem ExpectationsRead.symm (h : ExpectationsRead base cand s t) : ExpectationsRead cand base t s := by
  rintro ⟨c, hc, hc'⟩
  exact (h ⟨c, hc', hc⟩).symm

end Checks

/-! ### The verdict -/

/-- Level and structural eligibility, if the comparison comes to an end. -/
def verdict (b : Builtins) (P : ComparisonPolicy) (x y : RunReport) : Option (ComparabilityLevel × Bool) :=
  match compareRunReports b P x y with
  | .ok r => some (r.result.level, r.result.eligible)
  | .error _ => none

section Verdict
variable {b : Builtins} {P : ComparisonPolicy} {x y : RunReport} {s t : Side}

/-- The verdict of a comparison that is not blocked, or that is. -/
def verdictOf (x y : RunReport) (eligible : Bool) : ComparabilityLevel × Bool :=
  if !eligible then (.notComparable, false)
  else if costReasons x.cost y.cost ≠ [] || pairwiseReport x y then (.partiallyComparable, true)
  else (.comparable, true)

theorem verdictOf_result {reasons : List String} :
    ((Gate.compareRunReports reasons x.cost y.cost (pairwiseReport x y)).level,
      (Gate.compareRunReports reasons x.cost y.cost (pairwiseReport x y)).eligible) =
      verdictOf x y (reasons = []) := by
  by_cases hreasons : reasons = []
  · cases hpair : pairwiseReport x y <;> by_cases hcosts : costReasons x.cost y.cost = [] <;>
      simp [Gate.compareRunReports, verdictOf, hreasons, hcosts, hpair]
  · simp [Gate.compareRunReports, verdictOf, hreasons]

theorem costReasons_eq_nil {a c : CostView} : costReasons a c = [] ↔
    a.known = true ∧ c.known = true ∧ ∀ currency, currency ∈ a.currencies ↔ currency ∈ c.currencies := by
  have hsame : (∀ currency, currency ∈ a.currencies ↔ currency ∈ c.currencies) ↔
      (∀ currency ∈ a.currencies, currency ∈ c.currencies) ∧ ∀ currency ∈ c.currencies, currency ∈ a.currencies :=
    ⟨fun h => ⟨fun k hk => (h k).1 hk, fun k hk => (h k).2 hk⟩, fun h k => ⟨h.1 k, h.2 k⟩⟩
  rw [hsame]
  cases ha : a.known <;> cases hc : c.known <;> simp [costReasons, ha, hc]

theorem verdictOf_comm (eligible : Bool) : verdictOf x y eligible = verdictOf y x eligible := by
  have hpair : pairwiseReport x y = pairwiseReport y x := by
    unfold pairwiseReport
    rw [Bool.or_comm x.pairwise, Bool.or_right_comm]
  have hcosts : (costReasons x.cost y.cost = []) = (costReasons y.cost x.cost = []) := by
    rw [costReasons_eq_nil, costReasons_eq_nil]
    refine propext ⟨fun h => ⟨h.2.1, h.1, fun k => (h.2.2 k).symm⟩, fun h => ⟨h.2.1, h.1, fun k => (h.2.2 k).symm⟩⟩
  unfold verdictOf
  simp only [ne_eq, hpair, hcosts]

theorem verdictOf_injective {e e' : Bool} (h : verdictOf x y e = verdictOf x y e') : e = e' := by
  have hsnd : ∀ e : Bool, (verdictOf x y e).2 = e := by
    intro e
    cases e
    · rfl
    · unfold verdictOf
      rw [if_neg (by simp)]
      split <;> rfl
  rw [← hsnd e, h, hsnd]

open Classical in
/-- What can be read gets the verdict of its conditions. -/
theorem verdict_of_reads (hs : Reads b x.manifest s) (ht : Reads b y.manifest t)
    (hread : ExpectationsRead x.manifest y.manifest s t) :
    verdict b P x y = some (verdictOf x y (decide (Unblocked P x.manifest y.manifest s t))) := by
  obtain ⟨r, hr, reasons, hresult, hreasons⟩ := compareRunReports_ok (P := P) hs ht hread
  have hdecide : decide (Unblocked P x.manifest y.manifest s t) = decide (reasons = []) := by
    rw [decide_eq_decide, hreasons]
  rw [verdict, hr, hdecide, ← verdictOf_result, ← hresult]

theorem verdict_eq_none : verdict b P x y = none ↔ ¬∃ s t, Reads b x.manifest s ∧ Reads b y.manifest t ∧
    ExpectationsRead x.manifest y.manifest s t := by
  constructor
  · rintro hnone ⟨s, t, hs, ht, hread⟩
    rw [verdict_of_reads hs ht hread] at hnone
    cases hnone
  · intro hnot
    unfold verdict
    split
    · rename_i r hr
      exact absurd (reads_of_ok hr) hnot
    · rfl

/-- Both directions come to the same just when they agree on whether a difference can be put down to the skill, where
nothing else blocks the comparison. -/
theorem verdict_comm_iff : verdict b P x y = verdict b P y x ↔
    ∀ s t, Reads b x.manifest s → Reads b y.manifest t → ExpectationsRead x.manifest y.manifest s t →
      Shared P x.manifest y.manifest s t → s.skill.equals t.skill = false →
      (Attributable x.manifest s t ↔ Attributable y.manifest t s) := by
  classical
  have hsplit : ∀ {base cand : Document} {s t : Side}, Shared P base cand s t → s.skill.equals t.skill = false →
      (Unblocked P base cand s t ↔ Attributable base s t) := by
    intro base cand s t hshared hdiffers
    exact ⟨fun h => h.attribution hdiffers, fun h => ⟨hshared, fun _ => h⟩⟩
  by_cases hread : ∃ s t, Reads b x.manifest s ∧ Reads b y.manifest t ∧ ExpectationsRead x.manifest y.manifest s t
  · obtain ⟨s, t, hs, ht, hexpect⟩ := hread
    rw [verdict_of_reads hs ht hexpect, verdict_of_reads ht hs hexpect.symm, verdictOf_comm (x := y)]
    constructor
    · intro h s' t' hs' ht' _ hshared hdiffers
      rw [hs'.unique hs, ht'.unique ht] at hshared hdiffers ⊢
      have hiff := verdictOf_injective (Option.some.inj h)
      rw [decide_eq_decide, hsplit hshared hdiffers, hsplit hshared.symm (by rwa [Value.equals_comm])] at hiff
      exact hiff
    · intro h
      congr 2
      rw [decide_eq_decide]
      constructor
      · rintro ⟨hshared, hattribution⟩
        refine ⟨hshared.symm, fun hdiffers => ?_⟩
        rw [Value.equals_comm] at hdiffers
        exact (h s t hs ht hexpect hshared hdiffers).1 (hattribution hdiffers)
      · rintro ⟨hshared, hattribution⟩
        refine ⟨hshared.symm, fun hdiffers => ?_⟩
        exact (h s t hs ht hexpect hshared.symm hdiffers).2 (hattribution (by rwa [Value.equals_comm]))
  · have hback : ¬∃ s t, Reads b y.manifest s ∧ Reads b x.manifest t ∧ ExpectationsRead y.manifest x.manifest s t := by
      rintro ⟨s, t, hs, ht, hexpect⟩
      exact hread ⟨t, s, ht, hs, hexpect.symm⟩
    rw [verdict_eq_none.2 hread, verdict_eq_none.2 hback]
    simp only [true_iff]
    intro s t hs ht hexpect
    exact absurd ⟨s, t, hs, ht, hexpect⟩ hread

end Verdict

/-! ### Interventions that the baseline hides -/

/-- A manifest with a skill arm, under a comparable budget policy. -/
def armed (arm : String) (interventions : List (String × Value)) : Document :=
  (((∅ : Document).set "skill_arm" (.str arm)).set "budget" (.obj [("policy", .str "same-total-budget")])).set
    "interventions" (.obj interventions)

/-- Interventions are recorded, and there are none. -/
def untouchedReport : RunReport where
  ref := sampleRef
  manifest := armed "no-skill" [("count", .int 0), ("possible", .bool false), ("condition_hash", .null)]

/-- An intervention may have had an effect. -/
def touchedReport : RunReport where
  ref := sampleRef
  manifest := armed "skill-v2" [("count", .int 1), ("possible", .bool true), ("condition_hash", .str "sha256:a")]

def skillFactors : ComparisonPolicy where
  allowedFactors := ["skill", "intervention"]

theorem untouched_first_ok : ∃ r, compareRunReports plainBuiltins skillFactors untouchedReport touchedReport = .ok r ∧
    r.result.eligible = true := ⟨_, rfl, by decide +kernel⟩

theorem untouched_first : verdict plainBuiltins skillFactors untouchedReport touchedReport =
    some (.partiallyComparable, true) := by decide +kernel

theorem touched_first : verdict plainBuiltins skillFactors touchedReport untouchedReport =
    some (.notComparable, false) := by decide +kernel

/-- Which run is called the baseline makes the difference. -/
theorem verdicts_part : ¬∀ (b : Builtins) (P : ComparisonPolicy) (x y : RunReport), verdict b P x y = verdict b P y x := by
  intro h
  have heq := h plainBuiltins skillFactors untouchedReport touchedReport
  rw [untouched_first, touched_first] at heq
  cases heq

end Motte.Comparison
