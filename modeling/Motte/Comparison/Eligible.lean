import Motte.Comparison.Unblocked

/-! The comparison is eligible just when nothing blocks it.

One lemma for each check says when it finds no reason. What can be raised depends on
each manifest by itself, and on the expectations when there is a common case. -/
namespace Motte.Comparison
open Foundation Gate

section Checks
variable {b : Builtins} {P : ComparisonPolicy} {base cand : Document} {s t : Side}

/-! ### Frozen conditions -/

theorem truthy_or (x y : Value) : (x.or y).truthy = (x.truthy || y.truthy) := by
  unfold Value.or
  cases h : x.truthy <;> simp [h]

theorem interventionCheck_ok (hs : Reads b base s) (ht : Reads b cand t) :
    ∃ f, interventionCheck P base cand = .ok f ∧ (f.Clear ↔ P.allows "intervention" = true ∨ InterventionsMatch s t) := by
  have hmatch : InterventionsMatch s t ↔ (s.interventions.member "possible").truthy = false ∧
      (t.interventions.member "possible").truthy = false ∧
      (s.interventions.member "condition_hash").equals (t.interventions.member "condition_hash") = true :=
    ⟨fun h => ⟨h.base, h.cand, h.hash⟩, fun h => ⟨h.1, h.2.1, h.2.2⟩⟩
  simp only [interventionCheck, hs.interventions, ht.interventions, bind, Except.bind, pure, Except.pure, truthy_or]
  split
  · rename_i hfound
    refine ⟨_, rfl, ?_⟩
    rw [clear_difference, or_iff_left]
    rintro ⟨hbase, hcand, hhash⟩
    simp [hbase, hcand, hhash] at hfound
  · rename_i hnone
    refine ⟨_, rfl, ?_⟩
    simp only [Bool.or_eq_true, not_or, Bool.not_eq_true] at hnone
    obtain ⟨⟨hbase, hcand⟩, hhash⟩ := hnone
    have hequal : (s.interventions.member "condition_hash").equals (t.interventions.member "condition_hash") = true := by
      simpa using hhash
    simp [hmatch, hbase, hcand, hequal]

theorem clear_modelCheck {x y : Value} : (modelCheck b P x y).Clear ↔ P.allows "model" = true ∨ x.equals y = true := by
  unfold modelCheck factorDifference
  split
  · rename_i h
    simp [h]
  · rename_i h
    simp [h]

theorem clear_evaluationCheck : (evaluationCheck b base cand).Clear ↔
    ((base.getOrNull "evaluation").isObj = true → (cand.getOrNull "evaluation").isObj = true →
      ∀ field ∈ ["scorer_id", "scorer_version"],
        ((base.getOrNull "evaluation").member field).equals ((cand.getOrNull "evaluation").member field) = true) := by
  have hfield : ∀ (x y : Value) (field : String), (scorerCheck b x y field).Clear ↔
      (x.member field).equals (y.member field) = true := by
    intro x y field
    unfold scorerCheck
    split <;> simp_all
  unfold evaluationCheck
  dsimp only
  split
  · rename_i hboth
    rw [Bool.and_eq_true] at hboth
    rw [clear_concat_map]
    simp only [hfield, hboth.1, hboth.2, true_implies]
  · rename_i hnot
    simp only [clear_empty, true_iff]
    intro hx hy
    exact absurd (by rw [hx, hy]; rfl) hnot

theorem compareInvariants_ok (hs : Reads b base s) (ht : Reads b cand t) :
    ∃ f, compareInvariants b P base cand = .ok f ∧ (f.Clear ↔ InvariantsMatch P base cand s t) := by
  obtain ⟨f, hf, hclear⟩ := interventionCheck_ok (P := P) hs ht
  have hok : compareInvariants b P base cand = .ok (.concat ([f, modelCheck b P s.model t.model,
      runtimeCheck b P s.runtime t.runtime] ++ profileInvariants.map (invariantCheck b P base cand) ++
      [agentCheck b P base cand, agentConfigCheck b base cand, evaluationCheck b base cand])) := by
    simp only [compareInvariants, hf, hs.model, ht.model, hs.runtime, ht.runtime, bind, Except.bind, pure, Except.pure]
  refine ⟨_, hok, ?_⟩
  rw [clear_concat, List.forall_mem_append, List.forall_mem_append, List.forall_mem_map]
  simp only [List.forall_mem_cons, List.not_mem_nil, false_implies, implies_true, and_true, hclear, clear_modelCheck,
    runtimeCheck, invariantCheck, agentCheck, agentConfigCheck, factorDifference, clear_identity_difference]
  have hconfig : ∀ (x y : Value) (missing reason : String), (identityCheck x y missing (.block reason)).Clear ↔
      x.equals y = true := by
    intro x y missing reason
    rw [clear_identityCheck, clear_block, false_or]
    exact ⟨fun h => h.2, fun h => ⟨null_iff_of_equals h, h⟩⟩
  rw [hconfig, clear_evaluationCheck]
  constructor
  · rintro ⟨⟨⟨hinterventions, hmodel, hruntime⟩, hprofile⟩, hagent, hconfig, hevaluation⟩
    exact ⟨hinterventions, hmodel, hruntime, hprofile, hagent, hconfig, hevaluation⟩
  · intro h
    exact ⟨⟨⟨h.interventions, h.model, h.runtime⟩, h.profile⟩, h.agent, h.agentConfig, h.evaluation⟩

/-! ### Budgets -/

theorem clear_allowanceCheck {name : String} {x y : Value} : (allowanceCheck b name x y).Clear ↔ x.equals y = true := by
  unfold allowanceCheck
  split
  · rename_i h
    simp [h]
  · rename_i h
    split <;> simp [h]

theorem clear_fixedCheck {policy : String} {dimension : BudgetDimension} {x y : Value} :
    (fixedCheck b policy dimension x y).Clear ↔ x.equals y = true := by
  unfold fixedCheck
  by_cases hx : x = .null
  · by_cases hy : y = .null <;> simp [hx, hy]
  · by_cases hy : y = .null
    · simp [hx, hy]
    · cases heq : x.equals y <;> simp [hx, hy]

theorem clear_movableCheck {policy : String} {dimension : BudgetDimension} {x y : Value} :
    (movableCheck b policy dimension x y).Clear := by
  unfold movableCheck
  split
  · rfl
  · split <;> simp

theorem clear_compareBudgetDimensions {d e : BudgetDimensions} {policy : Value} :
    (compareBudgetDimensions b d e policy).Clear ↔ DimensionsMatch d e policy := by
  have hother : (∀ key ∈ sortedTexts (d.other.map (·.1) ++ e.other.map (·.1)).dedup,
      (allowanceCheck b key ((Value.obj d.other).member key) ((Value.obj e.other).member key)).Clear) ↔
      ∀ key, key ∈ d.other.map (·.1) ∨ key ∈ e.other.map (·.1) →
        ((Value.obj d.other).member key).equals ((Value.obj e.other).member key) = true := by
    simp only [mem_sortedTexts, List.mem_dedup, List.mem_append, clear_allowanceCheck]
  unfold compareBudgetDimensions
  dsimp only
  by_cases hpolicy : comparableBudget policy = true
  · have hmovable : ∀ key ∈ movableDimensions policy,
        (movableCheck b (b.str policy) key (d.allowance key) (e.allowance key)).Clear := fun _ _ => clear_movableCheck
    simp only [hpolicy, Bool.not_true, Bool.false_eq_true, if_false, clear_append, clear_concat_map, clear_fixedCheck,
      hother, iff_true_intro hmovable, and_true]
    exact ⟨fun h => ⟨h.1, fun _ => h.2⟩, fun h => ⟨h.other, h.fixed hpolicy⟩⟩
  · rw [if_pos (by simpa using hpolicy), clear_concat_map, hother]
    exact ⟨fun h => ⟨h, fun hc => absurd hc hpolicy⟩, fun h => h.other⟩

theorem clear_budgetCheck : (budgetCheck b P base cand).Clear ↔ BudgetsMatch P base cand := by
  unfold budgetCheck BudgetsMatch factorDifference
  dsimp only
  by_cases hpolicy : (budgetPolicy base).equals (budgetPolicy cand) = true
  · simp only [hpolicy, Bool.not_true, Bool.false_eq_true, if_false, if_true]
    cases (budgetSource base).map budgetDimensions <;> cases (budgetSource cand).map budgetDimensions <;>
      simp [clear_compareBudgetDimensions]
  · simp [hpolicy]

/-! ### Workflow, skill and scoring -/

theorem clear_fixtureCheck {x y : Value} : (fixtureCheck b P x y).Clear ↔
    (x ≠ .null → y ≠ .null → P.allows "fixture" = true ∨ (x.member "fixtures").equals (y.member "fixtures") = true) := by
  unfold fixtureCheck
  by_cases hx : x = .null
  · simp [hx]
  · by_cases hy : y = .null
    · simp [hy]
    · cases heq : (x.member "fixtures").equals (y.member "fixtures") <;> simp [hx, hy]

theorem clear_skillCheck {x y : Value} : (skillCheck b P x y).Clear ↔ Matches (P.allows "skill") x y := by
  unfold skillCheck
  rw [clear_equality_first, clear_difference, Matches]
  intro hne
  by_cases hx : x = .null
  · by_cases hy : y = .null
    · rw [hx, hy, (Value.null_equals .null).2 rfl] at hne
      cases hne
    · simp [hx, hy]
  · by_cases hy : y = .null <;> simp [hx, hy]

theorem dict_or {x y v w : Value} (hx : x.dict = .ok v) (hy : y.dict = .ok w) :
    (x.or y).dict = .ok (if x.truthy then v else w) := by
  unfold Value.or
  split
  · exact hx
  · exact hy

theorem attributionCheck_ok (hs : Reads b base s) (ht : Reads b cand t) :
    ∃ f, attributionCheck base cand = .ok f ∧ (f.Clear ↔ Attributable base s t) := by
  have hiff : Attributable base s t ↔ comparableBudget (budgetPolicy base) = true ∧
      ((firstInterventions base s t).member "possible").truthy = false ∧
      ((firstInterventions base s t).member "condition_hash").truthy = false :=
    ⟨fun h => ⟨h.budget, h.untouched⟩, fun h => ⟨h.1, h.2⟩⟩
  simp only [attributionCheck, dict_or hs.interventions ht.interventions, bind, Except.bind, pure, Except.pure]
  rw [hiff]
  change ∃ f, (if ((firstInterventions base s t).member "possible").truthy ||
    ((firstInterventions base s t).member "condition_hash").truthy then _ else _) = _ ∧ _
  cases hbudget : comparableBudget (budgetPolicy base) <;>
    cases hpossible : ((firstInterventions base s t).member "possible").truthy <;>
    cases hhash : ((firstInterventions base s t).member "condition_hash").truthy <;> simp

theorem clear_scenarioCheck {f : String × String} : (scenarioCheck b P base cand f).Clear ↔
    Matches (P.allows f.1) (base.getOrNull f.1) (cand.getOrNull f.1) := by
  unfold scenarioCheck
  rw [clear_equality_first (fun _ => oneSided_iff), clear_difference, Matches]

theorem clear_scenarioChecks {x y : Value} : (scenarioChecks b P base cand x y).Clear ↔
    ∀ f ∈ scenarioTopLevelFields, Matches (P.allows f.1) (base.getOrNull f.1) (cand.getOrNull f.1) := by
  unfold scenarioChecks
  split
  · rw [clear_concat_map]
    simp only [clear_scenarioCheck]
  · rename_i hnone
    simp only [clear_empty, true_iff]
    intro f hf
    simp only [Bool.or_eq_true, not_or, List.any_eq_true, not_exists, not_and, decide_eq_true_eq, not_not] at hnone
    obtain ⟨hbase, hcand⟩ := hnone.2 f hf
    rw [hbase, hcand]
    exact matches_of_equals (by simp)

theorem clear_provenanceFieldCheck {x y : Value} {c : String × String × String} :
    (provenanceFieldCheck b P x y c).Clear ↔
      ((x.member c.1).equals (y.member c.1) = true ∨ P.allows c.2.1 = true) ∧
      (c.1 ≠ "manual_revision" → (x.member c.1 = .null ↔ y.member c.1 = .null)) := by
  unfold provenanceFieldCheck
  dsimp only
  cases heq : (x.member c.1).equals (y.member c.1)
  · simp only [Bool.false_eq_true, if_false, false_or]
    split
    · rename_i hsided
      simp only [Bool.and_eq_true, decide_eq_true_eq, oneSided_iff] at hsided
      simp only [clear_block, false_iff, not_and]
      exact fun _ h => hsided.2 (h hsided.1)
    · rename_i hnot
      simp only [Bool.and_eq_true, decide_eq_true_eq, oneSided_iff, not_and, not_not] at hnot
      simp only [clear_difference]
      exact ⟨fun h => ⟨h, hnot⟩, fun h => h.1⟩
  · simp [null_iff_of_equals heq]

theorem clear_provenanceCheck : (provenanceCheck b P base cand).Clear ↔ ProvenancesMatch P base cand := by
  unfold provenanceCheck
  rw [clear_identityCheck, clear_concat_map]
  simp only [clear_provenanceFieldCheck]
  exact ⟨fun h => ⟨h.1, h.2.symm⟩, fun h => ⟨h.present, h.fields.symm⟩⟩

theorem compareM5Invariants_ok (hs : Reads b base s) (ht : Reads b cand t) :
    ∃ f, compareM5Invariants b P base cand = .ok f ∧ (f.Clear ↔ ArmsMatch P base cand s t ∧
      (s.skill.equals t.skill = false → Attributable base s t) ∧
      (∀ f ∈ scenarioTopLevelFields, Matches (P.allows f.1) (base.getOrNull f.1) (cand.getOrNull f.1)) ∧
      ProvenancesMatch P base cand) := by
  let early : Findings := .concat [workflowCheck b P s.workflow t.workflow, fixtureCheck b P s.workflow t.workflow,
    skillCheck b P s.skill t.skill, budgetCheck b P base cand]
  have hearly : early.Clear ↔ ArmsMatch P base cand s t := by
    simp only [early, clear_concat, List.forall_mem_cons, List.not_mem_nil, false_implies, implies_true, and_true,
      workflowCheck, clear_identity_difference, clear_fixtureCheck, clear_skillCheck, clear_budgetCheck]
    exact ⟨fun h => ⟨h.1, h.2.1, h.2.2.1, h.2.2.2⟩, fun h => ⟨h.workflow, h.fixture, h.skill, h.budget⟩⟩
  obtain ⟨a, ha, hattribution⟩ := attributionCheck_ok hs ht
  have hbind : ∀ g : Findings,
      (if (!s.skill.equals t.skill && early.reasons = []) = true then attributionCheck base cand else .ok {}) = .ok g →
      compareM5Invariants b P base cand = .ok (.concat [early, g, scenarioChecks b P base cand s.workflow t.workflow,
        provenanceCheck b P base cand]) := by
    intro g hg
    simp only [compareM5Invariants, hs.workflow, ht.workflow, hs.skill, ht.skill, bind, Except.bind, pure, Except.pure]
    by_cases hreached : (!s.skill.equals t.skill && early.reasons = []) = true
    · rw [if_pos hreached] at hg ⊢
      rw [hg]
    · rw [if_neg hreached] at hg ⊢
      cases hg
      rfl
  by_cases hreached : (!s.skill.equals t.skill && early.reasons = []) = true
  · refine ⟨_, hbind a (by rw [if_pos hreached, ha]), ?_⟩
    simp only [Bool.and_eq_true, Bool.not_eq_eq_eq_not, Bool.not_true, decide_eq_true_eq] at hreached
    simp only [clear_concat, List.forall_mem_cons, List.not_mem_nil, false_implies, implies_true, and_true, hearly,
      hattribution, clear_scenarioChecks, clear_provenanceCheck, hreached.1, true_implies]
  · refine ⟨_, hbind {} (by rw [if_neg hreached]), ?_⟩
    simp only [Bool.and_eq_true, Bool.not_eq_eq_eq_not, Bool.not_true, decide_eq_true_eq, not_and] at hreached
    simp only [clear_concat, List.forall_mem_cons, List.not_mem_nil, false_implies, implies_true, and_true, hearly,
      clear_empty, clear_scenarioChecks, clear_provenanceCheck, true_and]
    constructor
    · rintro ⟨harms, hscenario, hprovenance⟩
      exact ⟨harms, fun hdiffers => absurd (hearly.2 harms) (hreached hdiffers), hscenario, hprovenance⟩
    · rintro ⟨harms, -, hscenario, hprovenance⟩
      exact ⟨harms, hscenario, hprovenance⟩

/-! ### Cases -/

theorem mem_commonCases {x y : List String} {c : String} : c ∈ commonCases x y ↔ c ∈ x ∧ c ∈ y := by
  simp [commonCases, mem_sortedTexts]

theorem commonCases_eq_nil {x y : List String} : commonCases x y = [] ↔ ¬∃ c ∈ x, c ∈ y := by
  rw [List.eq_nil_iff_forall_not_mem]
  simp only [mem_commonCases, not_exists]

theorem casesBeside_eq_nil {x y : List String} : casesBeside x y = [] ↔ ∀ c ∈ x, c ∈ y := by
  rw [List.eq_nil_iff_forall_not_mem]
  simp [casesBeside, mem_sortedTexts]

/-- The expectations that differ, where they can be read. -/
theorem changedExpectations_ok (hread : ExpectationsRead base cand s t) :
    ∃ changed, changedExpectations base cand (commonCases s.cases t.cases) = .ok changed ∧
      (changed = [] ↔ ∀ x y, (base.getOrNull "case_expectations").dict = .ok x →
        (cand.getOrNull "case_expectations").dict = .ok y → ∀ c ∈ s.cases, c ∈ t.cases →
        (x.member c).equals (y.member c) = true) := by
  unfold changedExpectations
  by_cases hcommon : commonCases s.cases t.cases = []
  · refine ⟨[], by rw [if_pos hcommon], ?_⟩
    simp only [true_iff]
    intro x y _ _ c hc hc'
    exact absurd ⟨c, hc, hc'⟩ (commonCases_eq_nil.1 hcommon)
  · have hex : ∃ c ∈ s.cases, c ∈ t.cases := by
      by_contra hnone
      exact hcommon (commonCases_eq_nil.2 hnone)
    obtain ⟨⟨x, hx⟩, y, hy⟩ := hread hex
    refine ⟨(commonCases s.cases t.cases).filter (fun c => !(x.member c).equals (y.member c)), ?_, ?_⟩
    · rw [if_neg hcommon]
      simp only [hx, hy, bind, Except.bind, pure, Except.pure]
    · rw [List.filter_eq_nil_iff]
      simp only [mem_commonCases, Bool.not_eq_true', Bool.not_eq_false, and_imp]
      constructor
      · intro h x' y' hx' hy' c hc hc'
        rw [hx] at hx'
        rw [hy] at hy'
        cases hx'
        cases hy'
        exact h c hc hc'
      · intro h c hc hc'
        exact h x y hx hy c hc hc'

theorem clear_contentCheck : (contentCheck b base cand (commonCases s.cases t.cases)).Clear ↔
    (base.getOrNull "case_content_hashes" = .null ↔ cand.getOrNull "case_content_hashes" = .null) ∧
    ((base.getOrNull "case_content_hashes").isObj = true → (cand.getOrNull "case_content_hashes").isObj = true →
      ∀ c ∈ s.cases, c ∈ t.cases → ((base.getOrNull "case_content_hashes").member c).equals
        ((cand.getOrNull "case_content_hashes").member c) = true) := by
  have hcontents : changedContents base cand (commonCases s.cases t.cases) = [] ↔
      ((base.getOrNull "case_content_hashes").isObj = true → (cand.getOrNull "case_content_hashes").isObj = true →
        ∀ c ∈ s.cases, c ∈ t.cases → ((base.getOrNull "case_content_hashes").member c).equals
          ((cand.getOrNull "case_content_hashes").member c) = true) := by
    unfold changedContents
    dsimp only
    split
    · rename_i hboth
      rw [Bool.and_eq_true] at hboth
      rw [List.filter_eq_nil_iff]
      simp only [mem_commonCases, Bool.not_eq_true', Bool.not_eq_false, and_imp, hboth.1, hboth.2, true_implies]
    · rename_i hnot
      simp only [true_iff]
      intro hx hy
      exact absurd (by rw [hx, hy]; rfl) hnot
  unfold contentCheck
  dsimp only
  split
  · rename_i hsided
    rw [clear_block, false_iff]
    exact fun h => oneSided_iff.1 hsided h.1
  · rename_i hnot
    have hpresent : base.getOrNull "case_content_hashes" = .null ↔ cand.getOrNull "case_content_hashes" = .null := by
      by_contra h
      exact hnot (oneSided_iff.2 h)
    split
    · rename_i hnil
      simp only [clear_empty, true_iff]
      exact ⟨hpresent, hcontents.1 hnil⟩
    · rename_i hsome
      rw [clear_block, false_iff]
      exact fun h => hsome (hcontents.2 h.2)

theorem clear_fewShotCheck : (fewShotCheck base cand).Clear ↔
    (base.getOrNull "few_shot_hashes").equals (cand.getOrNull "few_shot_hashes") = true := by
  unfold fewShotCheck
  dsimp only
  rw [clear_identityCheck, clear_block, false_or]
  exact ⟨fun h => h.2, fun h => ⟨null_iff_of_equals h, h⟩⟩

theorem clear_caseSetCheck {added removed changed : List String} :
    (caseSetCheck b added removed changed).Clear ↔ added = [] ∧ removed = [] ∧ changed = [] := by
  unfold caseSetCheck
  split
  · rename_i h
    simpa [and_assoc] using h
  · rename_i h
    simpa [and_assoc] using h

end Checks

/-! ### The whole comparison -/

section Whole
variable {b : Builtins} {P : ComparisonPolicy} {x y : RunReport} {s t : Side} {r : RunComparison}

/-- What has been compared could be read. -/
theorem reads_of_ok (h : compareRunReports b P x y = .ok r) : ∃ s t, Reads b x.manifest s ∧ Reads b y.manifest t ∧
    ExpectationsRead x.manifest y.manifest s t := by
  simp only [compareRunReports, compareInvariants, interventionCheck, compareM5Invariants, except_bind_ok_iff] at h
  obtain ⟨_, ⟨_, ⟨i, hi, j, hj, _⟩, model, hmodel, model', hmodel', runtime, hruntime, runtime', hruntime', _⟩, _,
    ⟨workflow, hworkflow, workflow', hworkflow', skill, hskill, skill', hskill', _⟩, cases, hcases, cases', hcases',
    changed, hchanged, _⟩ := h
  refine ⟨⟨i, model, runtime, workflow, skill, cases⟩, ⟨j, model', runtime', workflow', skill', cases'⟩,
    ⟨hi, hmodel, hruntime, hworkflow, hskill, hcases⟩, ⟨hj, hmodel', hruntime', hworkflow', hskill', hcases'⟩, ?_⟩
  intro hcommon
  unfold changedExpectations at hchanged
  rw [if_neg (fun hnil => commonCases_eq_nil.1 hnil hcommon)] at hchanged
  simp only [except_bind_ok_iff] at hchanged
  obtain ⟨v, hv, w, hw, _⟩ := hchanged
  exact ⟨⟨v, hv⟩, w, hw⟩

/-- What can be read is compared, and is eligible just when nothing blocks it. -/
theorem compareRunReports_ok (hs : Reads b x.manifest s) (ht : Reads b y.manifest t)
    (hread : ExpectationsRead x.manifest y.manifest s t) : ∃ r, compareRunReports b P x y = .ok r ∧
    ∃ reasons, r.result = Gate.compareRunReports reasons x.cost y.cost (pairwiseReport x y) ∧
      (reasons = [] ↔ Unblocked P x.manifest y.manifest s t) := by
  obtain ⟨f, hf, hinvariants⟩ := compareInvariants_ok (P := P) hs ht
  obtain ⟨g, hg, hm5⟩ := compareM5Invariants_ok (P := P) hs ht
  obtain ⟨changed, hchanged, hexpectations⟩ := changedExpectations_ok hread
  refine ⟨_, by simp only [compareRunReports, hf, hg, hs.cases, ht.cases, hchanged, bind, Except.bind, pure,
    Except.pure]; rfl, _, rfl, ?_⟩
  change (Findings.concat _).Clear ↔ _
  simp only [clear_concat, List.forall_mem_cons, List.not_mem_nil, false_implies, implies_true, and_true, hinvariants,
    hm5, clear_caseSetCheck, clear_contentCheck, clear_fewShotCheck, casesBeside_eq_nil, hexpectations]
  constructor
  · rintro ⟨hinvariants, ⟨harms, hattribution, hscenario, hprovenance⟩, ⟨hadded, hremoved, hchanged⟩,
      ⟨hpresent, hcontents⟩, hfewShot⟩
    refine ⟨⟨hinvariants, harms, hscenario, hprovenance, ?_⟩, hattribution⟩
    exact {
      same := fun c => ⟨hremoved c, hadded c⟩
      expectations := fun x y hx hy c hc => hchanged x y hx hy c hc (hremoved c hc)
      present := hpresent
      contents := fun hx hy c hc => hcontents hx hy c hc (hremoved c hc)
      fewShot := hfewShot }
  · rintro ⟨⟨hinvariants, harms, hscenario, hprovenance, hcases⟩, hattribution⟩
    exact ⟨hinvariants, ⟨harms, hattribution, hscenario, hprovenance⟩,
      ⟨fun c hc => (hcases.same c).2 hc, fun c hc => (hcases.same c).1 hc,
        fun x y hx hy c hc _ => hcases.expectations x y hx hy c hc⟩,
      ⟨hcases.present, fun hx hy c hc _ => hcases.contents hx hy c hc⟩, hcases.fewShot⟩

/-- A comparison is eligible just when nothing blocks it. -/
theorem eligible_iff (h : compareRunReports b P x y = .ok r) (hs : Reads b x.manifest s) (ht : Reads b y.manifest t) :
    r.result.eligible = true ↔ Unblocked P x.manifest y.manifest s t := by
  obtain ⟨s', t', hs', ht', hread⟩ := reads_of_ok h
  rw [hs.unique hs', ht.unique ht']
  obtain ⟨r', hr', reasons, hresult, hreasons⟩ := compareRunReports_ok (P := P) hs' ht' hread
  rw [h] at hr'
  cases hr'
  rw [hresult, ← hreasons]
  simp [Gate.compareRunReports]

end Whole

end Motte.Comparison
