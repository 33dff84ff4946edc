import Motte.Comparison.Eligible

/-! What two comparable runs agree on, when no factor may differ. -/
namespace Motte.Comparison
open Foundation Gate

/-- Equal on both sides, and present on both or on neither. -/
def Agrees (x y : Value) : Prop := (x = .null ↔ y = .null) ∧ x.equals y = true

theorem agrees_of_equals {x y : Value} (h : x.equals y = true) : Agrees x y := ⟨null_iff_of_equals h, h⟩

theorem agrees_of_matches {allowed : Bool} {x y : Value} (h : Matches allowed x y) (hno : allowed = false) :
    Agrees x y := by
  rw [hno, matches_false] at h
  exact agrees_of_equals h

section Agreement
variable (base cand : Document) (s t : Side)

/-- The budgets are both there or both missing, and agree on the allowances beside the dimensions and on the dimension
that their policy holds fixed. -/
structure BudgetsAgree : Prop where
  policy : Agrees (budgetPolicy base) (budgetPolicy cand)
  present : budgetSource base = none ↔ budgetSource cand = none
  dimensions : ∀ d e, budgetSource base = some d → budgetSource cand = some e →
    (∀ key, key ∈ (budgetDimensions d).other.map (·.1) ∨ key ∈ (budgetDimensions e).other.map (·.1) →
      Agrees ((Value.obj (budgetDimensions d).other).member key) ((Value.obj (budgetDimensions e).other).member key)) ∧
    (comparableBudget (budgetPolicy base) = true →
      Agrees ((budgetDimensions d).allowance (fixedDimension (budgetPolicy base)))
        ((budgetDimensions e).allowance (fixedDimension (budgetPolicy base))))

/-- The two runs agree on the conditions that are compared. -/
structure Agreement : Prop where
  model : Agrees s.model t.model
  runtime : Agrees s.runtime t.runtime
  profile : ∀ c ∈ profileInvariants, Agrees (invariantValue base c.1 c.2.2) (invariantValue cand c.1 c.2.2)
  agent : Agrees (base.getOrNull "agent") (cand.getOrNull "agent")
  agentConfig : Agrees (agentConfigIdentity base) (agentConfigIdentity cand)
  /-- Where both sides have an evaluation. -/
  evaluation : (base.getOrNull "evaluation").isObj = true → (cand.getOrNull "evaluation").isObj = true →
    ∀ field ∈ ["scorer_id", "scorer_version"],
      Agrees ((base.getOrNull "evaluation").member field) ((cand.getOrNull "evaluation").member field)
  workflow : Agrees s.workflow t.workflow
  fixtures : Agrees (s.workflow.member "fixtures") (t.workflow.member "fixtures")
  skill : Agrees s.skill t.skill
  budget : BudgetsAgree base cand
  scenario : ∀ f ∈ scenarioTopLevelFields, Agrees (base.getOrNull f.1) (cand.getOrNull f.1)
  provenance : (scoringProvenance base = .null ↔ scoringProvenance cand = .null) ∧
    ∀ c ∈ provenanceFields, Agrees ((scoringProvenance base).member c.1) ((scoringProvenance cand).member c.1)
  cases : ∀ c, c ∈ s.cases ↔ c ∈ t.cases
  expectations : ∀ x y, (base.getOrNull "case_expectations").dict = .ok x →
    (cand.getOrNull "case_expectations").dict = .ok y → ∀ c ∈ s.cases, Agrees (x.member c) (y.member c)
  /-- A table of hashes is there on both sides or on neither, and the hashes are equal. -/
  contents : (base.getOrNull "case_content_hashes" = .null ↔ cand.getOrNull "case_content_hashes" = .null) ∧
    ((base.getOrNull "case_content_hashes").isObj = true → (cand.getOrNull "case_content_hashes").isObj = true →
      ∀ c ∈ s.cases, Agrees ((base.getOrNull "case_content_hashes").member c)
        ((cand.getOrNull "case_content_hashes").member c))
  fewShot : Agrees (base.getOrNull "few_shot_hashes") (cand.getOrNull "few_shot_hashes")

end Agreement

section Sound
variable {b : Builtins} {P : ComparisonPolicy} {base cand : Document} {s t : Side}

theorem allows_none (hP : P.allowedFactors = []) (factor : String) : P.allows factor = false := by
  simp [ComparisonPolicy.allows, hP]

theorem budgetsAgree (hP : P.allowedFactors = []) (h : BudgetsMatch P base cand) : BudgetsAgree base cand := by
  unfold BudgetsMatch at h
  split at h
  · rename_i hpolicy
    refine ⟨agrees_of_equals hpolicy, ?_, ?_⟩
    · cases hd : budgetSource base <;> cases he : budgetSource cand <;> simp_all
    · intro d e hd he
      simp only [hd, he, Option.map_some] at h
      exact ⟨fun key hkey => agrees_of_equals (h.other key hkey), fun hc => agrees_of_equals (h.fixed hc)⟩
  · rw [allows_none hP] at h
    cases h

theorem agreement_of_shared (hP : P.allowedFactors = []) (h : Shared P base cand s t) : Agreement base cand s t := by
  have hno := allows_none hP
  have hskill := agrees_of_matches h.arms.skill (hno _)
  have hworkflow := agrees_of_matches h.arms.workflow (hno _)
  constructor
  case model => exact agrees_of_equals (h.invariants.model.resolve_left (by simp [hno]))
  case runtime => exact agrees_of_matches h.invariants.runtime (hno _)
  case profile => exact fun c hc => agrees_of_matches (h.invariants.profile c hc) (hno _)
  case agent => exact agrees_of_matches h.invariants.agent (by simp [hno])
  case agentConfig => exact agrees_of_equals h.invariants.agentConfig
  case evaluation => exact fun hx hy field hf => agrees_of_equals (h.invariants.evaluation hx hy field hf)
  case workflow => exact hworkflow
  case fixtures => exact agrees_of_equals (Value.equals_member hworkflow.2 "fixtures")
  case skill => exact hskill
  case budget => exact budgetsAgree hP h.arms.budget
  case scenario => exact fun f hf => agrees_of_matches (h.scenario f hf) (hno _)
  case provenance =>
    refine ⟨h.provenance.present, fun c hc => ?_⟩
    rcases h.provenance.fields with heq | hfields
    · exact agrees_of_equals (Value.equals_member heq c.1)
    · exact agrees_of_equals ((hfields c hc).1.resolve_right (by simp [hno]))
  case cases => exact h.cases.same
  case expectations => exact fun x y hx hy c hc => agrees_of_equals (h.cases.expectations x y hx hy c hc)
  case contents => exact ⟨h.cases.present, fun hx hy c hc => agrees_of_equals (h.cases.contents hx hy c hc)⟩
  case fewShot => exact agrees_of_equals h.cases.fewShot

/-- If no factor may differ, two runs that are found comparable agree on what is compared. -/
theorem comparison_sound {x y : RunReport} {r : RunComparison} (hP : P.allowedFactors = [])
    (h : compareRunReports b P x y = .ok r) (heligible : r.result.eligible = true) :
    ∃ s t, Reads b x.manifest s ∧ Reads b y.manifest t ∧ Agreement x.manifest y.manifest s t := by
  obtain ⟨s, t, hs, ht, -⟩ := reads_of_ok h
  exact ⟨s, t, hs, ht, agreement_of_shared hP ((eligible_iff h hs ht).1 heligible).shared⟩

end Sound

/-! ### Two budgets that differ where their policy lets them -/

/-- A manifest with a total that is held fixed, and what is left for execution. -/
def allotted (execution : Int) : Document := (∅ : Document).set "budget" (.obj [("policy", .str "same-total-budget"),
  ("total_allowance", .int 1000), ("execution_allowance", .int execution)])

def allottedReport (execution : Int) : RunReport where
  ref := sampleRef
  manifest := allotted execution

theorem allotted_eligible : ∃ r, compareRunReports plainBuiltins {} (allottedReport 1000) (allottedReport 900) = .ok r ∧
    r.result.eligible = true := ⟨_, rfl, by decide +kernel⟩

/-- The comparison does not ask for the execution allowance to be the same. -/
theorem allotments_differ : ¬∀ (b : Builtins) (P : ComparisonPolicy) (x y : RunReport) (r : RunComparison),
    P.allowedFactors = [] → compareRunReports b P x y = .ok r → r.result.eligible = true →
    ∀ d e, budgetSource x.manifest = some d → budgetSource y.manifest = some e →
    ∀ dimension, Agrees ((budgetDimensions d).allowance dimension) ((budgetDimensions e).allowance dimension) := by
  intro h
  obtain ⟨r, hr, heligible⟩ := allotted_eligible
  have hagrees := h _ _ _ _ r rfl hr heligible _ _ rfl rfl .execution
  have hequal : (Value.int 1000).equals (.int 900) = true := hagrees.2
  exact absurd hequal (by decide +kernel)

theorem allotted_agreement : ∃ s t, Reads plainBuiltins (allotted 1000) s ∧ Reads plainBuiltins (allotted 900) t ∧
    Agreement (allotted 1000) (allotted 900) s t := by
  obtain ⟨r, hr, heligible⟩ := allotted_eligible
  exact comparison_sound (P := {}) rfl hr heligible

end Motte.Comparison
