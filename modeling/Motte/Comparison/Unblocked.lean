import Motte.Comparison.Compare
import Motte.Foundation.Op

/-! When a comparison is not blocked.

The conditions are stated on what the two manifests say; `eligible_iff` puts them
together for the whole comparison. Two identities match when both sides have one or
neither has, and they are equal unless the policy lets them differ. -/
namespace Motte.Comparison
open Foundation Gate

/-! ### What matches -/

/-- Present on both sides or on neither, and equal unless it may differ. -/
def Matches (allowed : Bool) (x y : Value) : Prop := (x = .null ↔ y = .null) ∧ (allowed = true ∨ x.equals y = true)

section Matches
variable {allowed allowed' : Bool} {x y : Value}

theorem null_iff_of_equals (h : x.equals y = true) : x = .null ↔ y = .null := by
  constructor
  · rintro rfl
    exact (Value.null_equals y).1 h
  · rintro rfl
    exact (Value.equals_null x).1 h

theorem matches_of_equals (h : x.equals y = true) : Matches allowed x y := ⟨null_iff_of_equals h, .inr h⟩

theorem matches_false : Matches false x y ↔ x.equals y = true := by
  constructor
  · rintro ⟨-, h | h⟩
    · cases h
    · exact h
  · exact matches_of_equals

theorem matches_comm : Matches allowed x y ↔ Matches allowed y x := by
  rw [Matches, Matches, Value.equals_comm x y]
  exact and_congr_left' iff_comm

theorem Matches.mono (h : Matches allowed x y) (hle : allowed = true → allowed' = true) : Matches allowed' x y :=
  ⟨h.1, h.2.imp_left hle⟩

theorem oneSided_iff : oneSided x y = true ↔ ¬(x = .null ↔ y = .null) := by
  by_cases hx : x = .null <;> by_cases hy : y = .null <;> simp [oneSided, hx, hy]

end Matches

/-! ### Findings without a reason -/

section Clear
variable {f g : Findings}

/-- The check found no reason. -/
def Findings.Clear (f : Findings) : Prop := f.reasons = []

@[simp] theorem clear_empty : Findings.Clear {} := rfl

@[simp] theorem clear_block (reason : String) : (Findings.block reason).Clear ↔ False := by
  simp [Findings.Clear, Findings.block]

@[simp] theorem clear_permit (note : String) : (Findings.permit note).Clear ↔ True := by
  simp [Findings.Clear, Findings.permit]

@[simp] theorem clear_append : (f ++ g).Clear ↔ f.Clear ∧ g.Clear := List.append_eq_nil_iff

theorem clear_concat {checks : List Findings} : (Findings.concat checks).Clear ↔ ∀ f ∈ checks, f.Clear := by
  induction checks with
  | nil => simp [Findings.concat]
  | cons f rest ih =>
    rw [List.forall_mem_cons, ← ih]
    exact clear_append (f := f) (g := .concat rest)

theorem clear_concat_map {α : Type} {items : List α} {check : α → Findings} :
    (Findings.concat (items.map check)).Clear ↔ ∀ a ∈ items, (check a).Clear := by
  rw [clear_concat, List.forall_mem_map]

@[simp] theorem clear_difference {allowed : Bool} {note reason : String} :
    (difference allowed note reason).Clear ↔ allowed = true := by
  cases allowed <;> simp [difference]

theorem clear_identityCheck {x y : Value} {missing : String} {differs : Findings} :
    (identityCheck x y missing differs).Clear ↔ (x = .null ↔ y = .null) ∧ (differs.Clear ∨ x.equals y = true) := by
  unfold identityCheck
  by_cases hsided : oneSided x y = true
  · rw [if_pos hsided, clear_block, false_iff]
    exact fun h => oneSided_iff.1 hsided h.1
  · have hnull : x = .null ↔ y = .null := by
      by_contra hnot
      exact hsided (oneSided_iff.2 hnot)
    rw [if_neg hsided]
    by_cases hx : x = .null
    · have hy : y = .null := hnull.1 hx
      simp [hx, hy]
    · by_cases heq : x.equals y = true
      · simp [heq, hnull]
      · have hy : y ≠ .null := fun h => hx (hnull.2 h)
        simp [hx, hy, heq]

theorem clear_identity_difference {x y : Value} {missing note reason : String} {allowed : Bool} :
    (identityCheck x y missing (difference allowed note reason)).Clear ↔ Matches allowed x y := by
  rw [clear_identityCheck, clear_difference, Matches]

/-- The checks that look for equality first. -/
theorem clear_equality_first {x y : Value} {missing : String} {differs : Findings} {present : Prop} [Decidable present]
    (hpresent : x.equals y = false → (present ↔ ¬(x = .null ↔ y = .null))) :
    (if x.equals y then {} else if present then .block missing else differs : Findings).Clear ↔
      (x = .null ↔ y = .null) ∧ (differs.Clear ∨ x.equals y = true) := by
  by_cases heq : x.equals y = true
  · simp [heq, null_iff_of_equals heq]
  · have hfalse : x.equals y = false := by simpa using heq
    have hiff := hpresent hfalse
    by_cases hp : present
    · have hnot := hiff.1 hp
      simp [hfalse, hp, hnot]
    · have hnull : x = .null ↔ y = .null := by
        by_contra hnot
        exact hp (hiff.2 hnot)
      simp [hfalse, hp, hnull]

end Clear

/-! ### What is read of the two sides -/

/-- What a comparison reads of one side. -/
structure Side where
  interventions : Value
  model : Value
  runtime : Value
  workflow : Value
  skill : Value
  cases : List String

/-- The manifest can be read, and gives the side. -/
structure Reads (b : Builtins) (m : Document) (s : Side) : Prop where
  interventions : (m.getOrNull "interventions").dict = .ok s.interventions
  model : modelIdentity b m = .ok s.model
  runtime : runtimeIdentity m = .ok s.runtime
  workflow : workflowIdentity b m = .ok s.workflow
  skill : skillIdentity m = .ok s.skill
  cases : caseIds b m = .ok s.cases

/-- A manifest gives one side at most. -/
theorem Reads.unique {b : Builtins} {m : Document} {s t : Side} (hs : Reads b m s) (ht : Reads b m t) : s = t := by
  obtain ⟨h1, h2, h3, h4, h5, h6⟩ := hs
  obtain ⟨k1, k2, k3, k4, k5, k6⟩ := ht
  rw [h1] at k1
  rw [h2] at k2
  rw [h3] at k3
  rw [h4] at k4
  rw [h5] at k5
  rw [h6] at k6
  cases s
  cases t
  simp_all

/-- No intervention that is possible, and no condition of one. -/
def Untouched (interventions : Value) : Prop :=
  (interventions.member "possible").truthy = false ∧ (interventions.member "condition_hash").truthy = false

/-! ### The conditions -/

section Conditions
variable (P : ComparisonPolicy) (base cand : Document) (s t : Side)

structure InterventionsMatch : Prop where
  base : (s.interventions.member "possible").truthy = false
  cand : (t.interventions.member "possible").truthy = false
  hash : (s.interventions.member "condition_hash").equals (t.interventions.member "condition_hash") = true

/-- The frozen conditions. -/
structure InvariantsMatch : Prop where
  interventions : P.allows "intervention" = true ∨ InterventionsMatch s t
  model : P.allows "model" = true ∨ s.model.equals t.model = true
  runtime : Matches (P.allows "runtime") s.runtime t.runtime
  profile : ∀ c ∈ profileInvariants, Matches (P.allows c.1) (invariantValue base c.1 c.2.2) (invariantValue cand c.1 c.2.2)
  agent : Matches (P.allows "agent_id" || P.allows "agent_version") (base.getOrNull "agent") (cand.getOrNull "agent")
  agentConfig : (agentConfigIdentity base).equals (agentConfigIdentity cand) = true
  evaluation : (base.getOrNull "evaluation").isObj = true → (cand.getOrNull "evaluation").isObj = true →
    ∀ field ∈ ["scorer_id", "scorer_version"],
      ((base.getOrNull "evaluation").member field).equals ((cand.getOrNull "evaluation").member field) = true

/-- The allowances beside the dimensions are equal, and so is the dimension that the policy holds fixed. -/
structure DimensionsMatch (d e : BudgetDimensions) (policy : Value) : Prop where
  other : ∀ key, key ∈ d.other.map (·.1) ∨ key ∈ e.other.map (·.1) →
    ((Value.obj d.other).member key).equals ((Value.obj e.other).member key) = true
  fixed : comparableBudget policy = true →
    (d.allowance (fixedDimension policy)).equals (e.allowance (fixedDimension policy)) = true

def BudgetsMatch : Prop :=
  if (budgetPolicy base).equals (budgetPolicy cand) then
    match (budgetSource base).map budgetDimensions, (budgetSource cand).map budgetDimensions with
    | some d, some e => DimensionsMatch d e (budgetPolicy base)
    | none, none => True
    | _, _ => False
  else P.allows "budget_policy" = true

/-- Workflow, skill and budget. -/
structure ArmsMatch : Prop where
  workflow : Matches (P.allows "workflow") s.workflow t.workflow
  fixture : s.workflow ≠ .null → t.workflow ≠ .null →
    P.allows "fixture" = true ∨ (s.workflow.member "fixtures").equals (t.workflow.member "fixtures") = true
  skill : Matches (P.allows "skill") s.skill t.skill
  budget : BudgetsMatch P base cand

/-- The interventions of the first side that records any. -/
def firstInterventions : Value :=
  if (base.getOrNull "interventions").truthy then s.interventions else t.interventions

/-- The difference can be put down to the skill, as the source sees it. -/
structure Attributable : Prop where
  budget : comparableBudget (budgetPolicy base) = true
  untouched : Untouched (firstInterventions base s t)

/-- The two provenances are equal, or the fields that are compared are. -/
structure ProvenancesMatch : Prop where
  present : scoringProvenance base = .null ↔ scoringProvenance cand = .null
  fields : (scoringProvenance base).equals (scoringProvenance cand) = true ∨ ∀ c ∈ provenanceFields,
    (((scoringProvenance base).member c.1).equals ((scoringProvenance cand).member c.1) = true ∨
      P.allows c.2.1 = true) ∧
    (c.1 ≠ "manual_revision" →
      ((scoringProvenance base).member c.1 = .null ↔ (scoringProvenance cand).member c.1 = .null))

/-- The case sets, expectations and contents. -/
structure CasesMatch : Prop where
  same : ∀ c, c ∈ s.cases ↔ c ∈ t.cases
  expectations : ∀ x y, (base.getOrNull "case_expectations").dict = .ok x →
    (cand.getOrNull "case_expectations").dict = .ok y → ∀ c ∈ s.cases, (x.member c).equals (y.member c) = true
  present : base.getOrNull "case_content_hashes" = .null ↔ cand.getOrNull "case_content_hashes" = .null
  contents : (base.getOrNull "case_content_hashes").isObj = true → (cand.getOrNull "case_content_hashes").isObj = true →
    ∀ c ∈ s.cases, ((base.getOrNull "case_content_hashes").member c).equals
      ((cand.getOrNull "case_content_hashes").member c) = true
  fewShot : (base.getOrNull "few_shot_hashes").equals (cand.getOrNull "few_shot_hashes") = true

/-- Every check but the attribution to a skill. -/
structure Shared : Prop where
  invariants : InvariantsMatch P base cand s t
  arms : ArmsMatch P base cand s t
  scenario : ∀ f ∈ scenarioTopLevelFields, Matches (P.allows f.1) (base.getOrNull f.1) (cand.getOrNull f.1)
  provenance : ProvenancesMatch P base cand
  cases : CasesMatch base cand s t

/-- Nothing blocks the comparison. -/
structure Unblocked : Prop where
  shared : Shared P base cand s t
  attribution : s.skill.equals t.skill = false → Attributable base s t

/-- The expectations can be read, if there is a common case. -/
def ExpectationsRead : Prop :=
  (∃ c ∈ s.cases, c ∈ t.cases) → (∃ x, (base.getOrNull "case_expectations").dict = .ok x) ∧
    ∃ y, (cand.getOrNull "case_expectations").dict = .ok y

end Conditions

end Motte.Comparison
