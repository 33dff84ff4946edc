import Motte.Comparison.Identity

/-! The comparison of two runs, condition by condition.

Every check gives the reasons that block the comparison and the differences that the
policy permits. An access to a malformed manifest is raised as the language does. -/
namespace Motte.Comparison
open Foundation Gate

/-! ### Findings -/

structure Findings where
  reasons : List String := []
  allowed : List String := []

namespace Findings

def append (f g : Findings) : Findings := ⟨f.reasons ++ g.reasons, f.allowed ++ g.allowed⟩

instance : Append Findings := ⟨append⟩

def concat (checks : List Findings) : Findings := checks.foldr append {}

def block (reason : String) : Findings := { reasons := [reason] }

def permit (note : String) : Findings := { allowed := [note] }

end Findings

/-- A difference of a factor, permitted if the policy allows the factor. -/
def difference (allowed : Bool) (note reason : String) : Findings :=
  if allowed then .permit note else .block reason

/-- One side has the identity and the other has not. -/
def oneSided (base cand : Value) : Bool := (base = .null) != (cand = .null)

/-- An identity of both sides: missing on one, or different. -/
def identityCheck (base cand : Value) (missing : String) (differs : Findings) : Findings :=
  if oneSided base cand then .block missing
  else if base ≠ .null && !base.equals cand then differs
  else {}

section Checks
variable (b : Builtins) (P : ComparisonPolicy) (base cand : Document)

/-- `base!r sep cand!r` -/
def shown (base cand : Value) (sep : String) : String := b.repr base ++ sep ++ b.repr cand

/-- What is said of an identity that one side lacks. -/
def missing (name : String) (base cand : Value) : String := s!"IDENTITY_MISSING:{name}: " ++ shown b base cand " vs "

/-- What is said of a value that differs. -/
def changed (label : String) (base cand : Value) : String := s!"{label}: " ++ shown b base cand " -> "

/-- A value that differs, with its code or as an allowed factor. -/
def factorDifference (factor code name : String) (base cand : Value) : Findings :=
  difference (P.allows factor) (changed b s!"ALLOWED_FACTOR:{name}" base cand) (changed b s!"{code}:{name}" base cand)

/-! ### Frozen conditions -/

def interventionCheck : Except AccessError Findings := do
  let x ← (base.getOrNull "interventions").dict
  let y ← (cand.getOrNull "interventions").dict
  let unknown := ((x.member "possible").or (y.member "possible")).truthy
  let differs := !(x.member "condition_hash").equals (y.member "condition_hash")
  if unknown || differs then
    return difference (P.allows "intervention")
      "ALLOWED_FACTOR:intervention: human input/decision conditions differ or are unknown"
      (if unknown then "INTERVENTION_UNKNOWN" else "INTERVENTION_CHANGED")
  else return {}

def modelCheck (x y : Value) : Findings :=
  if x.equals y then {} else factorDifference b P "model" "FACTOR_NOT_ALLOWED" "model" x y

def runtimeCheck (x y : Value) : Findings :=
  identityCheck x y (missing b "runtime" x y)
    (difference (P.allows "runtime") (changed b "ALLOWED_FACTOR:runtime" (x.member "runtime") (y.member "runtime"))
      (changed b "RUNTIME_CHANGED:runtime" x y))

def invariantCheck (condition : String × String × List Source) : Findings :=
  let (field, code, sources) := condition
  let x := invariantValue base field sources
  let y := invariantValue cand field sources
  identityCheck x y (missing b field x y) (factorDifference b P field code field x y)

def agentCheck : Findings :=
  let x := base.getOrNull "agent"
  let y := cand.getOrNull "agent"
  identityCheck x y (missing b "agent" x y)
    (difference (P.allows "agent_id" || P.allows "agent_version") (changed b "ALLOWED_FACTOR:agent" x y)
      (changed b "AGENT_CHANGED:agent" x y))

def agentConfigCheck : Findings :=
  let x := agentConfigIdentity base
  let y := agentConfigIdentity cand
  identityCheck x y (missing b "agent_config" x y) (.block (changed b "AGENT_CONFIG_CHANGED:agent_config" x y))

def scorerCheck (x y : Value) (field : String) : Findings :=
  if (x.member field).equals (y.member field) then {}
  else .block (changed b s!"SCORER_CHANGED:{field}" (x.member field) (y.member field))

/-- The scorer of the evaluation, if both sides have one. -/
def evaluationCheck : Findings :=
  let x := base.getOrNull "evaluation"
  let y := cand.getOrNull "evaluation"
  if x.isObj && y.isObj then .concat (["scorer_id", "scorer_version"].map (scorerCheck b x y)) else {}

/-- `_compare_invariants` -/
def compareInvariants : Except AccessError Findings := do
  let interventions ← interventionCheck P base cand
  let baseModel ← modelIdentity b base
  let candModel ← modelIdentity b cand
  let baseRuntime ← runtimeIdentity base
  let candRuntime ← runtimeIdentity cand
  return .concat ([interventions, modelCheck b P baseModel candModel, runtimeCheck b P baseRuntime candRuntime] ++
    profileInvariants.map (invariantCheck b P base cand) ++
    [agentCheck b P base cand, agentConfigCheck b base cand, evaluationCheck b base cand])

/-! ### Budgets -/

/-- A quota beside the dimensions. -/
def allowanceCheck (name : String) (x y : Value) : Findings :=
  if x.equals y then {}
  else if oneSided x y then .block (missing b s!"budget.{name}" x y)
  else .block (changed b s!"BUDGET_ALLOWANCE_CHANGED:budget.{name}" x y)

/-- The dimension that the policy holds fixed. -/
def fixedCheck (policy : String) (dimension : BudgetDimension) (x y : Value) : Findings :=
  if x = .null && y = .null then
    .permit s!"BUDGET_DIMENSION_UNKNOWN:{dimension.name}: neither arm declares it; {policy} is recorded as unknown, never defaulted to equal"
  else if x = .null || y = .null then .block (missing b s!"budget.{dimension.name}" x y)
  else if !x.equals y then .block (changed b s!"BUDGET_ALLOWANCE_CHANGED:budget.{dimension.name}" x y)
  else .permit s!"BUDGET_ALLOWANCE_EQUAL:budget.{dimension.name}: {b.repr x} (held equal by {policy})"

/-- A dimension that the policy lets move. -/
def movableCheck (policy : String) (dimension : BudgetDimension) (x y : Value) : Findings :=
  if x.equals y then {}
  else if oneSided x y then
    .permit (changed b s!"BUDGET_ALLOCATION_UNKNOWN:{dimension.name}" x y ++
      s!" (permitted by {policy}; unknown is never filled with 0)")
  else .permit (changed b s!"BUDGET_ALLOCATION:{dimension.name}" x y ++ s!" (permitted by {policy})")

/-- The dimension that a comparable policy holds fixed. -/
def fixedDimension (policy : Value) : BudgetDimension :=
  if policy.equals (.str "same-total-budget") then .total else .execution

/-- Those that it lets move. -/
def movableDimensions (policy : Value) : List BudgetDimension :=
  if policy.equals (.str "same-total-budget") then [.execution, .overhead] else [.total, .overhead]

/-- `_compare_budget_dimensions` -/
def compareBudgetDimensions (x y : BudgetDimensions) (policy : Value) : Findings :=
  let keys := sortedTexts (x.other.map (·.1) ++ y.other.map (·.1)).dedup
  let quotas : Findings := .concat (keys.map (fun key =>
    allowanceCheck b key ((Value.obj x.other).member key) ((Value.obj y.other).member key)))
  if !comparableBudget policy then quotas
  else
    let fixed := fixedDimension policy
    let name := b.str policy
    quotas ++ fixedCheck b name fixed (x.allowance fixed) (y.allowance fixed) ++
      .concat ((movableDimensions policy).map (fun d => movableCheck b name d (x.allowance d) (y.allowance d)))

def budgetCheck : Findings :=
  let x := budgetPolicy base
  let y := budgetPolicy cand
  if !x.equals y then
    factorDifference b P "budget_policy" "BUDGET_POLICY_CHANGED" "budget_policy" x y
  else
    match (budgetSource base).map budgetDimensions, (budgetSource cand).map budgetDimensions with
    | some d, some e => compareBudgetDimensions b d e x
    | some d, none => .block (missing b "budget" d.value .null)
    | none, some e => .block (missing b "budget" .null e.value)
    | none, none => {}

/-! ### Workflow, skill and scoring -/

def workflowCheck (x y : Value) : Findings :=
  identityCheck x y (missing b "workflow" x y)
    (difference (P.allows "workflow") (changed b "ALLOWED_FACTOR:workflow" (x.member "ref") (y.member "ref"))
      (changed b "WORKFLOW_CHANGED:workflow" x y))

def fixtureCheck (x y : Value) : Findings :=
  if x = .null || y = .null || (x.member "fixtures").equals (y.member "fixtures") then {}
  else
    difference (P.allows "fixture") "ALLOWED_FACTOR:fixture: fixture content hashes differ"
      (changed b "FIXTURE_CHANGED:fixture" (x.member "fixtures") (y.member "fixtures"))

def skillCheck (x y : Value) : Findings :=
  if x.equals y then {}
  else if x = .null || y = .null then .block (missing b "skill" x y)
  else
    difference (P.allows "skill") (changed b "ALLOWED_FACTOR:skill" (x.member "arm") (y.member "arm"))
      (changed b "SKILL_CHANGED:skill" (x.member "arm") (y.member "arm"))

/-- Whether the difference can be put down to the skill: the interventions are those of the first side that has any,
the policy that of the first side. -/
def attributionCheck : Except AccessError Findings := do
  let unsafeBudget : Findings :=
    if comparableBudget (budgetPolicy base) then {}
    else .block ("SKILL_ATTRIBUTION_UNSAFE:budget_policy: skill arms must declare one of " ++
      ", ".intercalate comparableBudgetPolicies)
  let interventions ← ((base.getOrNull "interventions").or (cand.getOrNull "interventions")).dict
  if (interventions.member "possible").truthy || (interventions.member "condition_hash").truthy then
    return unsafeBudget ++
      .block "SKILL_ATTRIBUTION_UNSAFE:intervention: manual intervention makes a pure skill attribution invalid"
  else return unsafeBudget

def scenarioCheck (condition : String × String) : Findings :=
  let (field, code) := condition
  let x := base.getOrNull field
  let y := cand.getOrNull field
  if x.equals y then {}
  else if oneSided x y then .block (missing b field x y)
  else
    difference (P.allows field) ("ALLOWED_FACTOR:" ++ changed b s!"{code}:{field}" x y)
      (changed b s!"{code}:{field}" x y)

/-- The fields at the top level, if there is a workflow or one of them is declared. -/
def scenarioChecks (x y : Value) : Findings :=
  if x ≠ .null || y ≠ .null ||
      scenarioTopLevelFields.any (fun f => base.getOrNull f.1 ≠ .null || cand.getOrNull f.1 ≠ .null) then
    .concat (scenarioTopLevelFields.map (scenarioCheck b P base cand))
  else {}

/-- The fields of a scoring provenance: field, factor and code. -/
def provenanceFields : List (String × String × String) := [
  ("scorer_id", "judge", "SCORER_CHANGED"), ("scorer_version", "judge", "SCORER_CHANGED"),
  ("judge_profile_id", "judge", "JUDGE_CHANGED"), ("mode", "judge", "JUDGE_MODE_CHANGED"),
  ("profile_sha256", "judge", "JUDGE_PROFILE_CHANGED"), ("spec_sha256", "judge", "JUDGE_SPEC_CHANGED"),
  ("model", "judge", "JUDGE_MODEL_CHANGED"), ("prompt", "judge", "JUDGE_PROMPT_CHANGED"),
  ("prompt_sha256", "judge", "JUDGE_PROMPT_CHANGED"), ("rubric_id", "rubric", "RUBRIC_CHANGED"),
  ("rubric_version", "rubric", "RUBRIC_CHANGED"), ("rubric_sha256", "rubric", "RUBRIC_CONTENT_CHANGED"),
  ("calibration_version", "calibration", "CALIBRATION_CHANGED"), ("input_selector", "judge", "JUDGE_INPUT_CHANGED"),
  ("missing_evidence_policy", "judge", "JUDGE_POLICY_CHANGED"),
  ("manual_revision", "intervention", "MANUAL_REVISION_CHANGED")]

def provenanceFieldCheck (x y : Value) (condition : String × String × String) : Findings :=
  let (field, factor, code) := condition
  let v := x.member field
  let w := y.member field
  if v.equals w then {}
  else if field ≠ "manual_revision" && oneSided v w then .block (missing b s!"scoring_provenance.{field}" v w)
  else
    difference (P.allows factor) ("ALLOWED_FACTOR:" ++ changed b s!"{code}:{field}" v w)
      (changed b s!"{code}:{field}" v w)

def provenanceCheck : Findings :=
  let x := scoringProvenance base
  let y := scoringProvenance cand
  identityCheck x y (missing b "scoring_provenance" x y)
    (.concat (provenanceFields.map (provenanceFieldCheck b P x y)))

/-- `_compare_m5_invariants` -/
def compareM5Invariants : Except AccessError Findings := do
  let baseWorkflow ← workflowIdentity b base
  let candWorkflow ← workflowIdentity b cand
  let baseSkill ← skillIdentity base
  let candSkill ← skillIdentity cand
  let early : Findings := .concat [workflowCheck b P baseWorkflow candWorkflow, fixtureCheck b P baseWorkflow candWorkflow,
    skillCheck b P baseSkill candSkill, budgetCheck b P base cand]
  let attribution ←
    if !baseSkill.equals candSkill && early.reasons = [] then attributionCheck base cand else .ok {}
  return .concat [early, attribution, scenarioChecks b P base cand baseWorkflow candWorkflow,
    provenanceCheck b P base cand]

/-! ### Cases -/

/-- The cases of both sides. -/
def commonCases (x y : List String) : List String := sortedTexts (x.dedup.filter (· ∈ y))

/-- The cases of the first side that the other has not. -/
def casesBeside (x y : List String) : List String := sortedTexts (x.dedup.filter (· ∉ y))

/-- The common cases that expect something else; without a common case the expectations are not read. -/
def changedExpectations (common : List String) : Except AccessError (List String) :=
  if common = [] then .ok []
  else do
    let x ← (base.getOrNull "case_expectations").dict
    let y ← (cand.getOrNull "case_expectations").dict
    return common.filter (fun c => !(x.member c).equals (y.member c))

/-- A list of texts as it is shown. -/
def shownTexts (texts : List String) : String := b.str (.arr (texts.map .str))

def caseSetCheck (added removed changed : List String) : Findings :=
  if added = [] && removed = [] && changed = [] then {}
  else .block s!"CASE_SET_CHANGED: added={shownTexts b added} removed={shownTexts b removed} changed={shownTexts b changed}"

/-- The common cases whose content differs, if both sides have hashes. -/
def changedContents (common : List String) : List String :=
  let x := base.getOrNull "case_content_hashes"
  let y := cand.getOrNull "case_content_hashes"
  if x.isObj && y.isObj then common.filter (fun c => !(x.member c).equals (y.member c)) else []

def contentCheck (common : List String) : Findings :=
  let x := base.getOrNull "case_content_hashes"
  let y := cand.getOrNull "case_content_hashes"
  if oneSided x y then .block s!"IDENTITY_MISSING:case_content_hashes: {x.typeName} vs {y.typeName}"
  else if changedContents base cand common = [] then {}
  else .block s!"CASE_CONTENT_CHANGED: {shownTexts b (changedContents base cand common)}"

def fewShotCheck : Findings :=
  let x := base.getOrNull "few_shot_hashes"
  let y := cand.getOrNull "few_shot_hashes"
  identityCheck x y "IDENTITY_MISSING:few_shot_hashes"
    (.block "FEWSHOT_CONTENT_CHANGED: few-shot example content differs")

/-! ### The comparison -/

structure RunComparison where
  baselineRef : RunReportRef
  candidateRef : RunReportRef
  result : ComparisonResult
  added : List String
  removed : List String
  changed : List String
  allowedDifferences : List String

/-- One side of a comparison. -/
structure RunReport where
  ref : RunReportRef
  manifest : Document
  cost : CostView := { known := false }
  /-- Pairwise evidence is given. -/
  pairwise : Bool := false

/-- Either side carries pairwise evidence. -/
def pairwiseReport (x y : RunReport) : Bool :=
  x.pairwise || y.pairwise || x.ref.reportSchema = "report-pairwise-v1" || y.ref.reportSchema = "report-pairwise-v1"

end Checks

/-- `compare_run_reports` -/
def compareRunReports (b : Builtins) (P : ComparisonPolicy) (x y : RunReport) : Except AccessError RunComparison := do
  let base := x.manifest
  let cand := y.manifest
  let invariants ← compareInvariants b P base cand
  let m5 ← compareM5Invariants b P base cand
  let baseCases ← caseIds b base
  let candCases ← caseIds b cand
  let added := casesBeside candCases baseCases
  let removed := casesBeside baseCases candCases
  let common := commonCases baseCases candCases
  let changed ← changedExpectations base cand common
  let findings : Findings := .concat [invariants, m5, caseSetCheck b added removed changed, contentCheck b base cand common,
    fewShotCheck base cand]
  return {
    baselineRef := x.ref
    candidateRef := y.ref
    result := Gate.compareRunReports findings.reasons x.cost y.cost (pairwiseReport x y)
    added := added
    removed := removed
    changed := sortedTexts (changed ++ changedContents base cand common).dedup
    allowedDifferences := findings.allowed }

end Motte.Comparison
