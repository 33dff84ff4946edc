import Motte.Foundation.Access
import Motte.Gate.Lite

/-! The identities that a comparison reads from a manifest.

A manifest is the frozen view of one run. An identity that is not there is null. -/
namespace Motte.Comparison
open Foundation Gate

/-! ### The policy -/

/-- `ALLOWED_COMPARISON_FACTORS` -/
def allowedComparisonFactors : List String := [
  "model", "agent_id", "agent_version", "n_trials", "timeouts", "resources", "tools", "retries", "environment",
  "credentials", "runtime", "intervention", "workflow", "fixture", "skill", "judge", "rubric", "calibration",
  "budget_policy"]

/-- What a comparison reads of its policy. -/
structure ComparisonPolicy where
  allowedFactors : List String := []
  factors_known : ∀ factor ∈ allowedFactors, factor ∈ allowedComparisonFactors := by decide

/-- The factor may differ. -/
def ComparisonPolicy.allows (P : ComparisonPolicy) (factor : String) : Bool := P.allowedFactors.contains factor

section Identities
variable (b : Builtins) (m : Document)

/-! ### Benchmark runs -/

/-- `_external` -/
def external : Value := (m.getOrNull "external_benchmark").objOrEmpty

/-- `_profile` -/
def profile : Value := ((external m).member "profile").objOrEmpty

/-- Where the value of a frozen condition stands. -/
inductive Source where
  | profile
  | external

/-- `_PROFILE_INVARIANTS`: field, code and where its value stands, in this order. -/
def profileInvariants : List (String × String × List Source) := [
  ("benchmark_id", "BENCHMARK_IDENTITY_CHANGED", [.profile]),
  ("benchmark_version", "BENCHMARK_IDENTITY_CHANGED", [.profile]),
  ("dataset_revision", "DATASET_REVISION_CHANGED", [.profile, .external]),
  ("split", "SPLIT_CHANGED", [.profile]),
  ("few_shot", "FEWSHOT_CHANGED", [.profile]),
  ("prompt_template_version", "EXTRACTOR_OR_PROMPT_CHANGED", [.profile]),
  ("answer_extractor", "EXTRACTOR_OR_PROMPT_CHANGED", [.profile]),
  ("extractor_version", "EXTRACTOR_OR_PROMPT_CHANGED", [.profile]),
  ("aggregation", "AGGREGATION_CHANGED", [.profile]),
  ("aggregation_version", "AGGREGATION_CHANGED", [.profile]),
  ("seed", "SEED_CHANGED", [.profile]),
  ("runner_version", "RUNNER_CHANGED", [.profile, .external]),
  ("environment_digest", "ENVIRONMENT_CHANGED", [.profile, .external]),
  ("agent_id", "AGENT_CHANGED", [.profile]),
  ("agent_version", "AGENT_CHANGED", [.profile]),
  ("n_trials", "REPEATS_CHANGED", [.profile]),
  ("timeouts", "TIMEOUTS_CHANGED", [.profile]),
  ("resources", "RESOURCES_CHANGED", [.profile]),
  ("tools", "TOOLS_CHANGED", [.profile]),
  ("retries", "RETRIES_CHANGED", [.profile]),
  ("limits", "LIMITS_CHANGED", [.profile]),
  ("environment", "ENVIRONMENT_CHANGED", [.profile]),
  ("credentials", "CREDENTIALS_CHANGED", [.profile])]

/-- `_invariant_value`: the first source that has a value. -/
def invariantValue (field : String) : List Source → Value
  | [] => .null
  | source :: rest =>
    let container := match source with
      | .profile => profile m
      | .external => external m
    if container.member field = .null then invariantValue field rest else container.member field

/-! ### Model, runtime and agent -/

/-- `_model_identity` -/
def modelIdentity : Except AccessError Value := do
  let profileModel := (profile m).member "model"
  if profileModel.isObj && (profileModel.member "model").truthy then
    return .obj [("provider", profileModel.member "provider"), ("model", profileModel.member "model")]
  let runtimeProfile := m.getOrNull "runtime_profile"
  if runtimeProfile.isObj then
    let native ← (runtimeProfile.member "native_settings").dict
    if (native.member "model").truthy then return .str (b.str (native.member "model"))
  return m.getOrNull "model"

/-- The native settings without the model; only an object is read as one. -/
def nativeSettings (runtimeProfile : Value) : Except AccessError (List (String × Value)) :=
  match runtimeProfile.member "native_settings" with
  | .obj members => .ok (members.filter (·.1 ≠ "model"))
  | v => if v.truthy then .error .type else .ok []

/-- `_runtime_identity` -/
def runtimeIdentity : Except AccessError Value := do
  let runtime := m.getOrNull "runtime"
  let runtimeProfile := m.getOrNull "runtime_profile"
  if !runtime.isStr && !runtimeProfile.isObj then return .null
  let native ← nativeSettings runtimeProfile
  return .obj [("runtime", if runtime.isStr then runtime else .null), ("native_settings", .obj native),
    ("budgets", runtimeProfile.member "budgets"), ("workspace", runtimeProfile.member "workspace"),
    ("credential_refs", runtimeProfile.member "credential_refs")]

/-- `_agent_config_identity` -/
def agentConfigIdentity : Value :=
  match m.getOrNull "agent_config" with
  | .obj members =>
    let stripped := members.filter (·.1 ≠ "budget")
    if stripped = [] then .null else .obj stripped
  | config => config

/-! ### Workflow, skill and scoring -/

/-- `_SCENARIO_TOP_LEVEL_FIELDS` -/
def scenarioTopLevelFields : List (String × String) := [
  ("tools", "TOOLS_CHANGED"), ("tool_policy", "TOOLS_CHANGED"), ("timeouts", "TIMEOUTS_CHANGED"),
  ("limits", "LIMITS_CHANGED"), ("retries", "RETRIES_CHANGED"), ("environment", "ENVIRONMENT_CHANGED"),
  ("credentials", "CREDENTIALS_CHANGED"), ("provider", "PROVIDER_CHANGED"), ("target_snapshot", "TARGET_CHANGED")]

/-- A fixture with the hash of its content. -/
def fixtureText (fixture : String × Value) : Except AccessError String := do
  let record ← fixture.2.dict
  return fixture.1 ++ ":" ++ b.str (record.member "content_hash")

/-- The fixtures of a workflow, null when there are none. -/
def fixtureIdentity : Except AccessError Value :=
  match m.getOrNull "fixture_snapshot" with
  | .obj fixtures => do
    let texts ← fixtures.mapM (fixtureText b)
    return .arr ((sortedTexts texts).map .str)
  | _ => .ok .null

/-- `_workflow_identity` -/
def workflowIdentity : Except AccessError Value := do
  let snapshot := m.getOrNull "workflow_snapshot"
  let reference := m.getOrNull "workflow"
  if snapshot.isObj && snapshot.truthy then
    let stepIds ← (snapshot.member "step_ids").list
    let fixtures ← fixtureIdentity b m
    return .obj [("ref", (snapshot.member "ref").or reference), ("content_hash", snapshot.member "content_hash"),
      ("schema_version", snapshot.member "schema_version"), ("step_ids", .arr stepIds),
      ("limits", snapshot.member "limits"), ("failure_policy", snapshot.member "failure_policy"), ("fixtures", fixtures)]
  else if reference.isStr then
    let fixtures ← fixtureIdentity b m
    return .obj [("ref", reference), ("content_hash", .null), ("schema_version", .null), ("step_ids", .arr []),
      ("limits", .null), ("failure_policy", .null), ("fixtures", fixtures)]
  else return .null

/-- `_skill_identity` -/
def skillIdentity : Except AccessError Value := do
  let skills := m.getOrNull "skills"
  let snapshot := m.getOrNull "skill_snapshot"
  let arm := m.getOrNull "skill_arm"
  if !skills.truthy && !snapshot.truthy && !arm.truthy then return .null
  let refs ← skills.list
  return .obj [("arm", arm), ("refs", .arr refs), ("snapshot", if snapshot.isObj then snapshot else .null)]

/-- `_scoring_provenance` -/
def scoringProvenance : Value :=
  let provenance := m.getOrNull "scoring_provenance"
  if provenance.isObj then provenance else .null

/-- `evaluation` of the manifest, null when it is not an object. -/
def evaluationIdentity : Value :=
  let evaluation := m.getOrNull "evaluation"
  if evaluation.isObj then evaluation else .null

/-! ### Budgets -/

/-- `COMPARABLE_BUDGET_POLICIES` -/
def comparableBudgetPolicies : List String := ["same-total-budget", "same-execution-budget"]

def totalAllowanceKeys : List String := ["total_allowance", "max_total_tokens", "total_tokens"]

def executionAllowanceKeys : List String := ["execution_allowance", "max_execution_tokens", "execution_tokens"]

def instructionOverheadKeys : List String :=
  ["instruction_overhead", "instruction_overhead_tokens", "skill_instruction_tokens"]

/-- `_BUDGET_ALIAS_KEYS` -/
def budgetAliasKeys : List String :=
  ["policy", "comparison_policy"] ++ totalAllowanceKeys ++ executionAllowanceKeys ++ instructionOverheadKeys

/-- `budget_source`: the budget of the manifest over that of the agent, if there is one. -/
def budgetSource : Option (List (String × Value)) :=
  match (m.getOrNull "agent_config").member "budget", m.getOrNull "budget" with
  | .obj nested, .obj budget => some (Value.update (Value.update [] nested) budget)
  | .obj nested, _ => some (Value.update [] nested)
  | _, .obj budget => some (Value.update [] budget)
  | _, _ => none

/-- `_pick_allowance` -/
def pickAllowance (budget : List (String × Value)) : List String → Value
  | [] => .null
  | key :: rest =>
    let value := (Value.obj budget).member key
    if value = .null then pickAllowance budget rest else value

/-- `BUDGET_DIMENSIONS` -/
inductive BudgetDimension where
  | total
  | overhead
  | execution
deriving DecidableEq

def BudgetDimension.name : BudgetDimension → String
  | .total => "total_allowance"
  | .overhead => "instruction_overhead"
  | .execution => "execution_allowance"

def BudgetDimension.keys : BudgetDimension → List String
  | .total => totalAllowanceKeys
  | .overhead => instructionOverheadKeys
  | .execution => executionAllowanceKeys

/-- A budget along its dimensions. -/
structure BudgetDimensions where
  policy : Value
  allowance : BudgetDimension → Value
  /-- `other_allowances` -/
  other : List (String × Value)

/-- The policy that a budget names. -/
def policyOf (budget : List (String × Value)) : Value :=
  let policy := (Value.obj budget).member "policy"
  if policy = .null then (Value.obj budget).member "comparison_policy" else policy

/-- `budget_dimensions` -/
def budgetDimensions (budget : List (String × Value)) : BudgetDimensions where
  policy := policyOf budget
  allowance dimension := pickAllowance budget dimension.keys
  other := budget.filter (fun member => !budgetAliasKeys.contains member.1)

/-- The dimensions as they are written. -/
def BudgetDimensions.value (d : BudgetDimensions) : Value :=
  .obj [("policy", d.policy), ("total_allowance", d.allowance .total), ("execution_allowance", d.allowance .execution),
    ("instruction_overhead", d.allowance .overhead), ("other_allowances", .obj d.other)]

/-- `_budget_policy` -/
def budgetPolicy : Value :=
  match budgetSource m with
  | none => .null
  | some budget => policyOf budget

/-- The policy holds one dimension fixed. -/
def comparableBudget (policy : Value) : Bool := comparableBudgetPolicies.any (fun name => policy.equals (.str name))

/-! ### Cases -/

/-- Items as texts. -/
def texts (v : Value) : Except AccessError (List String) := do
  let items ← v.list
  return items.map b.str

/-- `_case_ids` -/
def caseIds : Except AccessError (List String) := do
  let ids ← texts b (m.getOrNull "case_ids")
  if ids ≠ [] then return ids
  let taskManifest := m.getOrNull "task_manifest"
  if taskManifest.isObj then
    let keys ← texts b (taskManifest.member "task_keys")
    if keys ≠ [] then return keys
  texts b (m.getOrNull "selected_tasks")

end Identities

end Motte.Comparison
