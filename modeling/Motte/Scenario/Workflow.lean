import Mathlib.Data.Rat.Defs
import Motte.Scenario.Condition

/-! Workflows.

A workflow is a sequence of steps; branches and loops hold further sequences. Every
version that is stored has been checked: ids are told apart, nesting and size are
bounded, and a step that takes the output of another comes after it. Compiling a
version checks that it is published and unchanged, and compiles every condition. -/
namespace Motte.Scenario
open Foundation

inductive FailurePolicy where
  | stopCase
  | continueForEvidence
deriving DecidableEq

inductive ToolMode where
  | real
  | mock
  | replay
  | deny
deriving DecidableEq

inductive StepKind where
  | sendMessage
  | invokeFixtureTool
  | assert
  | checkpoint
  | branch
  | loop
  | triggerFixtureEvent
deriving DecidableEq

def StepKind.text : StepKind → String
  | .sendMessage => "send_message"
  | .invokeFixtureTool => "invoke_fixture_tool"
  | .assert => "assert"
  | .checkpoint => "checkpoint"
  | .branch => "branch"
  | .loop => "loop"
  | .triggerFixtureEvent => "trigger_fixture_event"

/-- `_StepBase` -/
structure StepBase where
  stepId : String
  timeoutSec : Option ℚ := none
  assertions : List Condition := []
  failurePolicy : FailurePolicy := .stopCase

/-- `StepSpec` -/
inductive Step where
  | sendMessage (base : StepBase) (message : String) (inputRef : Option String)
  | invokeFixtureTool (base : StepBase) (tool : String) (arguments : Value) (toolMode : ToolMode)
  | assert (base : StepBase)
  | checkpoint (base : StepBase) (label : Option String)
  | branch (base : StepBase) (when_ : Condition) (thenSteps elseSteps : List Step)
  | loop (base : StepBase) (maxIterations : Nat) (body : List Step) (until_ : Option Condition)
  | triggerFixtureEvent (base : StepBase) (event : String) (payload : Value)

namespace Step

def base : Step → StepBase
  | .sendMessage base _ _ => base
  | .invokeFixtureTool base _ _ _ => base
  | .assert base => base
  | .checkpoint base _ => base
  | .branch base _ _ _ => base
  | .loop base _ _ _ => base
  | .triggerFixtureEvent base _ _ => base

def stepId (step : Step) : String := step.base.stepId

def kind : Step → StepKind
  | .sendMessage .. => .sendMessage
  | .invokeFixtureTool .. => .invokeFixtureTool
  | .assert _ => .assert
  | .checkpoint .. => .checkpoint
  | .branch .. => .branch
  | .loop .. => .loop
  | .triggerFixtureEvent .. => .triggerFixtureEvent

def inputRef : Step → Option String
  | .sendMessage _ _ inputRef => inputRef
  | _ => none

/-- `_child_steps` -/
def children : Step → List Step
  | .branch _ _ thenSteps elseSteps => thenSteps ++ elseSteps
  | .loop _ _ body _ => body
  | _ => []

/-- The conditions of one step, with what they are for. -/
def conditions (step : Step) : List (String × Condition) :=
  step.base.assertions.zipIdx.map (fun c => ("assertions[" ++ toString c.2 ++ "]", c.1)) ++
    match step with
    | .branch _ when_ _ _ => [("when", when_)]
    | .loop _ _ _ (some until_) => [("until", until_)]
    | _ => []

end Step

/-! ### Every step -/

mutual
/-- A step and everything below it, in the order of declaration. -/
def Step.preorder : Step → List Step
  | .branch base when_ thenSteps elseSteps =>
    .branch base when_ thenSteps elseSteps :: (preorder thenSteps ++ preorder elseSteps)
  | .loop base maxIterations body until_ => .loop base maxIterations body until_ :: preorder body
  | step => [step]

def preorder : List Step → List Step
  | [] => []
  | step :: rest => step.preorder ++ preorder rest
end

theorem preorder_append (steps rest : List Step) : preorder (steps ++ rest) = preorder steps ++ preorder rest := by
  induction steps with
  | nil => rfl
  | cons step steps ih => rw [List.cons_append, preorder, ih, preorder, List.append_assoc]

theorem Step.preorder_eq (step : Step) : step.preorder = step :: Scenario.preorder step.children := by
  cases step with
  | branch base when_ thenSteps elseSteps => rw [Step.preorder, Step.children, preorder_append]
  | loop base maxIterations body until_ => rfl
  | _ => rfl

/-- `iter_steps`; the stack has its top in front. -/
def iterSteps (stack : List Step) : List Step :=
  match stack with
  | [] => []
  | step :: rest => step :: iterSteps (step.children ++ rest)
termination_by (preorder stack).length
decreasing_by
  rw [preorder_append, preorder, Step.preorder_eq]
  simp

/-- The stack visits each step once, in the order of declaration. -/
theorem iterSteps_eq (stack : List Step) : iterSteps stack = preorder stack := by
  induction stack using iterSteps.induct with
  | case1 => rw [iterSteps, preorder]
  | case2 step rest ih => rw [iterSteps, ih, preorder_append, preorder, Step.preorder_eq, List.cons_append]

mutual
/-- `step_nesting_depth` -/
def stepNestingDepth : List Step → Nat → Nat
  | [], depth => depth
  | step :: rest, depth => max (step.nestingDepth depth) (stepNestingDepth rest depth)

def Step.nestingDepth : Step → Nat → Nat
  | .branch _ _ thenSteps elseSteps, depth =>
    if thenSteps.isEmpty && elseSteps.isEmpty then depth
    else max (stepNestingDepth thenSteps (depth + 1)) (stepNestingDepth elseSteps (depth + 1))
  | .loop _ _ body _, depth => if body.isEmpty then depth else stepNestingDepth body (depth + 1)
  | _, depth => depth
end

/-! ### Versions -/

/-- `WorkflowLimits` -/
structure WorkflowLimits where
  maxTotalSteps : Nat
  maxTurns : Nat
  wallTimeSec : ℚ

structure FixtureRef where
  fixtureId : String
  version : Nat := 1
  kind : String
  contentHash : Option String := none

/-- The checks of `_structure` on the steps. -/
structure WellStructured (steps : List Step) : Prop where
  nonempty : steps ≠ []
  size : (iterSteps steps).length ≤ 256
  distinct : ((iterSteps steps).map Step.stepId).Nodup
  depth : stepNestingDepth steps 1 ≤ 4
  /-- a step that is referred to comes first -/
  references : ∀ before step after, iterSteps steps = before ++ step :: after →
    ∀ reference ∈ step.inputRef, reference ∈ before.map Step.stepId

/-- One step with nothing below it. -/
theorem wellStructured_single {step : Step} (below : step.children = []) (reference : step.inputRef = none) :
    WellStructured [step] := by
  have only : iterSteps [step] = [step] := by
    rw [iterSteps_eq, preorder, Step.preorder_eq, below]
    rfl
  refine ⟨List.cons_ne_nil _ _, ?_, ?_, ?_, fun before s after hsplit r hr => ?_⟩
  · rw [only, List.length_singleton]
    decide
  · rw [only]
    exact List.nodup_singleton _
  · cases step with
    | branch base when_ thenSteps elseSteps =>
      obtain ⟨rfl, rfl⟩ := List.append_eq_nil_iff.1 below
      simp [stepNestingDepth, Step.nestingDepth]
    | loop base maxIterations body until_ =>
      cases (show body = [] from below)
      simp [stepNestingDepth, Step.nestingDepth]
    | _ => simp [stepNestingDepth, Step.nestingDepth]
  · rw [only] at hsplit
    have hs : s ∈ [step] := hsplit ▸ List.mem_append_right before (List.mem_cons_self ..)
    rw [List.mem_singleton.1 hs, reference] at hr
    cases hr

/-- `WorkflowVersion` -/
structure WorkflowVersion where
  workflowId : String
  version : String
  fixtureRefs : List FixtureRef := []
  steps : List Step
  completionAssertions : List Condition := []
  limits : WorkflowLimits
  failurePolicy : FailurePolicy := .stopCase
  lifecycle : String := "published"
  contentHash : Option String := none
  wellStructured : WellStructured steps

/-- `iter_conditions` -/
def iterConditions (workflow : WorkflowVersion) : List (String × String × Condition) :=
  workflow.completionAssertions.zipIdx.map
      (fun c => ("__completion__", "completion[" ++ toString c.2 ++ "]", c.1)) ++
    (iterSteps workflow.steps).flatMap (fun step => step.conditions.map (fun c => (step.stepId, c)))

/-- `CompiledWorkflow` -/
structure CompiledWorkflow where
  workflow : WorkflowVersion
  contentHash : String
  topLevelSteps : List Step
  steps : List Step
  conditions : List CompiledCondition
  completionAssertions : List Condition

/-- What a store holds of a fixture. -/
structure FixtureRecord where
  contentHash : Option String
  kind : Option String

/-- `WorkflowResolutionError` -/
inductive WorkflowResolutionError where
  | notPublished (lifecycle : String)
  | contentHashMismatch
  | condition (e : ConditionError)
  | fixtureMissing (fixtureId : String)
  | fixtureHashMismatch (fixtureId : String)
  | fixtureKindMismatch (fixtureId : String)

/-- `_verify_fixture_refs` for one reference -/
def verifyFixtureRef (fixtures : String → Nat → Option FixtureRecord) (ref : FixtureRef) :
    Except WorkflowResolutionError Unit :=
  match fixtures ref.fixtureId ref.version with
  | none => .error (.fixtureMissing ref.fixtureId)
  | some spec => do
    ensure (∀ pinned ∈ ref.contentHash, ∀ recorded ∈ spec.contentHash, pinned = recorded)
      (.fixtureHashMismatch ref.fixtureId)
    ensure (∀ kind ∈ spec.kind, kind = ref.kind) (.fixtureKindMismatch ref.fixtureId)

/-- What a condition of a workflow raises is raised as an error of the workflow. -/
def compileForWorkflow (condition : Condition) : Except WorkflowResolutionError CompiledCondition :=
  match compileCondition condition with
  | .error e => .error (.condition e)
  | .ok compiled => .ok compiled

/-- `compile_workflow` of a version; `contentHash` is `workflow_content_hash`. -/
def compileWorkflow (contentHash : WorkflowVersion → String)
    (fixtures : Option (String → Nat → Option FixtureRecord)) (allowDraft : Bool) (workflow : WorkflowVersion) :
    Except WorkflowResolutionError CompiledWorkflow := do
  ensure (workflow.lifecycle = "published" ∨ allowDraft = true) (.notPublished workflow.lifecycle)
  ensure (∀ recorded ∈ workflow.contentHash, recorded = contentHash workflow) .contentHashMismatch
  let compiledConditions ← (iterConditions workflow).mapM (fun c => compileForWorkflow c.2.2)
  let compiled : CompiledWorkflow := {
    workflow := workflow
    contentHash := contentHash workflow
    topLevelSteps := workflow.steps
    steps := iterSteps workflow.steps
    conditions := compiledConditions
    completionAssertions := workflow.completionAssertions }
  match fixtures with
  | none => return compiled
  | some fixtures => do
    workflow.fixtureRefs.forM (verifyFixtureRef fixtures)
    return compiled

end Motte.Scenario
