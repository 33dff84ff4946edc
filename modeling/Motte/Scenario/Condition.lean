import Motte.Foundation.Document
import Motte.Foundation.Op

/-! Conditions on the data of a run.

A condition is a tree of comparisons over paths into the state of the fixture and the
results of tools and steps. Compiling one checks its depth, its number of nodes and
where its paths begin; evaluating a compiled one can still meet a path that is not
there, which is an error and not a no. -/
namespace Motte.Scenario
open Foundation

inductive ConditionOp where
  | eq
  | ne
  | in_
  | exists_
  | and_
  | or_
  | not_
deriving DecidableEq

def ConditionOp.text : ConditionOp → String
  | .eq => "eq"
  | .ne => "ne"
  | .in_ => "in"
  | .exists_ => "exists"
  | .and_ => "and"
  | .or_ => "or"
  | .not_ => "not"

/-- `Condition` -/
inductive Condition where
  | node (op : ConditionOp) (path : Option String) (value : Value) (conditions : List Condition)

/-- `CompiledCondition`: the path is cut into its segments. -/
inductive CompiledCondition where
  | node (op : ConditionOp) (path : Option (List String)) (value : Value) (children : List CompiledCondition)

/-- `CONDITION_ROOTS` -/
def conditionRoots : List String := ["state", "tool_results", "step_results"]

/-- `MAX_CONDITION_DEPTH` -/
def maxConditionDepth : Nat := 8

/-- `MAX_CONDITION_NODES` -/
def maxConditionNodes : Nat := 64

/-- `ConditionError` -/
inductive ConditionError where
  | depthExceeded (depth : Nat)
  | nodesExceeded
  | pathForbidden (root : String)
  | pathDepthExceeded (length : Nat)
  | pathMissing (dotted : String)
deriving DecidableEq

def ConditionError.code : ConditionError → String
  | .depthExceeded _ => "CONDITION_DEPTH_EXCEEDED"
  | .nodesExceeded => "CONDITION_NODES_EXCEEDED"
  | .pathForbidden _ => "CONDITION_PATH_FORBIDDEN"
  | .pathDepthExceeded _ => "CONDITION_DEPTH_EXCEEDED"
  | .pathMissing _ => "CONDITION_PATH_MISSING"

/-- An exception that a run of a workflow meets. -/
inductive Exn where
  /-- `EvidenceBoundaryError` -/
  | evidenceBoundary (code message : String)
  /-- `EngineError` -/
  | engine (code message : String)
  | condition (e : ConditionError)
  /-- any other; with what it carries as `code` -/
  | other (typeName message : String) (code : Option String)

section
variable (repr : Value → String)

def ConditionError.message : ConditionError → String
  | .depthExceeded depth => "condition nesting depth " ++ toString depth ++ " exceeds the limit " ++ toString maxConditionDepth
  | .nodesExceeded => "condition node count exceeds the limit " ++ toString maxConditionNodes
  | .pathForbidden root =>
    "condition path root must be one of " ++ ", ".intercalate conditionRoots ++ "; got " ++ repr (.str root)
  | .pathDepthExceeded length =>
    "condition path depth " ++ toString length ++ " exceeds the limit " ++ toString maxConditionDepth
  | .pathMissing dotted => "condition path " ++ repr (.str dotted) ++ " is absent from the evaluation context"

/-! ### Compiling -/

/-- The segments of a path, whose first has to be a root. -/
def compilePath : Option String → Except ConditionError (Option (List String))
  | none => return none
  | some path => do
    let segments := (path.toList.splitOn '.').map String.ofList
    ensure (segments.headD "" ∈ conditionRoots) (.pathForbidden (segments.headD ""))
    ensure (segments.length ≤ maxConditionDepth) (.pathDepthExceeded segments.length)
    return some segments

mutual
/-- `build`; the number of nodes so far goes in and out. -/
def build : Condition → Nat → Nat → Except ConditionError (CompiledCondition × Nat)
  | .node op path value conditions, depth, nodes => do
    ensure (depth ≤ maxConditionDepth) (.depthExceeded depth)
    ensure (nodes + 1 ≤ maxConditionNodes) .nodesExceeded
    let path ← compilePath path
    let (children, nodes) ← buildAll conditions (depth + 1) (nodes + 1)
    return (.node op path value children, nodes)

def buildAll : List Condition → Nat → Nat → Except ConditionError (List CompiledCondition × Nat)
  | [], _, nodes => return ([], nodes)
  | condition :: rest, depth, nodes => do
    let (child, nodes) ← build condition depth nodes
    let (children, nodes) ← buildAll rest depth nodes
    return (child :: children, nodes)
end

/-- `compile_condition` -/
def compileCondition (condition : Condition) : Except ConditionError CompiledCondition := do
  let (compiled, _) ← build condition 1 0
  return compiled

mutual
/-- `CompiledCondition.describe` -/
def CompiledCondition.describe : CompiledCondition → String
  | .node op (some path) value _ =>
    if op = .exists_ then "exists(" ++ ".".intercalate path ++ ")"
    else ".".intercalate path ++ " " ++ op.text ++ " " ++ repr value
  | .node op none _ children => op.text ++ "(" ++ ", ".intercalate (describeAll children) ++ ")"

def CompiledCondition.describeAll : List CompiledCondition → List String
  | [] => []
  | child :: rest => child.describe :: CompiledCondition.describeAll rest
end

/-! ### Evaluating -/

/-- `ConditionOutcome` -/
structure ConditionOutcome where
  condition : CompiledCondition
  satisfied : Bool
  actual : Value := .null
  reason : String := ""

/-- `_resolve` -/
def resolve (context : Value) : List String → Option Value
  | [] => some context
  | segment :: rest =>
    match context.get? segment with
    | none => none
    | some next => resolve next rest

/-- `_same_scalar` -/
def sameScalar : Value → Value → Bool
  | .null, .null => true
  | .bool a, .bool b => a = b
  | .int a, .int b => a = b
  | .float a, .float b => (Number.ofBits a).equals (.ofBits b)
  | .str a, .str b => a = b
  | _, _ => false

/-- `list(compiled.value)` of a value that a contract let through -/
def allowedValues : Value → Except Exn (List Value)
  | .arr items => return items
  | _ => .error (.other "TypeError" "object is not iterable" none)

/-- The evaluation of a comparison, given what stands at its path. -/
def evaluateComparison (compiled : CompiledCondition) (op : ConditionOp) (path : List String) (value : Value)
    (found : Option Value) : Except Exn ConditionOutcome :=
  match op, found with
  | .exists_, found => return { condition := compiled, satisfied := found.isSome, actual := found.getD .null }
  | _, none => .error (.condition (.pathMissing (".".intercalate path)))
  | .eq, some actual => return { condition := compiled, satisfied := sameScalar actual value, actual := actual }
  | .ne, some actual => return { condition := compiled, satisfied := !sameScalar actual value, actual := actual }
  | _, some actual => do
    let allowed ← allowedValues value
    return {
      condition := compiled
      satisfied := allowed.any (sameScalar actual)
      actual := actual
      reason := "allowed=" ++ repr (.arr allowed) }

mutual
/-- `evaluate_condition` -/
def evaluateCondition : CompiledCondition → Value → Except Exn ConditionOutcome
  | .node op path value children, context =>
    let compiled : CompiledCondition := .node op path value children
    match op with
    | .and_ => do
      let outcomes ← evaluateAll children context
      return {
        condition := compiled
        satisfied := outcomes.all (·.satisfied)
        actual := .arr (outcomes.map (·.actual)) }
    | .or_ => do
      let outcomes ← evaluateAll children context
      return {
        condition := compiled
        satisfied := outcomes.any (·.satisfied)
        actual := .arr (outcomes.map (·.actual)) }
    | .not_ =>
      match children with
      | [] => .error (.other "IndexError" "tuple index out of range" none)
      | child :: _ => do
        let inner ← evaluateCondition child context
        return { condition := compiled, satisfied := !inner.satisfied, actual := inner.actual }
    | op =>
      match path with
      | none => .error (.other "AssertionError" "" none)
      | some path => evaluateComparison repr compiled op path value (resolve context path)

def evaluateAll : List CompiledCondition → Value → Except Exn (List ConditionOutcome)
  | [], _ => return []
  | child :: rest, context => do
    let outcome ← evaluateCondition child context
    let outcomes ← evaluateAll rest context
    return outcome :: outcomes
end

end

end Motte.Scenario
