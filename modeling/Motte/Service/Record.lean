import Motte.Storage.Request

/-! What the run service works with: the states of a run, the exceptions its
methods raise, and what they read from a run's manifest. -/
namespace Motte.Service
open Foundation Storage

/-! ### Run states -/

/-- `RUN_STATES` -/
inductive RunState where
  | queued | preparing | running | collecting | scoring
  | completed | failed | cancelled | unsupported | profileStale | needsReview
deriving DecidableEq, Repr

namespace RunState

def name : RunState → String
  | queued => "queued"
  | preparing => "preparing"
  | running => "running"
  | collecting => "collecting"
  | scoring => "scoring"
  | completed => "completed"
  | failed => "failed"
  | cancelled => "cancelled"
  | unsupported => "unsupported"
  | profileStale => "profile_stale"
  | needsReview => "needs_review"

def all : List RunState :=
  [queued, preparing, running, collecting, scoring, completed, failed, cancelled, unsupported, profileStale,
    needsReview]

/-- `TRANSITIONS` -/
def transitions : RunState → List RunState
  | queued => [preparing, cancelled, unsupported, profileStale]
  | preparing => [running, failed, cancelled, unsupported]
  | running => [collecting, failed, cancelled, running, needsReview]
  | collecting => [scoring, failed, cancelled, running, needsReview]
  | scoring => [completed, failed, cancelled, running, needsReview]
  | completed | failed | cancelled | unsupported | profileStale | needsReview => []

/-- `TERMINAL` -/
def terminal : RunState → Bool
  | completed | failed | cancelled | unsupported | profileStale | needsReview => true
  | queued | preparing | running | collecting | scoring => false

/-- A run in a terminal state has nowhere to go. -/
theorem terminal_iff (s : RunState) : s.terminal = true ↔ s.transitions = [] := by
  cases s <;> decide

/-- The state with the given name. -/
def ofName? (text : String) : Option RunState := all.find? (fun s => s.name = text)

@[simp] theorem ofName?_name (s : RunState) : ofName? s.name = some s := by
  cases s <;> decide

theorem ofName?_eq_some {text : String} {s : RunState} : ofName? text = some s ↔ text = s.name := by
  constructor
  · intro h
    have hs := List.find?_some h
    exact (of_decide_eq_true hs).symm
  · intro h
    rw [h, ofName?_name]

theorem name_injective {a b : RunState} (h : a.name = b.name) : a = b := by
  have hab : ofName? a.name = ofName? b.name := by rw [h]
  simpa using hab

end RunState

/-- `TRANSITIONS.get(previous, set())` -/
def transitionsFrom (previous : String) : List RunState :=
  match RunState.ofName? previous with
  | some s => s.transitions
  | none => []

/-- The text is that of a terminal state. -/
def isTerminal (status : String) : Bool :=
  match RunState.ofName? status with
  | some s => s.terminal
  | none => false

theorem mem_transitionsFrom {previous : String} {t : RunState} :
    t ∈ transitionsFrom previous ↔ ∃ s : RunState, previous = s.name ∧ t ∈ s.transitions := by
  unfold transitionsFrom
  constructor
  · intro h
    split at h
    · rename_i s hs
      exact ⟨s, RunState.ofName?_eq_some.1 hs, h⟩
    · cases h
  · rintro ⟨s, rfl, h⟩
    rw [RunState.ofName?_eq_some.2 rfl]
    exact h

theorem isTerminal_name (s : RunState) : isTerminal s.name = s.terminal := by
  rw [isTerminal, RunState.ofName?_eq_some.2 rfl]

/-! ### Exceptions -/

/-- An exception of code outside the service, with what handlers ask of it. -/
structure Raised where
  typeName : String
  message : String
  /-- `error_class` -/
  errorClass : Json := .null
  evidence : Json := .null
  quarantine : Bool := false
  /-- It is a `RunConflictError`. -/
  conflict : Bool := false
deriving DecidableEq

/-- What a method of the service raises. -/
inductive Exn where
  /-- raised by a repository -/
  | store (e : Err)
  /-- `ValueError` -/
  | value (message : String)
  /-- `KeyError` -/
  | key (name : String)
  /-- `TypeError` -/
  | type (message : String)
  /-- `AttributeError` -/
  | attribute (message : String)
  /-- `RunConflictError` raised by the service itself -/
  | conflict (message : String)
  | other (r : Raised)
deriving DecidableEq

/-- The exception is a `RunConflictError`; a scoring job conflict is one. -/
def Exn.isConflict : Exn → Bool
  | .store (.runConflict _) | .store (.scoringJobConflict _) | .conflict _ => true
  | .other r => r.conflict
  | _ => false

/-- `type(error).__name__` -/
def Exn.typeName : Exn → String
  | .store (.value _) | .value _ => "ValueError"
  | .store (.scoringJob _) => "ScoringJobError"
  | .store (.scoringJobConflict _) => "ScoringJobConflict"
  | .store (.runConflict _) | .conflict _ => "RunConflictError"
  | .store (.key _) | .key _ => "KeyError"
  | .store (.integrity _) => "IntegrityError"
  | .type _ => "TypeError"
  | .attribute _ => "AttributeError"
  | .other r => r.typeName

/-- `str(error)`; a missing key is shown in quotes. -/
def Exn.message : Exn → String
  | .store (.value m) | .store (.scoringJob m) | .store (.scoringJobConflict m) | .store (.runConflict m)
  | .store (.integrity m) | .value m | .type m | .attribute m | .conflict m => m
  | .store (.key name) | .key name => "'" ++ name ++ "'"
  | .other r => r.message

/-- `getattr(error, "error_class", None)` -/
def Exn.errorClass : Exn → Json
  | .other r => r.errorClass
  | _ => .null

/-- `getattr(error, "evidence", None)` -/
def Exn.evidence : Exn → Json
  | .other r => r.evidence
  | _ => .null

/-- `getattr(error, "quarantine", False)` -/
def Exn.quarantine : Exn → Bool
  | .other r => r.quarantine
  | _ => false

/-! ### What a run says about itself

A manifest is an object, and so is what it holds at the keys read here; where a
key is missing the source reads on with an empty object. -/

def manifest (run : Run) : Json := run.fields.get "manifest"

/-- `case_ids`: selected once, as texts. -/
def caseIds (run : Run) : List String :=
  (run.fields.get "case_ids").items.filterMap (fun item => match item with
    | .str caseId => some caseId
    | _ => none)

/-- The manifest names a managed benchmark. -/
def hasProvenance (run : Run) : Bool := ((manifest run).get "benchmark_provenance").truthy

/-- `external_benchmark.runner_config.plan` -/
def runnerPlan (run : Run) : Json := (((manifest run).get "external_benchmark").get "runner_config").get "plan"

/-- `_trial_shaped` -/
def trialShaped (run : Run) : Bool := (runnerPlan run).truthy

/-- `execution.backend_id` -/
def backendId (run : Run) : Json := ((manifest run).get "execution").get "backend_id"

/-- `_scenario_shaped` -/
def scenarioShaped (run : Run) : Bool :=
  backendId run = .str "scenario" ∧ (manifest run).get "workflow_snapshot" ≠ .null

/-- `cancellation` is an object: somebody asked for the run to be cancelled. -/
def cancellationRequested (run : Run) : Bool := (run.fields.get "cancellation").isObj

end Motte.Service
