import Motte.Experiment.CellLifecycle
import Motte.Service.Lifecycle

/-! The experiment service.

A spec is expanded to cells, and each cell gets one run: the cell is claimed, the run
is created under an id that the cell decides, and the cell is completed. These are
separate writes, so a call that dies in between leaves a cell that the next call has
to recognise. A retry creates a further run under a numbered id and then lists it with
the cell; a cancellation goes through the cells as it found them and cancels the runs
they own.

A method is a script over the calls it makes: of the experiment store, of the run
store, and of code that is not modelled here (preflight checks, the resolution of
manifests, the registry of request keys), which answers or raises as it pleases. -/
namespace Motte.Experiment
open Foundation Storage Service

/-! ### Specs and cells -/

/-- A validated `ExperimentSpec`. -/
structure Spec where
  experimentId : String
  version : String
  /-- `task_ref["scenario_version"]` -/
  scenarioVersion : Option String
  factors : List (String × List String)
  repeats : Nat
  contentHash : String
  /-- `model_dump(mode="json")` -/
  dump : Document
  identified : specKey dump = (experimentId, version)

/-- The factors of one cell with their values, by name. -/
abbrev Assignment := List (String × String)

/-- `itertools.product` -/
def product : List (String × List String) → List Assignment
  | [] => [[]]
  | (name, values) :: rest => values.flatMap (fun value => (product rest).map (fun combo => (name, value) :: combo))

/-- `_expand_matrix` -/
def expandMatrix (spec : Spec) : List (Assignment × Nat) :=
  let combos := product (spec.factors.mergeSort (fun a b => a.1 ≤ b.1))
  let combos := if combos.isEmpty then [[]] else combos
  combos.flatMap (fun combo => (List.range spec.repeats).map (fun index => (combo, index)))

/-- `canonical_payload` -/
def Assignment.canonicalPayload (a : Assignment) : Value :=
  .obj (a.map (fun f => (f.1, .obj [("value", .str f.2), ("resource_ref", .null), ("version_hash", .null)])))

/-- `model_dump` of a `FactorAssignment` -/
def Assignment.dump (a : Assignment) : Value :=
  .obj [("values", .arr (a.map (fun f => .obj [("factor", .str f.1), ("value", .str f.2), ("resource_ref", .null),
    ("version_hash", .null)])))]

/-- `compute_cell_id`; `hash` is `canonical_hash`. -/
def computeCellId (hash : Value → String) (experimentId version : String) (a : Assignment) (index : Nat) : String :=
  hash (.obj [("experiment_id", .str experimentId), ("experiment_version", .str version),
    ("factors", a.canonicalPayload), ("repeat_index", .int index)])

/-- `_cell_payload`: the dump of an `ExperimentCell` with its defaults. -/
def cellPayload (hash : Value → String) (spec : Spec) (cell : Assignment × Nat) : Document :=
  document [
    ("cell_id", .str (computeCellId hash spec.experimentId spec.version cell.1 cell.2)),
    ("experiment_id", .str spec.experimentId),
    ("experiment_version", .str spec.version),
    ("factor_assignment", cell.1.dump),
    ("repeat_index", .int cell.2),
    ("resolved_spec_hash", .str spec.contentHash),
    ("run_id", .null),
    ("allocation_status", .str "pending"),
    ("superseding_run_ids", .arr []),
    ("failure_reason", .null),
    ("prepared_run", .null),
    ("preview_hash", .null),
    ("preflight_mode", .null)]

/-- `deterministic_run_id` -/
def deterministicRunId (cellId : String) : Except Exn String :=
  if ':' ∈ cellId.toList then
    .ok (String.ofList ("run-exp-".toList ++ ((cellId.toList.dropWhile (· ≠ ':')).drop 1).take 24))
  else .error (.value ("cell_id must look like 'sha256:<hex>', got '" ++ cellId ++ "'"))

/-- `retry_run_id`; `listed` is the number of superseding runs the cell lists. -/
def retryRunId (runId : String) (listed : Nat) : String := runId ++ "-r" ++ toString (listed + 1)

/-- What `_compile` returns. -/
structure Compiled where
  previewHash : String
  violations : List String := []
  preparedRuns : Table String Value := ∅

/-- The executable input of a cell: frozen with it, or resolved when it is allocated. -/
structure Prepared where
  manifest : Json
  caseIds : List String
  requestedManifest : Json

/-- `ExperimentError` -/
def experimentError (code message : String) : Exn := .value (code ++ ": " ++ message)

/-- The exception a request of the experiment store raises. -/
def CellError.exn : CellError → Exn
  | .specField field => .value ("experiment spec requires a nonempty string " ++ field)
  | .cellField field => .value ("experiment cell requires a nonempty string " ++ field)
  | .repeatIndex => .value "experiment cell requires integer repeat_index"
  | .factorAssignment => .value "experiment cell requires a factor_assignment object"
  | .duplicateCells => .value "duplicate cell identities"
  | .foreignCell => .value "cell belongs to a different experiment"
  | .specsImmutable => .value "experiment specs are immutable"
  | .incompleteMatrix => .value "incomplete experiment matrix requires explicit repair"
  | .cellConflict _ => .value "cell content conflict"
  | .missing cellId => .key cellId
  | .status cellId _ _ => .value ("cell " ++ cellId ++ " is in another status")
  | .notIterable => .type "object is not iterable"
  | .integrity cellId => .store (.integrity cellId)

/-! ### Calls -/

/-- The calls of a method. -/
inductive Inquiry where
  /-- a request of the experiment store -/
  | cells (r : CellRequest)
  /-- `experiments.list_specs` -/
  | listSpecs (experimentId : String)
  /-- `requests.get` -/
  | registered (key : String)
  /-- `requests.bind` -/
  | register (key contentHash resource : String)
  /-- `ExperimentSpec.model_validate` of a stored spec -/
  | readSpec (stored : Document)
  /-- `_validate_allocation_inputs` -/
  | admission (spec : Spec)
  /-- `_validate_supported_suite` -/
  | supported (spec : Spec)
  /-- the checks of a retry on the suite and the frozen matrix -/
  | admitRetry (spec : Spec)
  /-- `_compile` -/
  | compile (spec : Spec)
  /-- what a cell was frozen with, or `prepare_run` -/
  | prepare (spec : Spec) (cell : Document)
  /-- `resolve_replay_case_ids` -/
  | replayCases (manifest : Json) (selected : List String)
  /-- `_refreeze_trial_identity` -/
  | refreeze (manifest : Json) (runId : String)
  /-- `_validate_frozen_benchmark_snapshot` -/
  | validateSnapshot (run : RunInput)
  /-- `validate_frozen_trial_plans` -/
  | validatePlans (run : RunInput)
  /-- `runs.create` -/
  | createRun (run : RunInput) (event : Event)
  /-- `_ensure_trial_plans` -/
  | ensurePlans (run : RunInput)
  /-- `_notify_latest_event` -/
  | notify (runId : String)
  /-- `_view` -/
  | view (runId : String)
  /-- `runs.get` -/
  | getRun (runId : String)
  /-- `datetime.now` -/
  | now
  /-- a call that `RunService.cancel` makes -/
  | service (q : Ask)

def Finding : Inquiry → Type
  | .cells _ => CellReply
  | .listSpecs _ => List Document
  | .registered _ => Option (String × String)
  | .register _ _ _ => Unit
  | .readSpec _ => Spec
  | .admission _ => Unit
  | .supported _ => Unit
  | .admitRetry _ => Unit
  | .compile _ => Compiled
  | .prepare _ _ => Prepared
  | .replayCases _ _ => List String
  | .refreeze _ _ => Json
  | .validateSnapshot _ => Unit
  | .validatePlans _ => Unit
  | .createRun _ _ => Unit
  | .ensurePlans _ => Unit
  | .notify _ => Unit
  | .view _ => Option Run
  | .getRun _ => Option Run
  | .now => Timestamp
  | .service q => Answer q

/-- A method of the service. -/
abbrev Procedure := Script Inquiry Finding Exn

def inquire (q : Inquiry) : Procedure (Finding q) := Script.call q

def check (p : Prop) [Decidable p] (e : Exn) : Procedure Unit := Script.lift (ensure p e)

/-- A change of a cell whose reply is not looked at. -/
def change (r : CellRequest) : Procedure Unit := do
  let _ : CellReply ← inquire (.cells r)
  return ()

def getCell (id : String) : Procedure (Option Document) := do
  match (← inquire (.cells (.getCell id)) : CellReply) with
  | .found d => return d
  | _ => return none

def getSpec (experimentId version : String) : Procedure (Option Document) := do
  match (← inquire (.cells (.getSpec experimentId version)) : CellReply) with
  | .found d => return d
  | _ => return none

def listCells (experimentId version : String) : Procedure (List Document) := do
  match (← inquire (.cells (.listCells experimentId (some version))) : CellReply) with
  | .documents ds => return ds
  | _ => return []

/-- `claim_cell` and `reset_allocating` -/
def attempted (r : CellRequest) : Procedure Bool := do
  match (← inquire (.cells r) : CellReply) with
  | .flag done => return done
  | _ => return false

def getRun (runId : String) : Procedure (Option Run) := inquire (.getRun runId)

/-! ### `RunService.create_run` -/

/-- The run that `create_run` stores. -/
def newRunRecord (scenarioVersion : String) (prepared : Prepared) (selected : List String) (runId : String)
    (parent : Option String) (now : Timestamp) : RunInput where
  id := runId
  status := some "queued"
  revision := some 1
  schemaVersion := some 2
  fields :=
    let fields := ((((((∅ : Fields).insert "scenario_version" (.str scenarioVersion)).insert "requested_manifest"
      prepared.requestedManifest).insert "manifest" prepared.manifest).insert "case_ids"
      (.arr (selected.map .str))).insert "created_at" (.str now)).insert "updated_at" (.str now)
    match parent with
    | none => fields
    | some parent => fields.insert "parent_run_id" (.str parent)

/-- The run replays recorded cases. -/
def replays (scenarioVersion : String) (manifest : Json) : Bool :=
  starts "replay@" scenarioVersion || (manifest.get "execution").get "backend_id" = .str "replay"

/-- The cases of a run: those it is given, or those of the recording. -/
def selectCases (scenarioVersion : String) (prepared : Prepared) : Procedure (List String) :=
  if replays scenarioVersion prepared.manifest then inquire (.replayCases prepared.manifest prepared.caseIds)
  else return prepared.caseIds

/-- `create_run` -/
def createRun (scenarioVersion : String) (prepared : Prepared) (runId : String) (parent : Option String := none) :
    Procedure (Option Run) := do
  check prepared.caseIds.Nodup (.value "case_ids must be unique")
  let selected ← selectCases scenarioVersion prepared
  check (nonBlank runId = true) (.value "run_id must be a nonempty string when provided")
  let now : Timestamp ← inquire .now
  let run := newRunRecord scenarioVersion prepared selected runId parent now
  let _ : Unit ← inquire (.validateSnapshot run)
  let _ : Unit ← inquire (.validatePlans run)
  let _ : Unit ← inquire (.createRun run ⟨some runId, "queued", (∅ : Fields).insert "status" (.str "queued")⟩)
  Script.when (trialShaped (run.stored 1) = true) (inquire (.ensurePlans run))
  let _ : Unit ← inquire (.notify runId)
  inquire (.view runId)

/-! ### Allocation -/

/-- `_create_cell_run` -/
def createCellRun (spec : Spec) (cell : Document) (runId : String) : Procedure Unit := do
  let scenario ← Script.lift (match spec.scenarioVersion with
    | none => .error (.key "scenario_version")
    | some scenario => .ok scenario)
  let prepared : Prepared ← inquire (.prepare spec cell)
  let _ ← createRun scenario prepared runId
  return ()

/-- An exception that `except ValueError` catches around a request of the experiment store. -/
def isValueError : Exn → Bool
  | .value _ => true
  | _ => false

/-- `_complete_claimed_cell` -/
def completeClaimedCell (id runId : String) : Procedure Unit :=
  Script.handle (change (.complete id runId)) (fun e =>
    if isValueError e then do
      match ← getCell id with
      | some current =>
        if status current = some (.str "allocated") ∧ Experiment.runId current = some (.str runId) then return ()
        else Script.raise e
      | none => Script.raise e
    else Script.raise e)

/-- `_fail_cell_safely` -/
def failCellSafely (id : String) (error : Exn) : Procedure Unit :=
  Script.handle (change (.fail id error.message)) (fun e =>
    if isValueError e then do
      let current ← getCell id
      if current.bind status = some (.str "allocated") ∨ current.bind status = some (.str "failed") then return ()
      else Script.raise e
    else Script.raise e)

/-- How `_allocate_one` ended. -/
inductive Allotment where
  | allocated
  | skipped
  | failed (reason : String)
deriving DecidableEq

/-- The claim of a pending cell, and what follows it. -/
def claimAndCreate (spec : Spec) (cell : Document) : Procedure Allotment := do
  let id := cellId cell
  let claimed ← attempted (.claim id)
  if claimed then do
    let runId ← Script.lift (deterministicRunId id)
    match ← Script.result (createCellRun spec cell runId) with
    | .error e =>
      -- a run that exists already is taken over
      if e.isConflict then do
        completeClaimedCell id runId
        return .allocated
      else do
        failCellSafely id e
        return .failed (e.typeName ++ ": " ++ e.message)
    | .ok _ => do
      completeClaimedCell id runId
      return .allocated
  else return .skipped

/-- `_allocate_one` -/
def allocateOne (spec : Spec) (cell : Document) : Procedure Allotment := do
  let id := cellId cell
  let found := (status cell).getD (.str "pending")
  if found = .str "allocated" ∨ found = .str "cancelled" ∨ found = .str "failed" then return .skipped
  else if found = .str "allocating" then do
    let runId ← Script.lift (deterministicRunId id)
    match ← getRun runId with
    | some _ => do
      completeClaimedCell id runId
      return .allocated
    | none => do
      let _ ← attempted (.reset id)
      claimAndCreate spec cell
  else if found = .str "pending" then claimAndCreate spec cell
  else return .skipped

/-- What an allocation reports. -/
structure Allocation where
  allocated : Nat := 0
  skipped : Nat := 0
  failed : List (String × String) := []
  previewHash : Value := .null
  preflightMode : Value := .null
  cells : List Document := []

def Allocation.note (a : Allocation) (id : String) : Allotment → Allocation
  | .allocated => { a with allocated := a.allocated + 1 }
  | .skipped => { a with skipped := a.skipped + 1 }
  | .failed reason => { a with failed := a.failed ++ [(id, reason)] }

/-- The one value that all members have, if there is one. -/
def sole (values : List Value) : Option Value :=
  match values.dedup with
  | [v] => some v
  | _ => none

/-- `_preflight_receipt` -/
def preflightReceipt (cells : List Document) : Value × Value :=
  ((sole (cells.map (·.getOrNull "preview_hash"))).getD .null,
    ((sole (cells.map (·.getOrNull "preflight_mode"))).filter (· ≠ .null)).getD (.str "legacy_revalidated"))

def allocateCells (spec : Spec) : List Document → Allocation → Procedure Allocation
  | [], a => return a
  | cell :: rest, a => do
    let outcome ← allocateOne spec cell
    allocateCells spec rest (a.note (cellId cell) outcome)

/-- `_allocate_locked` -/
def allocateLocked (experimentId version : String) : Procedure Allocation := do
  match ← getSpec experimentId version with
  | none => Script.raise (experimentError "EXPERIMENT_NOT_FOUND" ("experiment " ++ experimentId ++ "@" ++ version ++
      " not found"))
  | some stored => do
    let spec : Spec ← inquire (.readSpec stored)
    let _ : Unit ← inquire (.admission spec)
    let cells ← listCells experimentId version
    let a ← allocateCells spec cells {}
    let seen ← listCells experimentId version
    let cells ← listCells experimentId version
    return { a with
      previewHash := (preflightReceipt seen).1
      preflightMode := (preflightReceipt seen).2
      cells := cells }

/-- `allocate`, inside its lock -/
def allocate (experimentId version : String) : Procedure Allocation := allocateLocked experimentId version

/-! ### Creation -/

section Create
variable (hash : Value → String)

def specCellId (spec : Spec) (cell : Assignment × Nat) : String :=
  computeCellId hash spec.experimentId spec.version cell.1 cell.2

/-- The members of a cell that say which one it is. -/
def identityKeys : List String :=
  ["experiment_id", "experiment_version", "factor_assignment", "repeat_index", "resolved_spec_hash"]

/-- The check of one cell that is there already. -/
def checkSaved (existing : List Document) (expected : Document) : Except Exn Unit :=
  match existing.find? (fun c => cellId c = cellId expected) with
  | none => .error (.key (cellId expected))
  | some saved =>
    match identityKeys.find? (fun key => !(saved.getOrNull key).equals (expected.getOrNull key)) with
    | some key => .error (experimentError "CELL_CONTENT_CONFLICT" ("saved cell identity: " ++ key))
    | none => .ok ()

/-- The cells of a publication, with what they are frozen with. -/
def preparedCells (spec : Spec) (compiled : Compiled) (mode : String) : Except Exn (List Document) :=
  (expandMatrix spec).mapM fun cell =>
    match compiled.preparedRuns.get (specCellId hash spec cell) with
    | none => .error (.key (specCellId hash spec cell))
    | some prepared =>
      .ok ((((cellPayload hash spec cell).set "prepared_run" prepared).set "preview_hash"
        (.str compiled.previewHash)).set "preflight_mode" (.str mode))

/-- `requests.get`, if the caller named a key -/
def registeredAs : Option String → Procedure (Option (String × String))
  | none => return none
  | some key => inquire (.registered key)

/-- `requests.bind`, if the caller named a key -/
def registerKey (spec : Spec) : Option String → Procedure Unit
  | none => return ()
  | some key => inquire (.register key spec.contentHash (spec.experimentId ++ "@" ++ spec.version))

/-- `create`, inside its lock -/
def create (spec : Spec) (requestKey expectedPreview : Option String := none) : Procedure Allocation := do
  let key := requestKey.map ("experiment:create:" ++ ·)
  let seen ← registeredAs key
  check (∀ known ∈ seen, known = (spec.contentHash, spec.experimentId ++ "@" ++ spec.version))
    (experimentError "REQUEST_KEY_CONFLICT" "request_key already created different spec content")
  match ← getSpec spec.experimentId spec.version with
  | some stored => do
    check (stored.equals spec.dump = true) (.value "experiment specs are immutable")
    let existing ← listCells spec.experimentId spec.version
    check ((∀ c ∈ existing, cellId c ∈ (expandMatrix spec).map (specCellId hash spec)) ∧
        ∀ cell ∈ expandMatrix spec, specCellId hash spec cell ∈ existing.map cellId)
      (experimentError "EXPERIMENT_INCOMPLETE" "matrix requires explicit repair")
    Script.lift ((expandMatrix spec).forM (fun cell => checkSaved existing (cellPayload hash spec cell)))
    let listed ← listCells spec.experimentId spec.version
    check (∀ expected ∈ expectedPreview, (preflightReceipt listed).1 = .str expected)
      (experimentError "PREVIEW_STALE" "preview does not match published experiment")
    let _ : Unit ← inquire (.admission spec)
    registerKey spec key
    allocateLocked spec.experimentId spec.version
  | none => do
    let compiled : Compiled ← inquire (.compile spec)
    check (∀ expected ∈ expectedPreview, expected = compiled.previewHash)
      (experimentError "PREVIEW_STALE" "resources or spec changed; preview again")
    check (compiled.violations = []) (experimentError "EXPERIMENT_INVALID" ("; ".intercalate compiled.violations))
    let _ : Unit ← inquire (.supported spec)
    registerKey spec key
    let cells ← Script.lift (preparedCells hash spec compiled
      (if expectedPreview.isSome then "preview_bound" else "create_revalidated"))
    change (.publish spec.dump cells)
    allocateLocked spec.experimentId spec.version

end Create

/-! ### Retry -/

/-- What a retry reports. -/
structure Retry where
  cellId : String
  runId : String
  parentRunId : String
  superseding : List Value

/-- `list(cell.get("superseding_run_ids") or ())` -/
def supersedingOf (cell : Document) : Procedure (List Value) :=
  Script.lift (match superseding cell with
    | .ok listed => .ok listed
    | .error e => .error e.exn)

/-- What `create_run` is given for a retry: the input of the run it supersedes. -/
def retried (original : Run) (manifest : Json) : Prepared where
  manifest := manifest
  caseIds := caseIds original
  requestedManifest :=
    if original.fields.get "requested_manifest" = .null then original.fields.get "manifest"
    else original.fields.get "requested_manifest"

/-- `cell.get("run_id")`, where it counts as true -/
def ownedRun (cell : Document) : Option String :=
  match runId cell with
  | some (.str run) => if run = "" then none else some run
  | _ => none

/-- `retry_cell` -/
def retryCell (id : String) : Procedure Retry := do
  match ← getCell id with
  | none => Script.raise (experimentError "CELL_NOT_FOUND" ("cell '" ++ id ++ "' not found"))
  | some cell => do
    match ← getSpec (cellKey cell).1 (cellKey cell).2 with
    | none => Script.raise (experimentError "EXPERIMENT_NOT_FOUND" ("experiment " ++ (cellKey cell).1 ++ "@" ++
        (cellKey cell).2 ++ " not found"))
    | some stored => do
      let spec : Spec ← inquire (.readSpec stored)
      match ownedRun cell with
      | none => Script.raise (experimentError "CELL_NOT_ALLOCATED" ("cell " ++ id ++ " has no initial run to supersede"))
      | some originalRunId => do
        let _ : Unit ← inquire (.admitRetry spec)
        match ← getRun originalRunId with
        | none => Script.raise (experimentError "RUN_NOT_FOUND" ("initial run '" ++ originalRunId ++ "' not found"))
        | some original => do
          let listed ← supersedingOf cell
          let runId ← Script.lift (deterministicRunId id)
          let retryId := retryRunId runId listed.length
          let manifest : Json ← inquire (.refreeze (original.fields.get "manifest") retryId)
          let scenario := match original.fields.get "scenario_version" with
            | .str scenario => scenario
            | _ => ""
          let _ ← createRun scenario (retried original manifest) retryId (some originalRunId)
          change (.recordSuperseding id retryId)
          let refreshed ← getCell id
          let listed ← supersedingOf (refreshed.getD cell)
          return ⟨id, retryId, originalRunId, listed⟩

/-! ### Cancellation -/

/-- A method of the run service, as the experiment service calls it. -/
def onService {α : Type} : Method α → Procedure α
  | .done r => .done r
  | .ask q next => .ask (.service q) (fun answer => onService (next answer))

/-- `_cancel_owned_run` -/
def cancelOwnedRun (runId : String) (reason : String) : Procedure Bool := do
  match ← getRun runId with
  | none => return false
  | some run =>
    if run.status.any isTerminal then return false
    else do
      let _ ← onService (Service.cancel runId (.str reason))
      return true

/-- What a cancellation reports. -/
structure Cancellation where
  cells : List String := []
  runs : List String := []

/-- The run that one round cancels. -/
def Cancellation.noteRun (c : Cancellation) (runId : String) (cancelled : Bool) : Cancellation :=
  if cancelled then { c with runs := c.runs ++ [runId] } else c

def Cancellation.noteCell (c : Cancellation) (id : String) : Cancellation := { c with cells := c.cells ++ [id] }

/-- One round of the loop in `cancel`. -/
def cancelOne (reason : String) (cell : Document) (c : Cancellation) : Procedure Cancellation := do
  let id := cellId cell
  let found := (status cell).getD (.str "pending")
  if found = .str "pending" then do
    change (.cancel id)
    return c.noteCell id
  else if found = .str "allocating" then do
    let runId ← Script.lift (deterministicRunId id)
    let cancelled ← cancelOwnedRun runId reason
    change (.cancel id)
    return (c.noteRun runId cancelled).noteCell id
  else if found = .str "allocated" then
    match ownedRun cell with
    | none => return c
    | some runId => do
      let cancelled ← cancelOwnedRun runId reason
      change (.cancelAllocated id)
      return (c.noteRun runId cancelled).noteCell id
  else return c

def cancelCells (reason : String) : List Document → Cancellation → Procedure Cancellation
  | [], c => return c
  | cell :: rest, c => do
    let c ← cancelOne reason cell c
    cancelCells reason rest c

/-- `_resolve_spec`, as far as the version that is found. -/
def resolveSpec (experimentId : String) (version : Option String) : Procedure String := do
  let specs : List Document ← inquire (.listSpecs experimentId)
  match version with
  | none =>
    match specs.getLast? with
    | none => Script.raise (experimentError "EXPERIMENT_NOT_FOUND" ("experiment '" ++ experimentId ++ "' not found"))
    | some spec => return textOf spec "version"
  | some version =>
    if specs.any (fun spec => textOf spec "version" = version) then return version
    else Script.raise (experimentError "EXPERIMENT_NOT_FOUND" ("experiment " ++ experimentId ++ "@" ++ version ++
      " not found"))

/-- `cancel` -/
def cancel (experimentId : String) (version : Option String) (reason : String := "experiment cancelled") :
    Procedure Cancellation := do
  let version ← resolveSpec experimentId version
  let cells ← listCells experimentId version
  let c ← cancelCells reason cells {}
  let _ ← listCells experimentId version
  return c

/-! ### Answers -/

/-- Both stores of a deployment. -/
structure Lab (σ ρ : Type) where
  experiments : σ
  platform : ρ

/-- What code outside the model answers, or raises. With a fault, the creation of a run, or what `create_run` reads
after it, raises instead of being served. -/
structure Chance where
  listSpecs : List Document := []
  registered : Except Exn (Option (String × String)) := .ok none
  register : Except Exn Unit := .ok ()
  readSpec : Except Exn Spec
  admission : Except Exn Unit := .ok ()
  compile : Except Exn Compiled := .ok { previewHash := "" }
  prepare : Except Exn Prepared := .ok ⟨.obj [], [], .obj []⟩
  replayCases : Except Exn (List String) := .ok []
  refreeze : Except Exn Json := .ok (.obj [])
  validate : Except Exn Unit := .ok ()
  ensurePlans : Except Exn Unit := .ok ()
  now : Timestamp := ""
  createFault : Option Exn := none
  readFault : Option Exn := none
  oracle : Oracle := {}

def onExperiments {σ ρ ε α : Type} (x : Op σ ε α) : Op (Lab σ ρ) ε α :=
  Op.zoom (·.experiments) (fun s t => { s with experiments := t }) x

def onPlatform {σ ρ ε α : Type} (x : Op ρ ε α) : Op (Lab σ ρ) ε α :=
  Op.zoom (·.platform) (fun s t => { s with platform := t }) x

/-- A call that may raise before it does anything. -/
def faulty {σ α : Type} (fault : Option Exn) (x : Op σ Exn α) : Op σ Exn α :=
  match fault with
  | some e => Op.raise e
  | none => x

/-- The answer to one call. -/
def answer {σ ρ : Type} (S : CellStore σ) (P : Platform ρ) (o : Chance) : (q : Inquiry) → Op (Lab σ ρ) Exn (Finding q)
  | .cells r => onExperiments (Op.mapErr CellError.exn (S.serve r))
  | .listSpecs _ => Op.gets (fun _ => o.listSpecs)
  | .registered _ => Op.lift o.registered
  | .register _ _ _ => Op.lift o.register
  | .readSpec _ => Op.lift o.readSpec
  | .admission _ => Op.lift o.admission
  | .supported _ => Op.lift o.admission
  | .admitRetry _ => Op.lift o.admission
  | .compile _ => Op.lift o.compile
  | .prepare _ _ => Op.lift o.prepare
  | .replayCases _ _ => Op.lift o.replayCases
  | .refreeze _ _ => Op.lift o.refreeze
  | .validateSnapshot _ => Op.lift o.validate
  | .validatePlans _ => Op.lift o.validate
  | .createRun run event => faulty o.createFault (do
      let _ ← onPlatform (Op.mapErr .store (P.serve (.run (.create run (some event)))))
      return ())
  | .ensurePlans _ => Op.lift o.ensurePlans
  | .notify _ => faulty o.readFault (return ())
  | .view runId => faulty o.readFault (do
      match ← Op.gets (fun s => P.runAt s.platform runId) with
      | none => Op.raise (.key runId)
      | some run => return some run)
  | .getRun runId => Op.gets (fun s => P.runAt s.platform runId)
  | .now => Op.gets (fun _ => o.now)
  | .service q => onPlatform (P.answer o.oracle q)

end Motte.Experiment
