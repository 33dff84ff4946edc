import Motte.Foundation.Document
import Motte.Foundation.Op

/-! The experiment store: specs, and the cells of their matrices.

A spec is written once. A cell is claimed by one worker, then completed with a run,
failed or cancelled; a claim whose worker has died is reset. Every request is checked
against the status that the cell has when it comes. The two stores are written side
by side: dictionaries under a lock, and tables of documents as text, where each
request is one transaction and a document is read back with its keys in order. -/
namespace Motte.Experiment
open Foundation

inductive CellError where
  /-- `experiment spec requires a nonempty string …` -/
  | specField (field : String)
  /-- `experiment cell requires a nonempty string …` -/
  | cellField (field : String)
  /-- `experiment cell requires integer repeat_index` -/
  | repeatIndex
  /-- `experiment cell requires a factor_assignment object` -/
  | factorAssignment
  /-- `duplicate cell identities` -/
  | duplicateCells
  /-- `cell belongs to a different experiment` -/
  | foreignCell
  /-- `experiment specs are immutable` -/
  | specsImmutable
  /-- `incomplete experiment matrix requires explicit repair` -/
  | incompleteMatrix
  /-- `cell content conflict` -/
  | cellConflict (cellId : Option String)
  /-- `KeyError` -/
  | missing (cellId : String)
  /-- `cell … is …, expected …` -/
  | status (cellId : String) (found : Option Value) (expected : List String)
  /-- `TypeError` of `list` on a value that cannot be iterated -/
  | notIterable
  /-- A primary key that has a row. -/
  | integrity (cellId : String)

/-! ### Documents of the store -/

/-- A text member of a checked document. -/
def textOf (d : Document) (key : String) : String := (d.text? key).getD ""

def cellId (cell : Document) : String := textOf cell "cell_id"

/-- The status of a cell, as it is compared. -/
def status (cell : Document) : Option Value := cell.get "allocation_status"

def runId (cell : Document) : Option Value := cell.get "run_id"

def withStatus (cell : Document) (status : String) : Document := cell.set "allocation_status" (.str status)

/-- The first field that is not a nonempty text is refused. -/
def requireTexts (error : String → CellError) (d : Document) : List String → Except CellError Unit
  | [] => .ok ()
  | field :: rest => do
    ensure (d.text? field).isSome (error field)
    requireTexts error d rest

/-- `_validate_spec` -/
def validateSpec (payload : Document) : Except CellError Document := do
  requireTexts .specField payload ["experiment_id", "version"]
  .ok payload

/-- An integer, which a truth value counts as. -/
def isInt : Option Value → Bool
  | some (.int _) | some (.bool _) => true
  | _ => false

def isDict : Option Value → Bool
  | some (.obj _) => true
  | _ => false

/-- `_validate_cell` -/
def validateCell (payload : Document) : Except CellError Document := do
  let payload := payload.setDefault "allocation_status" (.str "pending")
  requireTexts .cellField payload ["cell_id", "experiment_id", "experiment_version", "allocation_status"]
  ensure (isInt (payload.get "repeat_index")) .repeatIndex
  ensure (isDict (payload.get "factor_assignment")) .factorAssignment
  .ok payload

/-- The experiment of a spec. -/
def specKey (spec : Document) : String × String := (textOf spec "experiment_id", textOf spec "version")

/-- The experiment of a cell. -/
def cellKey (cell : Document) : String × String := (textOf cell "experiment_id", textOf cell "experiment_version")

/-- `_validate_publication` -/
def validatePublication (specPayload : Document) (cellPayloads : List Document) :
    Except CellError (Document × List Document) := do
  let spec ← validateSpec specPayload
  let cells ← cellPayloads.mapM validateCell
  ensure (cells.map cellId).Nodup .duplicateCells
  ensure (∀ cell ∈ cells, cellKey cell = specKey spec) .foreignCell
  .ok (spec, cells)

/-- The members in which a cell may not differ from the one that is stored. -/
def frozenKeys : List String :=
  ["experiment_id", "experiment_version", "factor_assignment", "repeat_index", "resolved_spec_hash", "prepared_run",
    "preview_hash", "preflight_mode"]

/-- One round of the loop in `_check_existing_publication`. -/
def checkCell (existing : List Document) (cell : Document) : Except CellError Unit :=
  match existing.find? (fun e => cellId e = cellId cell) with
  | none => .error (.missing (cellId cell))
  | some found =>
    ensure (frozenKeys.all (fun key => (found.getOrNull key).equals (cell.getOrNull key))) (.cellConflict (cellId cell))

/-- `_check_existing_publication` -/
def checkExistingPublication (existingSpec : Document) (existing : List Document) (spec : Document)
    (cells : List Document) : Except CellError Unit := do
  ensure (existingSpec.equals spec) .specsImmutable
  ensure ((∀ e ∈ existing, cellId e ∈ cells.map cellId) ∧ ∀ cell ∈ cells, cellId cell ∈ existing.map cellId)
    .incompleteMatrix
  cells.forM (checkCell existing)

/-! ### Changes of a cell -/

/-- Refuse a cell in any other status. -/
def requireStatus (id : String) (allowed : List String) (cell : Document) : Except CellError Unit :=
  ensure (∃ a ∈ allowed, status cell = some (.str a)) (.status id (status cell) allowed)

def completing (id run : String) (cell : Document) : Except CellError Document := do
  requireStatus id ["allocating"] cell
  .ok ((withStatus cell "allocated").set "run_id" (.str run))

def failing (id reason : String) (cell : Document) : Except CellError Document := do
  requireStatus id ["allocating"] cell
  .ok ((withStatus cell "failed").set "failure_reason" (.str reason))

def cancelling (id : String) (cell : Document) : Except CellError Document := do
  requireStatus id ["pending", "allocating"] cell
  .ok (withStatus cell "cancelled")

def cancellingAllocated (id : String) (cell : Document) : Except CellError Document := do
  requireStatus id ["allocated"] cell
  .ok (withStatus cell "cancelled")

/-- `list` of a value -/
def iterate : Value → Except CellError (List Value)
  | .arr items => .ok items
  | .str s => .ok (s.toList.map (fun c => .str c.toString))
  | .obj members => .ok (members.map (fun m => .str m.1))
  | _ => .error .notIterable

/-- `list(cell.get("superseding_run_ids") or ())` -/
def superseding (cell : Document) : Except CellError (List Value) :=
  if (cell.getOrNull "superseding_run_ids").truthy then iterate (cell.getOrNull "superseding_run_ids") else .ok []

def recording (run : String) (cell : Document) : Except CellError Document := do
  let listed ← superseding cell
  let listed := if listed.any (fun v => v.equals (.str run)) then listed else listed ++ [.str run]
  .ok (cell.set "superseding_run_ids" (.arr listed))

/-- The claim of a cell, none where it is not pending. -/
def claiming (cell : Document) : Option Document :=
  if status cell = some (.str "pending") then some (withStatus cell "allocating") else none

/-- The reset of a claim, none where there is none. -/
def resetting (cell : Document) : Option Document :=
  if status cell = some (.str "allocating") then some (withStatus cell "pending") else none

/-! ### Listing -/

/-- `item.get("repeat_index", 0)` -/
def repeatIndex (cell : Document) : Int :=
  match cell.get "repeat_index" with
  | some (.int n) => n
  | some (.bool b) => if b then 1 else 0
  | _ => 0

/-- `item.get("factor_assignment") or {}` -/
def factors (cell : Document) : Value :=
  if (cell.getOrNull "factor_assignment").truthy then cell.getOrNull "factor_assignment" else .obj []

/-- The order of a listing; `dumps` is how `json.dumps` with sorted keys writes a value. -/
def listedBefore (dumps : Value → String) (a b : Document) : Prop :=
  repeatIndex a < repeatIndex b ∨
    repeatIndex a = repeatIndex b ∧ dumps (factors a).canon ≤ dumps (factors b).canon

instance (dumps : Value → String) : DecidableRel (listedBefore dumps) :=
  fun a b => inferInstanceAs (Decidable (repeatIndex a < repeatIndex b ∨
    repeatIndex a = repeatIndex b ∧ dumps (factors a).canon ≤ dumps (factors b).canon))

/-! ### The stores -/

structure MemoryExperiments where
  specs : Table (String × String) Document := ∅
  cells : Table String Document := ∅

namespace MemoryExperiments
variable (dumps : Value → String)

/-- The cells of an experiment, in the order they were stored. -/
def matching (s : MemoryExperiments) (experimentId : String) (version : Option String) : List Document :=
  (s.cells.rows.map Prod.snd).filter fun cell =>
    textOf cell "experiment_id" = experimentId ∧ ∀ v ∈ version, textOf cell "experiment_version" = v

def listCells (experimentId : String) (version : Option String) (s : MemoryExperiments) : List Document :=
  (s.matching experimentId version).insertionSort (listedBefore dumps)

def storeCells (cells : List Document) (s : MemoryExperiments) : MemoryExperiments :=
  { s with cells := cells.foldl (fun t cell => t.set (cellId cell) cell) s.cells }

def publishSpecAndCells (payload : Document) (cellPayloads : List Document) : Op MemoryExperiments CellError Document := do
  let (spec, cells) ← Op.lift (validatePublication payload cellPayloads)
  match ← Op.gets (·.specs.get (specKey spec)) with
  | some existing => do
    let stored ← Op.gets (listCells dumps (specKey spec).1 (some (specKey spec).2))
    Op.lift (checkExistingPublication existing stored spec cells)
    pure existing
  | none => do
    let taken ← Op.gets (fun s => cells.any (fun cell => (s.cells.get (cellId cell)).isSome))
    Op.lift (ensure (taken = false) (.cellConflict none))
    Op.modify (fun s => { s with specs := s.specs.set (specKey spec) spec })
    Op.modify (storeCells cells)
    pure spec

def putSpec (payload : Document) : Op MemoryExperiments CellError Document := do
  let spec ← Op.lift (validateSpec payload)
  match ← Op.gets (·.specs.get (specKey spec)) with
  | some existing => do
    Op.lift (ensure (existing.equals spec) .specsImmutable)
    pure existing
  | none => do
    Op.modify (fun s => { s with specs := s.specs.set (specKey spec) spec })
    pure spec

def putCell (payload : Document) : Op MemoryExperiments CellError Document := do
  let cell ← Op.lift (validateCell payload)
  match ← Op.gets (·.cells.get (cellId cell)) with
  | some existing => do
    Op.lift (ensure (existing.equals cell) (.cellConflict (cellId cell)))
    pure existing
  | none => do
    Op.modify (fun s => { s with cells := s.cells.set (cellId cell) cell })
    pure cell

/-- `_transition` -/
def transition (id : String) (mutate : Document → Except CellError Document) :
    Op MemoryExperiments CellError Document := do
  match ← Op.gets (·.cells.get id) with
  | none => Op.raise (.missing id)
  | some cell => do
    let cell ← Op.lift (mutate cell)
    Op.modify (fun s => { s with cells := s.cells.set id cell })
    pure cell

/-- `claim_cell` and `reset_allocating`: a cell that is not in the right status is left as it is. -/
def attempt (id : String) (mutate : Document → Option Document) : Op MemoryExperiments CellError Bool := do
  match ← Op.gets (·.cells.get id) with
  | none => Op.raise (.missing id)
  | some cell =>
    match mutate cell with
    | none => pure false
    | some cell => do
      Op.modify (fun s => { s with cells := s.cells.set id cell })
      pure true

end MemoryExperiments

/-- A row of `experiment_cells`: the columns that are selected by, and the payload as it is read back. -/
structure CellRow where
  experimentId : String
  experimentVersion : String
  payload : Document

structure SqliteExperiments where
  specs : Table (String × String) Document := ∅
  cells : Table String CellRow := ∅

namespace SqliteExperiments

def listCells (experimentId : String) (version : Option String) (s : SqliteExperiments) : List Document :=
  ((s.cells.rows.map Prod.snd).filter fun row =>
    row.experimentId = experimentId ∧ ∀ v ∈ version, row.experimentVersion = v).map (·.payload)

/-- `_INSERT_CELL`; the columns are the experiment of the cell. -/
def insertCell (key : String × String) (cell : Document) : Op SqliteExperiments CellError Unit := do
  let taken ← Op.gets (fun s => (s.cells.get (cellId cell)).isSome)
  Op.lift (ensure (taken = false) (.integrity (cellId cell)))
  Op.modify (fun s => { s with cells := s.cells.set (cellId cell) ⟨key.1, key.2, cell.canon⟩ })

def insertCells (key : String × String) : List Document → Op SqliteExperiments CellError Unit
  | [] => pure ()
  | cell :: rest => do
    insertCell key cell
    insertCells key rest

def publishSpecAndCells (payload : Document) (cellPayloads : List Document) : Op SqliteExperiments CellError Document := do
  let (spec, cells) ← Op.lift (validatePublication payload cellPayloads)
  Op.atomically do
    match ← Op.gets (·.specs.get (specKey spec)) with
    | some existing => do
      let stored ← Op.gets (listCells (specKey spec).1 (some (specKey spec).2))
      Op.lift (checkExistingPublication existing stored spec cells)
      pure spec
    | none => do
      Op.modify (fun s => { s with specs := s.specs.set (specKey spec) spec.canon })
      insertCells (specKey spec) cells
      pure spec

def putSpec (payload : Document) : Op SqliteExperiments CellError Document := do
  let spec ← Op.lift (validateSpec payload)
  Op.atomically do
    match ← Op.gets (·.specs.get (specKey spec)) with
    | some existing => do
      Op.lift (ensure (existing.equals spec) .specsImmutable)
      pure existing
    | none => do
      Op.modify (fun s => { s with specs := s.specs.set (specKey spec) spec.canon })
      pure spec

def putCell (payload : Document) : Op SqliteExperiments CellError Document := do
  let cell ← Op.lift (validateCell payload)
  Op.atomically do
    match ← Op.gets (·.cells.get (cellId cell)) with
    | some existing => do
      Op.lift (ensure (existing.payload.equals cell) (.cellConflict (cellId cell)))
      pure existing.payload
    | none => do
      insertCell (cellKey cell) cell
      pure cell

/-- `_mutate_cell` -/
def mutateCell (id : String) (mutate : Document → Except CellError Document) :
    Op SqliteExperiments CellError Document :=
  Op.atomically do
    match ← Op.gets (·.cells.get id) with
    | none => Op.raise (.missing id)
    | some row => do
      let cell ← Op.lift (mutate row.payload)
      Op.modify (fun s => { s with cells := s.cells.set id { row with payload := cell.canon } })
      pure cell

/-- `claim_cell`, and `reset_allocating`, which catches its own `_NoTransition`. -/
def attempt (id : String) (mutate : Document → Option Document) : Op SqliteExperiments CellError Bool :=
  Op.atomically do
    match ← Op.gets (·.cells.get id) with
    | none => Op.raise (.missing id)
    | some row =>
      match mutate row.payload with
      | none => pure false
      | some cell => do
        Op.modify (fun s => { s with cells := s.cells.set id { row with payload := cell.canon } })
        pure true

end SqliteExperiments

/-! ### Requests -/

inductive CellRequest where
  | publish (spec : Document) (cells : List Document)
  | putSpec (spec : Document)
  | putCell (cell : Document)
  | claim (id : String)
  | complete (id run : String)
  | fail (id reason : String)
  | cancel (id : String)
  | cancelAllocated (id : String)
  | reset (id : String)
  | recordSuperseding (id run : String)
  | getSpec (experimentId version : String)
  | getCell (id : String)
  | listCells (experimentId : String) (version : Option String)

inductive CellReply where
  | document (d : Document)
  | found (d : Option Document)
  | flag (done : Bool)
  | documents (ds : List Document)

def MemoryExperiments.serve (dumps : Value → String) : CellRequest → Op MemoryExperiments CellError CellReply
  | .publish spec cells => do pure (.document (← publishSpecAndCells dumps spec cells))
  | .putSpec spec => do pure (.document (← putSpec spec))
  | .putCell cell => do pure (.document (← putCell cell))
  | .claim id => do pure (.flag (← attempt id claiming))
  | .complete id run => do pure (.document (← transition id (completing id run)))
  | .fail id reason => do pure (.document (← transition id (failing id reason)))
  | .cancel id => do pure (.document (← transition id (cancelling id)))
  | .cancelAllocated id => do pure (.document (← transition id (cancellingAllocated id)))
  | .reset id => do pure (.flag (← attempt id resetting))
  | .recordSuperseding id run => do pure (.document (← transition id (recording run)))
  | .getSpec experimentId version => do pure (.found (← Op.gets (·.specs.get (experimentId, version))))
  | .getCell id => do pure (.found (← Op.gets (·.cells.get id)))
  | .listCells experimentId version => do pure (.documents (← Op.gets (listCells dumps experimentId version)))

def SqliteExperiments.serve : CellRequest → Op SqliteExperiments CellError CellReply
  | .publish spec cells => do pure (.document (← publishSpecAndCells spec cells))
  | .putSpec spec => do pure (.document (← putSpec spec))
  | .putCell cell => do pure (.document (← putCell cell))
  | .claim id => do pure (.flag (← attempt id claiming))
  | .complete id run => do pure (.document (← mutateCell id (completing id run)))
  | .fail id reason => do pure (.document (← mutateCell id (failing id reason)))
  | .cancel id => do pure (.document (← mutateCell id (cancelling id)))
  | .cancelAllocated id => do pure (.document (← mutateCell id (cancellingAllocated id)))
  | .reset id => do pure (.flag (← attempt id resetting))
  | .recordSuperseding id run => do pure (.document (← mutateCell id (recording run)))
  | .getSpec experimentId version => do pure (.found (← Op.gets (·.specs.get (experimentId, version))))
  | .getCell id => do pure (.found ((← Op.gets (·.cells.get id)).map (·.payload)))
  | .listCells experimentId version => do pure (.documents (← Op.gets (listCells experimentId version)))

end Motte.Experiment
