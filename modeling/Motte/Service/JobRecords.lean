import Motte.Service.TrialPlan

/-! What becomes of the results of an external job.

A job covers all selected cases of a run in one go and returns a list of result
objects. In a run of planned trials each object is attributed to one trial of the
plan, or set aside with an error; the case rows are aggregates of the trials.
Other runs map each object to one case row. -/
namespace Motte.Service
open Foundation Storage

/-- A result that was set aside, with what it said about itself. -/
structure Unmapped where
  caseId : Json
  stableCaseKey : Json
  error : Json
deriving DecidableEq

/-- What one planned trial reported. -/
structure TrialRecord where
  trialId : String
  taskKey : String
  repeatIndex : Json
  status : Json
  error : Json
  payload : Json
deriving DecidableEq

/-- What becomes of one result object. -/
inductive Placement where
  | record (r : TrialRecord)
  | quarantine (row : Unmapped)
deriving DecidableEq

/-! ### Trials -/

def errorObject (code message : String) : Json := .obj [("code", .str code), ("message", .str message)]

/-- A list of field names, as it is printed. -/
def fieldList (fields : List String) : String :=
  "[" ++ ", ".intercalate (fields.map (fun field => "'" ++ field ++ "'")) ++ "]"

/-- `output` if it is an object. -/
def outputOf (item : Json) : Json := if (item.get "output").isObj then item.get "output" else .null

/-- A member of the payload as text, empty when the payload has nothing there. -/
def payloadText (w : Writing) (payload : Json) (key : String) : String :=
  if payload.truthy then w.text ((payload.get key).or (.str "")) else ""

/-- The fields of the payload that contradict the plan. -/
def mismatches (payload plan : Json) : List String :=
  ["task_key", "repeat_index"].filter (fun field =>
    payload.has field && !(payload.get field).equals (plan.get field))

/-- The trial a result object belongs to: its id, its task and its unit of the plan. -/
structure Attribution where
  trialId : String
  taskKey : String
  plan : Json

/-- A result that names its trial must agree with the plan. -/
def attributeNamed (index : Table String Json) (item payload : Json) (trialId taskKey : String) :
    Except Unmapped Attribution :=
  let aside (code message : String) : Unmapped :=
    ⟨(Json.str taskKey).or (item.get "case_id"), item.get "stable_case_key", errorObject code message⟩
  match index.get trialId with
  | none => throw (aside "EXTERNAL_TRIAL_FOREIGN" ("trial " ++ trialId ++ " does not belong to this run's frozen " ++
      "plan; the row is quarantined and never attributed"))
  | some plan =>
    if mismatches payload plan = [] then return ⟨trialId, taskKey, plan⟩
    else throw (aside "EXTERNAL_TRIAL_IDENTITY_MISMATCH" ("trial " ++ trialId ++
      " payload disagrees with the frozen plan on " ++ fieldList (mismatches payload plan)))

/-- A result that names no trial is found by its stable key or its case id. -/
def attributeByKey (w : Writing) (index : Table String Json) (item : Json) : Except Unmapped Attribution :=
  let found (key : String) : Option Json := index.get (w.text ((item.get key).or (.str "")))
  match (found "stable_case_key").or (found "case_id") with
  | none => throw ⟨item.get "case_id", item.get "stable_case_key",
      (item.get "error").or (errorObject "EXTERNAL_ROW_UNIDENTIFIED"
        ("runner row has neither a trial payload nor a frozen " ++
          "plan match; it is quarantined and never attributed"))⟩
  | some plan => return ⟨w.text (plan.get "trial_id"), w.text (plan.get "task_key"), plan⟩

def attributeResult (w : Writing) (index : Table String Json) (item : Json) : Except Unmapped Attribution :=
  let payload := outputOf item
  let trialId := payloadText w payload "trial_id"
  if trialId ≠ "" then attributeNamed index item payload trialId (payloadText w payload "task_key")
  else attributeByKey w index item

/-- `_synthesized_trial_result`: a result without payload still says where its trial stands. -/
def synthesizedTrialResult (w : Writing) (plan item : Json) : Json :=
  let status := w.text ((item.get "status").or (.str "failed"))
  let disposition := if status = "not_attempted" then "not_attempted" else "indeterminate"
  let payload : Json := .obj [
    ("coverage", .obj [
      ("items", .obj [("cost_usd", .str "unavailable"), ("model_identity", .str "unavailable"),
        ("trajectory", .str "unavailable")]),
      ("reason", .str "runner produced no trial payload for this planned unit")]),
    ("disposition", .str disposition),
    ("repeat_index", plan.get "repeat_index"),
    ("synthesized_by", .str "run-service:trial-disposition"),
    ("task_key", plan.get "task_key"),
    ("trial_id", plan.get "trial_id"),
    ("verifier_observation", .obj [("status", .str "missing_verifier_evidence")])]
  if (item.get "error").truthy then payload.put "error" (item.get "error") else payload

/-- The record of a result that was attributed. -/
def trialRecord (w : Writing) (item : Json) (a : Attribution) : TrialRecord :=
  let payload := outputOf item
  let repeatIndex := if payload.truthy then payload.get "repeat_index" else a.plan.get "repeat_index"
  { trialId := a.trialId
    taskKey := a.taskKey
    repeatIndex := if repeatIndex = .null then a.plan.get "repeat_index" else repeatIndex
    status := item.get "status"
    error := if (item.get "error").truthy then item.get "error" else .null
    payload := if payload.truthy then payload else synthesizedTrialResult w a.plan item }

/-- The body of the loop over the results, when `recorded` are the trials reported before. -/
def placeResult (w : Writing) (run : Run) (recorded : Table String TrialRecord) (item : Json) : Placement :=
  match attributeResult w (frozenPlanIndex run) item with
  | .error row => .quarantine row
  | .ok a =>
    if a.taskKey ∉ caseIds run then
      .quarantine ⟨.str a.taskKey, item.get "stable_case_key", item.get "error"⟩
    else if (recorded.get a.trialId).isSome then
      .quarantine ⟨.str a.taskKey, item.get "stable_case_key",
        errorObject "EXTERNAL_TRIAL_DUPLICATE" ("trial " ++ a.trialId ++ " was reported more than once")⟩
    else .record (trialRecord w item a)

/-- Trials recorded so far and results set aside so far. -/
structure Collected where
  byTrial : Table String TrialRecord
  unmapped : List Unmapped

def Collected.place (c : Collected) : Placement → Collected
  | .record r => {c with byTrial := c.byTrial.set r.trialId r}
  | .quarantine row => {c with unmapped := c.unmapped ++ [row]}

/-- The loop over the results; what is no object is skipped. -/
def collect (w : Writing) (run : Run) (c : Collected) : List Json → Collected
  | [] => c
  | item :: rest =>
    if item.isObj then collect w run (c.place (placeResult w run c.byTrial item)) rest
    else collect w run c rest

/-- The second part of the key by which trials are sorted. -/
def TrialRecord.order (r : TrialRecord) : Json := r.repeatIndex.or (.num 0)

/-- The order of two trials, which raises when their repeats are not comparable. -/
def TrialRecord.before? (a b : TrialRecord) : Option Bool :=
  if a.taskKey = b.taskKey then
    if a.order.equals b.order then some false else a.order.less? b.order
  else some (a.taskKey < b.taskKey)

/-- `sorted` by task and repeat. A sort compares neighbours, so two trials of one task
that cannot be compared make it raise. -/
def sortTrials (records : List TrialRecord) : Except Exn (List TrialRecord) := do
  ensure (records.Pairwise (fun a b => (a.before? b).isSome ∧ (b.before? a).isSome))
    (.type "'<' not supported between instances of the repeat indices")
  return records.mergeSort (fun a b => b.before? a ≠ some true)

/-! ### Case rows -/

def resultRow (runId caseId outcome : String) (result : Json) : CaseRow :=
  ⟨runId, caseId, ((∅ : Fields).insert "outcome" (.str outcome)).insert "result" result⟩

def notAttempted (runId caseId : String) : CaseRow := resultRow runId caseId "not_attempted" .null

/-- The trials of each task, selected tasks first. -/
def groupTrials (selected : List String) (records : List TrialRecord) : Table String (List TrialRecord) :=
  records.foldl (fun groups r => groups.set r.taskKey ((groups.get r.taskKey).getD [] ++ [r]))
    (selected.foldl (fun groups caseId => groups.set caseId []) ∅)

/-- How often each disposition occurs. -/
def dispositions (w : Writing) (records : List TrialRecord) : Json :=
  records.foldl (fun counts r =>
    let disposition := w.text ((r.payload.get "disposition").or (.str "unknown"))
    counts.put disposition (.num ((((counts.get disposition).number?).getD 0) + 1))) (.obj [])

/-- The row of one task: an aggregate of its trials, not one of them. -/
def taskRow (w : Writing) (runId caseId : String) (records : List TrialRecord) : CaseRow :=
  let observed := records.filter (fun r => r.payload.isObj ∧ r.payload.get "synthesized_by" = .null)
  if observed.isEmpty then notAttempted runId caseId
  else resultRow runId caseId "responded" (.obj [
    ("aggregate_only", .bool true),
    ("dispositions", dispositions w records),
    ("observed_trials", .num observed.length),
    ("planned_trials", .num records.length),
    ("task_key", .str caseId),
    ("unscored", .bool true)])

/-- A row for each selected case that has none yet. -/
def fillRows (runId : String) (selected : List String) (rows : Table String CaseRow) : Table String CaseRow :=
  selected.foldl (fun rows caseId =>
    if (rows.get caseId).isSome then rows else rows.set caseId (notAttempted runId caseId)) rows

/-- `_task_case_rows` -/
def taskCaseRows (w : Writing) (runId : String) (selected : List String) (records : List TrialRecord) :
    Table String CaseRow :=
  let rows := (groupTrials selected records).rows.foldl
    (fun rows group => rows.set group.1 (taskRow w runId group.1 group.2)) ∅
  fillRows runId selected rows

/-- The case a result of a run without trials belongs to. -/
def legacyCaseId (w : Writing) (item : Json) : Json :=
  let payload := outputOf item
  let named : Bool := match payload.get "task_key" with
    | .str _ => (payload.get "trial_id").truthy
    | _ => false
  if named then .str (w.text (payload.get "task_key")) else (item.get "case_id").or (item.get "source_case_id")

/-- The row a result of a run without trials becomes. -/
def legacyRow (runId caseId : String) (item : Json) : CaseRow :=
  let output := item.get "output"
  if item.get "status" = .str "failed" then
    resultRow runId caseId "call_failed" (.obj [("error", (item.get "error").or
      (errorObject "EXTERNAL_JOB_CASE_FAILED" "external job reported a failed case without error detail"))])
  else if item.get "status" = .str "not_attempted" then notAttempted runId caseId
  else if item.get "status" = .str "unscored" then
    resultRow runId caseId "responded" (if output.isObj then output.put "unscored" (.bool true)
      else .obj [("output", output), ("unscored", .bool true)])
  else resultRow runId caseId "responded" output

/-- Case rows so far and results set aside so far. -/
structure Mapped where
  rows : Table String CaseRow
  unmapped : List Unmapped

/-- The loop over the results of a run without trials. -/
def mapLegacy (w : Writing) (run : Run) (runId : String) (m : Mapped) : List Json → Mapped
  | [] => m
  | item :: rest =>
    if item.isObj then
      match legacyCaseId w item with
      | .str caseId =>
        if caseId = "" then mapLegacy w run runId m rest
        else if caseId ∉ caseIds run then
          mapLegacy w run runId {m with unmapped := m.unmapped ++
            [⟨.str caseId, item.get "stable_case_key", item.get "error"⟩]} rest
        else mapLegacy w run runId {m with rows := m.rows.set caseId (legacyRow runId caseId item)} rest
      | _ => mapLegacy w run runId m rest
    else mapLegacy w run runId m rest

/-- `_legacy_case_rows` -/
def legacyCaseRows (w : Writing) (runId : String) (run : Run) (outcome : Json) : Mapped :=
  let m := mapLegacy w run runId ⟨∅, []⟩ (outcome.get "results").items
  {m with rows := fillRows runId (caseIds run) m.rows}

/-- The trials, the case rows and the rest. -/
structure JobRecords where
  trials : List TrialRecord
  rows : Table String CaseRow
  unmapped : List Unmapped

/-- `_external_job_records` -/
def externalJobRecords (w : Writing) (runId : String) (run : Run) (outcome : Json) : Except Exn JobRecords :=
  if trialShaped run then do
    let c := collect w run ⟨∅, []⟩ (outcome.get "results").items
    let trials ← sortTrials (c.byTrial.rows.map (·.2))
    return ⟨trials, taskCaseRows w runId (caseIds run) trials, c.unmapped⟩
  else
    let m := legacyCaseRows w runId run outcome
    return ⟨[], m.rows, m.unmapped⟩

end Motte.Service
