import Mathlib.Data.Prod.Lex
import Mathlib.Data.String.Basic
import Motte.Foundation.Grouping
import Motte.Harbor.TrialResult

/-! Trial directories and the plan.

Each directory is matched to a task: by the frozen copy that it ran, by the path of the task,
by a base name that no other task has, or by the front of its own name. The directories of
a task are put in order and handed out to its planned trials; what is left over, and what
matches no task, is listed as unmapped. -/
namespace Motte.Harbor
open Foundation

/-! ### Paths -/

/-- A path with one kind of separator. -/
def slashes (text : String) : List Char := text.toList.map (fun c => if c = '\\' then '/' else c)

/-- The parts of a path that are not empty. -/
def components (path : List Char) : List String := ((path.splitOn '/').filter (· ≠ [])).map String.ofList

/-- The parts of a native path, none when it is no path. -/
def nativeParts : Value → List String
  | .str path => components (strip (String.ofList (slashes path))).toList
  | _ => []

/-- `_is_path_suffix` -/
def isPathSuffix (native : List String) (relative : String) : Bool :=
  let rel := components (slashes relative)
  !rel.isEmpty && decide (rel.length ≤ native.length) && native.drop (native.length - rel.length) = rel

/-- `relative.rstrip("/").split("/")[-1]` -/
def basename (relative : String) : String :=
  String.ofList ((relative.toList.reverse.dropWhile (· = '/')).takeWhile (· ≠ '/')).reverse

/-- `name.split("__", 1)[0]` -/
def headOf : List Char → List Char
  | '_' :: '_' :: _ => []
  | c :: rest => c :: headOf rest
  | [] => []

/-- The directory of a trial that a path is within. -/
def directoryOf (rel : String) : Option String :=
  let start := "harbor/trials/".toList
  if start.isPrefixOf rel.toList then
    let rest := rel.toList.drop start.length
    if '/' ∈ rest then some (String.ofList (rest.takeWhile (· ≠ '/'))) else none
  else none

/-- `trial_directories` -/
def trialDirectories (files : Files) : List String :=
  ((files.rows.map Prod.fst).filterMap directoryOf).dedup.insertionSort (· ≤ ·)

/-! ### Tasks -/

/-- What the frozen documents say of the tasks. -/
structure TaskIndex where
  display : Table String String
  frozen : Table String String

/-- `for item in value or []` -/
def iterated (value : Value) : Except Raised (List Value) :=
  if !value.truthy then .ok []
  else match value with
    | .arr items => .ok items
    | .obj members => .ok (members.map (fun member => .str member.1))
    | .str text => .ok (text.toList.map (fun c => .str (String.ofList [c])))
    | _ => .error ⟨"TypeError"⟩

/-- The tasks of the plan document, with their relative paths. -/
def displayByKey (r : Reading) (payload : List (String × Value)) : Except Raised (Table String String) := do
  (← iterated (at? payload "tasks")).foldlM (fun table task =>
    match task with
    | .obj members =>
      if (at? members "task_key").truthy then
        match members.lookup "normalized_relative_path" with
        | none => .error ⟨"KeyError"⟩
        | some relative => .ok (table.set (r.text (at? members "task_key")) (r.text relative))
      else .ok table
    | _ => .ok table) ∅

/-- The directories of the frozen copies, with their tasks. -/
def keyByFrozenDir (r : Reading) (manifest : List (String × Value)) : Except Raised (Table String String) :=
  let tasks := at? manifest "tasks"
  if !tasks.truthy then .ok ∅
  else match tasks with
    | .obj entries => .ok (entries.foldl (fun table entry =>
        match entry.2 with
        | .obj members =>
          if (at? members "directory").truthy then table.set (r.text (at? members "directory")) entry.1 else table
        | _ => table) ∅)
    | _ => .error ⟨"AttributeError"⟩

def taskIndex (r : Reading) (files : Files) : Except Raised TaskIndex := do
  let display ← displayByKey r (← loadMapping r (files.get "harbor/plan.json") "plan.json")
  let frozen ← keyByFrozenDir r (← loadMapping r (files.get "frozen-tasks/manifest.json") "frozen-tasks/manifest.json")
  return { display, frozen }

namespace TaskIndex
variable (ix : TaskIndex)

/-- `basenames.get(name, [])` -/
def named (name : String) : List String := (ix.display.rows.filter (fun row => basename row.2 = name)).map Prod.fst

/-- `_match_native_path` -/
def matchNativePath (parts : List String) : Option (String × String) :=
  match parts.getLast? with
  | none => none
  | some last =>
    match ix.frozen.get last with
    | some key => some (key, "frozen_dir")
    | none =>
      match ix.display.rows.filter (fun row => isPathSuffix parts row.2) with
      | [row] => some (row.1, "path")
      | _ => none

/-- `_match_frozen_head` -/
def matchFrozenHead (head : String) : Option String :=
  match ix.frozen.rows.filter (fun row => startsWith row.1 head || startsWith head (String.ofList (row.1.toList.take 32))) with
  | [row] => some row.2
  | _ => none

end TaskIndex

inductive TrialMatch where
  | task (key method : String)
  | ambiguous (head : String) (candidates : List String)
  | unmapped
deriving DecidableEq

/-- The task of a trial directory. -/
def trialMatch (ix : TaskIndex) (native : Value) (directory : String) : TrialMatch :=
  match ix.matchNativePath (nativeParts native) with
  | some (key, method) => .task key method
  | none =>
    match ix.named ((nativeParts native).getLast?.getD "") with
    | [key] => .task key "basename"
    | _ =>
      let head := String.ofList (headOf directory.toList)
      match ix.matchFrozenHead head with
      | some key => .task key "frozen_dir"
      | none =>
        match ix.named head with
        | [] => .unmapped
        | [key] => .task key "trial_name"
        | candidates => .ambiguous head candidates

/-! ### Handing out -/

structure Unmapped where
  sourceTrialId : String
  directory : String
  code : String
  message : String
  candidates : List String
  nativeTaskPath : Value
  taskKey : Option String

/-- The path of the task, as the result of the trial has it. -/
def nativePath (payload : List (String × Value)) : Value := (members? (at? payload "task_id")).elim .null (fun task => at? task "path")

/-- A directory goes to a task, or to what is unmapped. -/
def placeDirectory (r : Reading) (ix : TaskIndex) (directory : String) (payload : List (String × Value)) :
    (String × Observed) ⊕ Unmapped :=
  let native := nativePath payload
  match trialMatch ix native directory with
  | .task key method =>
    .inl (key, { directory, payload, startedAt := at? payload "started_at"
                 matching := { method, nativePath := native, normalizedRelativePath := ix.display.get key } })
  | .ambiguous head candidates =>
    .inr { sourceTrialId := sourceTrialId r payload directory, directory, code := "HARBOR_TASK_NAME_AMBIGUOUS"
           message :=
            s!"task basename {r.repr (.str head)} matches {candidates.length} planned tasks and " ++
            s!"the native task path {r.repr native} does not identify one; " ++ "refusing to merge identities by name"
           candidates := candidates.insertionSort (· ≤ ·), nativeTaskPath := .null, taskKey := none }
  | .unmapped =>
    .inr { sourceTrialId := sourceTrialId r payload directory, directory, code := "HARBOR_TRIAL_UNMAPPED"
           message := "trial directory does not match any planned task", candidates := [], nativeTaskPath := native
           taskKey := none }

/-- A directory that no planned trial of its task is left for. -/
def unplanned (r : Reading) (key : String) (extra : Observed) : Unmapped :=
  { sourceTrialId := sourceTrialId r extra.payload extra.directory, directory := extra.directory
    code := "HARBOR_TRIAL_UNPLANNED"
    message := "harbor produced more trials for this task than the frozen plan; " ++
      "the extra trial is kept as audit evidence and not scored"
    candidates := [], nativeTaskPath := .null, taskKey := some key }

/-- By the time of the start, then by the directory. -/
def observedKey (r : Reading) (item : Observed) : Lex (String × String) :=
  toLex (if item.startedAt.truthy then r.text item.startedAt else "~", item.directory)

/-- The planned trials of a task with the directories that are handed to them. -/
def handOut : List Plan → List Observed → List (Plan × Option Observed) × List Observed
  | [], items => ([], items)
  | plan :: plans, [] => ((plan, none) :: (handOut plans []).1, [])
  | plan :: plans, item :: items => ((plan, some item) :: (handOut plans items).1, (handOut plans items).2)

structure Report where
  parserVersion : String
  harborVersion : String
  trialCount : ℕ
  plannedTrialCount : ℕ
  sourceTrialCount : ℕ
  results : List TrialResult
  unmapped : List Unmapped
  suffixes : List (String × String)

def parserVersion : String := "harbor-terminal-bench-parser@1"

def harborVersion : String := "0.23.0"

/-- The trials of one task: what each plan is handed, and what is left over. -/
def taskTrials (r : Reading) (assigned : List (String × Observed)) (key : String) (plans : List Plan) :
    List (Plan × Option Observed) × List Observed :=
  handOut (plans.insertionSort (fun a b => a.repeatIndex ≤ b.repeatIndex))
    (((ofKey Prod.fst assigned key).map Prod.snd).insertionSort (fun a b => observedKey r a ≤ observedKey r b))

/-- `parse_harbor_files` -/
def parseHarborFiles (r : Reading) (files : Files) (plans : List Plan) (cancelled : Bool) : Except Raised Report := do
  let ix ← taskIndex r files
  let directories := trialDirectories files
  let placed ← directories.mapM (fun directory => do
    return placeDirectory r ix directory (← loadMapping r (files.get (trialPath directory "result.json")) "result.json"))
  let assigned := placed.filterMap Sum.getLeft?
  let tasks := (groupBy Plan.taskKey plans).rows.map (fun task => (task.1, taskTrials r assigned task.1 task.2))
  let results ← (tasks.flatMap (fun task => task.2.1)).mapM (fun row => trialResult r files row.1 row.2 parserVersion cancelled)
  return {
    parserVersion, harborVersion, trialCount := results.length, plannedTrialCount := plans.length
    sourceTrialCount := directories.length, results
    unmapped := placed.filterMap Sum.getRight? ++ tasks.flatMap (fun task => task.2.2.map (unplanned r task.1))
    suffixes := assigned.map (fun row => (row.2.directory, sourceTrialId r row.2.payload row.2.directory)) }

end Motte.Harbor
