import Motte.Foundation.Returning
import Motte.Harbor.Account

/-! When a parse gives its results.

Documents that are half written, that are no JSON or that have another type where a mapping
is asked for are read as nothing. But a document that the JSON reader gives up on, a table
of tasks of another shape, a number that is no float and two times that cannot be subtracted
each end the whole parse. -/
namespace Motte.Harbor
open Foundation

section
variable (r : Reading) (files : Files)

/-! ### What is expected of the documents -/

/-- The JSON reader gives a value or says what is wrong. -/
def Loadable (data : Option Bytes) : Prop :=
  ∀ bytes text name, data = some bytes → r.decode bytes = some text → r.loads text ≠ .error (.raised name)

/-- The JSON that a file holds. -/
def jsonOf (data : Option Bytes) : Option Value := (data.bind r.decode).bind (fun text => (r.loads text).toOption)

/-- The members of the mapping that a file holds. -/
def membersOf (data : Option Bytes) : List (String × Value) := ((jsonOf r data).bind members?).getD []

/-- The result document of a directory. -/
def resultOf (directory : String) : List (String × Value) := membersOf r (trialFile files directory "result.json")

/-- The table of tasks can be gone through, and each task that has a key has a path. -/
structure PlanReadable (payload : List (String × Value)) : Prop where
  iterable : (at? payload "tasks").truthy = true →
    (∃ items, at? payload "tasks" = .arr items) ∨ (∃ entries, at? payload "tasks" = .obj entries) ∨
      ∃ text, at? payload "tasks" = .str text
  paths : ∀ items, at? payload "tasks" = .arr items → ∀ members, .obj members ∈ items →
    (at? members "task_key").truthy = true → (members.lookup "normalized_relative_path").isSome

/-- The tasks of the manifest are a mapping, unless they are nothing. -/
def ManifestReadable (payload : List (String × Value)) : Prop :=
  (at? payload "tasks").truthy = true → ∃ entries, at? payload "tasks" = .obj entries

/-- A whole number is not too large for a float. -/
def FitsFloat : Value → Prop
  | .int n => ∃ x, Number.binary64 n = .finite x
  | _ => True

/-- The value is read as a reward, and the ones after it are looked at. -/
def CountsAsReward : Value → Prop
  | .int _ => True
  | .float bits => isFinite (.ofBits bits) = true
  | _ => False

/-- The numbers fit, up to the first value that is no reward. -/
def RewardsFit : List (String × Value) → Prop
  | [] => True
  | (_, value) :: rest => FitsFloat value ∧ (CountsAsReward value → RewardsFit rest)

/-- Two times are subtracted, if both are texts. -/
def Subtractable (start finish : Value) : Prop :=
  ∀ s f, start = .str s → finish = .str f → Returns (r.duration s f)

def timedPhases : List String := ["environment_setup", "agent_setup", "agent_execution", "verifier"]

/-- What is read of a trial that a plan is handed. -/
structure TrialReadable (directory : String) : Prop where
  summary : ∀ members, rewardsSummary (resultOf r files directory) = some (.obj members) → RewardsFit members
  rewardFile : Loadable r (trialFile files directory "verifier/reward.json")
  rewards : ∀ members, jsonOf r (trialFile files directory "verifier/reward.json") = some (.obj members) → RewardsFit members
  artifacts : Loadable r (trialFile files directory "artifacts/manifest.json")
  phases : ∀ phase ∈ timedPhases, ∀ entry, at? (resultOf r files directory) phase = .obj entry →
    Subtractable r (at? entry "started_at") (at? entry "finished_at")
  total : Subtractable r (at? (resultOf r files directory) "started_at") (at? (resultOf r files directory) "finished_at")
  cost : ∀ agent, at? (resultOf r files directory) "agent_result" = .obj agent → FitsFloat (at? agent "cost_usd")

/-- The task that a directory is matched to. -/
def taskOf (ix : TaskIndex) (directory : String) : Option String :=
  match trialMatch ix (nativePath (resultOf r files directory)) directory with
  | .task key _ => some key
  | _ => none

/-- By the start of the trial, then by the directory. -/
def startKey (directory : String) : Lex (String × String) :=
  let startedAt := at? (resultOf r files directory) "started_at"
  toLex (if startedAt.truthy then r.text startedAt else "~", directory)

/-- The directory is matched to a task, and fewer directories of it come before than it has plans. -/
def Handed (plans : List Plan) (ix : TaskIndex) (directory : String) : Prop :=
  directory ∈ trialDirectories files ∧ ∃ key, taskOf r files ix directory = some key ∧
    ((trialDirectories files).filter (fun other =>
      taskOf r files ix other = some key ∧ startKey r files other < startKey r files directory)).length <
      (plans.filter (fun plan => plan.taskKey = key)).length

/-- Every document has a shape that the parser expects. -/
structure Readable (plans : List Plan) : Prop where
  plan : Loadable r (files.get "harbor/plan.json")
  planTasks : PlanReadable (membersOf r (files.get "harbor/plan.json"))
  manifest : Loadable r (files.get "frozen-tasks/manifest.json")
  manifestTasks : ManifestReadable (membersOf r (files.get "frozen-tasks/manifest.json"))
  results : ∀ directory ∈ trialDirectories files, Loadable r (trialFile files directory "result.json")
  trials : ∀ ix, taskIndex r files = .ok ix → ∀ directory, Handed r files plans ix directory → TrialReadable r files directory

end

section
variable {r : Reading} {files : Files} {plans : List Plan} {ix : TaskIndex} {label : String}

/-! ### Documents -/

theorem loadable_none : Loadable r none := fun _ _ _ h => nomatch h

theorem returns_loadJson {bytes : Bytes} : Returns (loadJson r bytes label) ↔ Loadable r (some bytes) := by
  unfold loadJson Loadable
  cases hdecode : r.decode bytes with
  | none =>
    refine ⟨fun _ b text name hb htext => ?_, fun _ => returns_ok _⟩
    cases hb
    rw [hdecode] at htext
    cases htext
  | some text =>
    simp only
    cases hloads : r.loads text with
    | ok payload =>
      refine ⟨fun _ b text' name hb htext => ?_, fun _ => returns_ok _⟩
      cases hb
      cases hdecode.symm.trans htext
      rw [hloads]
      nofun
    | error failure =>
      cases failure with
      | decode msg pos =>
        refine ⟨fun _ b text' name hb htext => ?_, fun _ => returns_ok _⟩
        cases hb
        cases hdecode.symm.trans htext
        rw [hloads]
        nofun
      | raised name => exact ⟨fun h => absurd h (not_returns_error _), fun h => absurd hloads (h bytes text name rfl hdecode)⟩

/-- What is loaded is the JSON of the file. -/
theorem loadJson_json {bytes : Bytes} {y : Except Fault Value} (h : loadJson r bytes label = .ok y) :
    y.toOption = jsonOf r (some bytes) := by
  unfold loadJson at h
  unfold jsonOf
  rw [Option.bind_some]
  cases hdecode : r.decode bytes with
  | none =>
    rw [hdecode] at h
    cases h
    rfl
  | some text =>
    rw [hdecode] at h
    simp only at h
    rw [Option.bind_some]
    cases hloads : r.loads text with
    | ok payload =>
      rw [hloads] at h
      cases h
      rfl
    | error failure =>
      rw [hloads] at h
      cases failure with
      | decode msg pos =>
        cases h
        rfl
      | raised name => cases h

theorem loadMapping_eq {data : Option Bytes} (h : Loadable r data) : loadMapping r data label = .ok (membersOf r data) := by
  cases data with
  | none => rfl
  | some bytes =>
    obtain ⟨y, hy⟩ := (@returns_loadJson r label bytes).2 h
    have hjson := loadJson_json hy
    unfold loadMapping membersOf
    simp only [hy]
    rw [← hjson]
    cases y with
    | error fault => rfl
    | ok payload => cases payload <;> rfl

theorem returns_loadMapping {data : Option Bytes} : Returns (loadMapping r data label) ↔ Loadable r data := by
  refine ⟨fun h => ?_, fun h => ⟨_, loadMapping_eq h⟩⟩
  cases data with
  | none => exact loadable_none
  | some bytes =>
    refine (@returns_loadJson r label bytes).1 ?_
    obtain ⟨members, h⟩ := h
    unfold loadMapping at h
    simp only at h
    cases hload : loadJson r bytes label with
    | ok y => exact returns_ok y
    | error e =>
      rw [hload] at h
      cases h

/-! ### Tasks -/

theorem iterated_falsy {v : Value} (h : ¬v.truthy = true) : iterated v = .ok [] := by
  unfold iterated
  rw [if_pos (by simp [h])]

theorem returns_iterated {v : Value} : Returns (iterated v) ↔
    (v.truthy = true → (∃ items, v = .arr items) ∨ (∃ entries, v = .obj entries) ∨ ∃ text, v = .str text) := by
  by_cases htruthy : v.truthy = true
  · unfold iterated
    rw [if_neg (by simp [htruthy])]
    cases v with
    | arr items => exact ⟨fun _ _ => .inl ⟨items, rfl⟩, fun _ => returns_ok _⟩
    | obj entries => exact ⟨fun _ _ => .inr (.inl ⟨entries, rfl⟩), fun _ => returns_ok _⟩
    | str text => exact ⟨fun _ _ => .inr (.inr ⟨text, rfl⟩), fun _ => returns_ok _⟩
    | _ =>
      refine ⟨fun h => absurd h (not_returns_error _), fun h => ?_⟩
      rcases h htruthy with ⟨_, h⟩ | ⟨_, h⟩ | ⟨_, h⟩ <;> cases h
  · rw [iterated_falsy htruthy]
    exact ⟨fun _ h => absurd h htruthy, fun _ => returns_ok _⟩

/-- The mappings that a loop meets are those of a list. -/
theorem iterated_objects {v : Value} {items : List Value} (h : iterated v = .ok items) {members : List (String × Value)} :
    .obj members ∈ items ↔ ∃ listed, v = .arr listed ∧ .obj members ∈ listed := by
  have texts {α : Type} (f : α → String) (xs : List α) : .obj members ∉ xs.map (fun x => Value.str (f x)) := by
    intro hmem
    obtain ⟨x, _, hx⟩ := List.mem_map.1 hmem
    cases hx
  cases v with
  | arr listed =>
    cases listed with
    | nil =>
      cases h
      exact ⟨fun hmem => (by cases hmem), fun ⟨_, hlisted, hmem⟩ => by cases hlisted; cases hmem⟩
    | cons first rest =>
      cases h
      exact ⟨fun hmem => ⟨_, rfl, hmem⟩, fun ⟨_, hlisted, hmem⟩ => by cases hlisted; exact hmem⟩
  | obj entries =>
    refine ⟨fun hmem => ?_, fun ⟨_, hlisted, _⟩ => by cases hlisted⟩
    cases entries with
    | nil =>
      cases h
      cases hmem
    | cons first rest =>
      cases h
      exact absurd hmem (texts _ _)
  | str text =>
    refine ⟨fun hmem => ?_, fun ⟨_, hlisted, _⟩ => by cases hlisted⟩
    by_cases htruthy : (Value.str text).truthy = true
    · unfold iterated at h
      rw [if_neg (by simp [htruthy])] at h
      cases h
      exact absurd hmem (texts _ _)
    · rw [iterated_falsy htruthy] at h
      cases h
      cases hmem
  | _ =>
    refine ⟨fun hmem => ?_, fun ⟨_, hlisted, _⟩ => by cases hlisted⟩
    unfold iterated at h
    split at h <;> cases h
    cases hmem

/-- A task of the plan document that has a key has a path. -/
def HasPath (task : Value) : Prop :=
  ∀ members, task = .obj members → (at? members "task_key").truthy = true → (members.lookup "normalized_relative_path").isSome

theorem returns_displayTasks (items : List Value) :
    Returns (items.foldlM (fun (table : Table String String) task =>
      match task with
      | .obj members =>
        if (at? members "task_key").truthy then
          match members.lookup "normalized_relative_path" with
          | none => .error (⟨"KeyError"⟩ : Raised)
          | some relative => .ok (table.set (r.text (at? members "task_key")) (r.text relative))
        else .ok table
      | _ => .ok table) ∅) ↔ ∀ task ∈ items, HasPath task := by
  refine returns_foldlM (fun table task => ?_) items ∅
  cases task with
  | obj members =>
    simp only [HasPath, Value.obj.injEq, forall_eq']
    by_cases hkey : (at? members "task_key").truthy = true
    · rw [if_pos hkey]
      cases hpath : members.lookup "normalized_relative_path" with
      | none => exact ⟨fun h => absurd h (not_returns_error _), fun h => by cases h hkey⟩
      | some relative => exact ⟨fun _ _ => rfl, fun _ => returns_ok _⟩
    · rw [if_neg hkey]
      exact ⟨fun _ h => absurd h hkey, fun _ => returns_ok _⟩
  | _ => exact ⟨fun _ _ h => (by cases h), fun _ => returns_ok _⟩

theorem returns_displayByKey {payload : List (String × Value)} : Returns (displayByKey r payload) ↔ PlanReadable payload := by
  have each (items : List Value) : (∀ task ∈ items, HasPath task) ↔ ∀ members, .obj members ∈ items →
      (at? members "task_key").truthy = true → (members.lookup "normalized_relative_path").isSome :=
    ⟨fun h members hmem => h _ hmem members rfl, fun h task htask members hobj => h members (hobj ▸ htask)⟩
  unfold displayByKey
  constructor
  · intro h
    obtain ⟨items, hitems, h⟩ := returns_bind.1 h
    have paths := (each items).1 ((returns_displayTasks items).1 h)
    exact ⟨returns_iterated.1 ⟨items, hitems⟩, fun listed hlisted members hmem =>
      paths members ((iterated_objects hitems).2 ⟨listed, hlisted, hmem⟩)⟩
  · intro h
    obtain ⟨items, hitems⟩ := returns_iterated.2 h.iterable
    refine returns_bind.2 ⟨items, hitems, (returns_displayTasks items).2 ((each items).2 fun members hmem => ?_)⟩
    obtain ⟨listed, hlisted, hmem⟩ := (iterated_objects hitems).1 hmem
    exact h.paths listed hlisted members hmem

theorem returns_keyByFrozenDir {manifest : List (String × Value)} :
    Returns (keyByFrozenDir r manifest) ↔ ManifestReadable manifest := by
  unfold keyByFrozenDir ManifestReadable
  simp only
  by_cases htruthy : (at? manifest "tasks").truthy = true
  · rw [htruthy]
    cases at? manifest "tasks" with
    | obj entries => exact ⟨fun _ _ => ⟨entries, rfl⟩, fun _ => returns_ok _⟩
    | _ =>
      refine ⟨fun h => absurd h (not_returns_error _), fun h => ?_⟩
      obtain ⟨_, h⟩ := h rfl
      cases h
  · rw [Bool.eq_false_iff.2 htruthy]
    exact ⟨fun _ h => (by cases h), fun _ => returns_ok _⟩

/-- The index of the tasks is read from the two frozen documents. -/
theorem returns_taskIndex : Returns (taskIndex r files) ↔
    Loadable r (files.get "harbor/plan.json") ∧ PlanReadable (membersOf r (files.get "harbor/plan.json")) ∧
    Loadable r (files.get "frozen-tasks/manifest.json") ∧ ManifestReadable (membersOf r (files.get "frozen-tasks/manifest.json")) := by
  unfold taskIndex
  constructor
  · intro h
    obtain ⟨plan, hplan, h⟩ := returns_bind.1 h
    have loads := returns_loadMapping.1 ⟨plan, hplan⟩
    cases (loadMapping_eq loads).symm.trans hplan
    obtain ⟨display, hdisplay, h⟩ := returns_bind.1 h
    obtain ⟨manifest, hmanifest, h⟩ := returns_bind.1 h
    have loads' := returns_loadMapping.1 ⟨manifest, hmanifest⟩
    cases (loadMapping_eq loads').symm.trans hmanifest
    obtain ⟨frozen, hfrozen, _⟩ := returns_bind.1 h
    exact ⟨loads, returns_displayByKey.1 ⟨display, hdisplay⟩, loads', returns_keyByFrozenDir.1 ⟨frozen, hfrozen⟩⟩
  · rintro ⟨loads, hplan, loads', hmanifest⟩
    obtain ⟨display, hdisplay⟩ := (returns_displayByKey (r := r)).2 hplan
    obtain ⟨frozen, hfrozen⟩ := (returns_keyByFrozenDir (r := r)).2 hmanifest
    rw [loadMapping_eq loads, loadMapping_eq loads']
    refine returns_bind.2 ⟨_, rfl, returns_bind.2 ⟨display, hdisplay, returns_bind.2 ⟨_, rfl, returns_bind.2 ⟨frozen, hfrozen, ?_⟩⟩⟩⟩
    exact returns_pure _

/-! ### Rewards -/

theorem returns_rewardOf {key : String} {v : Value} : Returns (rewardOf r label key v) ↔ FitsFloat v := by
  cases v with
  | int n =>
    simp only [rewardOf, FitsFloat]
    cases hn : Number.binary64 n with
    | finite x => exact ⟨fun _ => ⟨x, rfl⟩, fun _ => returns_ok _⟩
    | _ => exact ⟨fun h => absurd h (not_returns_error _), fun h => by obtain ⟨_, h⟩ := h; cases h⟩
  | float bits =>
    unfold rewardOf
    simp only
    split <;> exact ⟨fun _ => trivial, fun _ => returns_ok _⟩
  | _ => exact ⟨fun _ => trivial, fun _ => returns_ok _⟩

/-- A reward is given for a value that counts as one, and a fault for any other. -/
theorem rewardOf_counts {key : String} {v : Value} {y : Except Fault Number} (h : rewardOf r label key v = .ok y) :
    (∃ x, y = .ok x) ↔ CountsAsReward v := by
  cases v with
  | int n =>
    unfold rewardOf at h
    simp only at h
    cases hn : Number.binary64 n with
    | finite x =>
      rw [hn] at h
      cases h
      exact ⟨fun _ => trivial, fun _ => ⟨_, rfl⟩⟩
    | infinite negative =>
      rw [hn] at h
      cases h
    | nan =>
      rw [hn] at h
      cases h
  | float bits =>
    unfold rewardOf at h
    simp only at h
    split at h
    · rename_i hfinite
      cases h
      exact ⟨fun _ => hfinite, fun _ => ⟨_, rfl⟩⟩
    · rename_i hfinite
      cases h
      exact ⟨fun ⟨_, h⟩ => (by cases h), fun h => absurd h hfinite⟩
  | _ =>
    cases h
    exact ⟨fun ⟨_, h⟩ => (by cases h), fun h => h.elim⟩

theorem returns_rewardsOf {members : List (String × Value)} : Returns (rewardsOf r label members) ↔ RewardsFit members := by
  induction members with
  | nil => exact ⟨fun _ => trivial, fun _ => returns_ok _⟩
  | cons member members ih =>
    obtain ⟨key, value⟩ := member
    have first : Returns (rewardOf r label key value) ↔ FitsFloat value := returns_rewardOf
    rw [rewardsOf, RewardsFit]
    cases hreward : rewardOf r label key value with
    | error e =>
      refine ⟨fun h => absurd h (not_returns_error _), fun h => ?_⟩
      obtain ⟨_, h⟩ := first.2 h.1
      rw [hreward] at h
      cases h
    | ok y =>
      have fits := first.1 ⟨y, hreward⟩
      have counts := rewardOf_counts hreward
      cases y with
      | error fault =>
        refine ⟨fun _ => ⟨fits, fun h => ?_⟩, fun _ => returns_ok _⟩
        obtain ⟨_, h⟩ := counts.2 h
        cases h
      | ok x =>
        have counted := counts.1 ⟨x, rfl⟩
        simp only
        cases hrest : rewardsOf r label members with
        | error e =>
          rw [hrest] at ih
          exact ⟨fun h => absurd h (not_returns_error _), fun h => absurd (ih.2 (h.2 counted)) (not_returns_error _)⟩
        | ok y =>
          have rest := ih.1 ⟨y, hrest⟩
          refine ⟨fun _ => ⟨fits, fun _ => rest⟩, fun _ => ?_⟩
          cases y <;> exact returns_ok _

theorem returns_rewardFromPayload {payload : Value} :
    Returns (rewardFromPayload r payload label) ↔ ∀ members, payload = .obj members → RewardsFit members := by
  cases payload with
  | obj members =>
    simp only [Value.obj.injEq, forall_eq']
    cases members with
    | nil => exact ⟨fun _ => trivial, fun _ => returns_ok _⟩
    | cons member members =>
      rw [← @returns_rewardsOf r label]
      unfold rewardFromPayload
      simp only
      cases rewardsOf r label (member :: members) with
      | error e => exact ⟨fun h => absurd h (not_returns_error _), fun h => absurd h (not_returns_error _)⟩
      | ok y => cases y <;> exact ⟨fun _ => returns_ok _, fun _ => returns_ok _⟩
  | _ => exact ⟨fun _ _ h => (by cases h), fun _ => returns_ok _⟩

theorem returns_rewardFromJson {bytes : Bytes} : Returns (rewardFromJson r bytes label) ↔
    Loadable r (some bytes) ∧ ∀ members, jsonOf r (some bytes) = some (.obj members) → RewardsFit members := by
  rw [← @returns_loadJson r label bytes]
  unfold rewardFromJson
  cases hload : loadJson r bytes label with
  | error e => exact ⟨fun h => absurd h (not_returns_error _), fun h => absurd h.1 (not_returns_error _)⟩
  | ok y =>
    rw [← loadJson_json hload]
    cases y with
    | error fault => exact ⟨fun _ => ⟨returns_ok _, fun _ h => (by cases h)⟩, fun _ => returns_ok _⟩
    | ok payload =>
      refine returns_rewardFromPayload.trans ⟨fun h => ⟨returns_ok _, fun members hsome => h members (Option.some.inj hsome)⟩,
        fun h members hobj => h.2 members (congrArg some hobj)⟩

theorem returns_jsonReading {directory : String} : Returns (jsonReading r files directory) ↔
    Loadable r (trialFile files directory "verifier/reward.json") ∧
      ∀ members, jsonOf r (trialFile files directory "verifier/reward.json") = some (.obj members) → RewardsFit members := by
  unfold jsonReading
  cases trialFile files directory "verifier/reward.json" with
  | none => exact ⟨fun _ => ⟨loadable_none, fun _ h => (by cases h)⟩, fun _ => returns_ok _⟩
  | some bytes =>
    rw [← @returns_rewardFromJson r "verifier/reward.json"]
    simp only
    cases rewardFromJson r bytes "verifier/reward.json" with
    | error e => exact ⟨fun h => absurd h (not_returns_error _), fun h => absurd h (not_returns_error _)⟩
    | ok reading => exact ⟨fun _ => returns_ok _, fun _ => returns_ok _⟩

theorem returns_summaryReading {payload : List (String × Value)} : Returns (summaryReading r payload) ↔
    ∀ members, rewardsSummary payload = some (.obj members) → RewardsFit members := by
  unfold summaryReading
  cases rewardsSummary payload with
  | none => exact ⟨fun _ _ h => (by cases h), fun _ => returns_ok _⟩
  | some v =>
    cases v with
    | obj members =>
      simp only [Option.some.injEq, Value.obj.injEq, forall_eq']
      have payload : Returns (rewardFromPayload r (.obj members) "result.json#verifier_result.rewards") ↔ RewardsFit members := by
        rw [returns_rewardFromPayload]
        exact ⟨fun h => h members rfl, fun h _ hsame => by cases hsame; exact h⟩
      rw [← payload]
      cases rewardFromPayload r (.obj members) "result.json#verifier_result.rewards" with
      | error e => exact ⟨fun h => absurd h (not_returns_error _), fun h => absurd h (not_returns_error _)⟩
      | ok reading => exact ⟨fun _ => returns_ok _, fun _ => returns_ok _⟩
    | _ => exact ⟨fun _ _ h => (by cases h), fun _ => returns_ok _⟩

theorem resultDocument_payload {directory : String} (h : Loadable r (trialFile files directory "result.json")) :
    ∃ error, resultDocument r files directory = .ok ⟨resultOf r files directory, error⟩ := by
  unfold resultDocument resultOf
  revert h
  cases trialFile files directory "result.json" with
  | none => exact fun _ => ⟨none, rfl⟩
  | some bytes =>
    intro h
    obtain ⟨y, hy⟩ := (@returns_loadJson r "result.json" bytes).2 h
    simp only [hy]
    unfold membersOf
    rw [← loadJson_json hy]
    cases y with
    | error fault => exact ⟨some fault, rfl⟩
    | ok payload => cases payload <;> exact ⟨none, rfl⟩

theorem returns_observation {directory : String} (h : Loadable r (trialFile files directory "result.json")) :
    Returns (readVerifierObservation r files directory) ↔
      (∀ members, rewardsSummary (resultOf r files directory) = some (.obj members) → RewardsFit members) ∧
      Loadable r (trialFile files directory "verifier/reward.json") ∧
      ∀ members, jsonOf r (trialFile files directory "verifier/reward.json") = some (.obj members) → RewardsFit members := by
  obtain ⟨error, hresult⟩ := resultDocument_payload h
  rw [← returns_summaryReading (r := r), ← returns_jsonReading]
  unfold readVerifierObservation readSources
  rw [returns_map, hresult]
  change Returns (summaryReading r (resultOf r files directory) >>= fun summary => _) ↔ _
  exact returns_bind_and (fun summary _ => returns_map)

/-! ### Trials -/

theorem returns_workspaceDiff {directory : String} :
    Returns (workspaceDiff r files directory) ↔ Loadable r (trialFile files directory "artifacts/manifest.json") := by
  unfold workspaceDiff
  simp only
  cases trialFile files directory "artifacts/manifest.json" with
  | none => exact ⟨fun _ => loadable_none, fun _ => returns_ok _⟩
  | some bytes =>
    rw [← @returns_loadJson r "artifacts/manifest.json" bytes]
    simp only
    cases loadJson r bytes "artifacts/manifest.json" with
    | error e => exact ⟨fun h => absurd h (not_returns_error _), fun h => absurd h (not_returns_error _)⟩
    | ok y =>
      refine ⟨fun _ => returns_ok _, fun _ => ?_⟩
      split
      · rename_i h
        cases h
      · exact returns_ok _
      · exact returns_ok _

theorem returns_durationSeconds {start finish : Value} :
    Returns (durationSeconds r start finish) ↔ Subtractable r start finish := by
  unfold durationSeconds Subtractable
  split
  · rename_i s f
    exact ⟨fun h s' f' hs hf => (by cases hs; cases hf; exact h), fun h => h s f rfl rfl⟩
  · rename_i hno
    exact ⟨fun _ s f hs hf => absurd hf (hno s f hs), fun _ => returns_ok _⟩

theorem returns_timings {payload : List (String × Value)} : Returns (timings r payload) ↔
    (∀ phase ∈ timedPhases, ∀ entry, at? payload phase = .obj entry →
      Subtractable r (at? entry "started_at") (at? entry "finished_at")) ∧
    Subtractable r (at? payload "started_at") (at? payload "finished_at") := by
  unfold timings
  rw [returns_bind_and (fun phases _ => returns_map), returns_mapM, returns_durationSeconds]
  refine and_congr_left fun _ => forall₂_congr fun phase _ => ?_
  cases hphase : at? payload phase with
  | obj entry =>
    simp only [Value.obj.injEq, forall_eq']
    rw [returns_map, returns_durationSeconds]
  | _ => exact ⟨fun _ _ h => (by cases h), fun _ => returns_ok _⟩

theorem returns_usageOf {payload : List (String × Value)} : Returns (usageOf payload) ↔
    ∀ agent, at? payload "agent_result" = .obj agent → FitsFloat (at? agent "cost_usd") := by
  unfold usageOf
  cases at? payload "agent_result" with
  | obj agent =>
    simp only [Value.obj.injEq, forall_eq']
    cases at? agent "cost_usd" with
    | int n =>
      simp only [FitsFloat]
      cases Number.binary64 n with
      | finite x => exact ⟨fun _ => ⟨x, rfl⟩, fun _ => returns_ok _⟩
      | _ => exact ⟨fun h => absurd h (not_returns_error _), fun h => by obtain ⟨_, h⟩ := h; cases h⟩
    | _ => exact ⟨fun _ => trivial, fun _ => returns_ok _⟩
  | _ => exact ⟨fun _ _ h => (by cases h), fun _ => returns_ok _⟩

/-- A directory whose result can be loaded has a trial result exactly when everything else that is read of it can be. -/
theorem returns_observedResult {plan : Plan} {item : Observed} {version : String} {cancelled : Bool}
    (hpayload : item.payload = resultOf r files item.directory) (h : Loadable r (trialFile files item.directory "result.json")) :
    Returns (observedResult r files plan item version cancelled) ↔ TrialReadable r files item.directory := by
  unfold observedResult
  rw [returns_bind_and (q := Loadable r (trialFile files item.directory "artifacts/manifest.json") ∧
    Returns (timings r item.payload) ∧ Returns (usageOf item.payload))]
  · rw [returns_observation h, returns_timings, returns_usageOf, hpayload]
    constructor
    · rintro ⟨⟨summary, rewardFile, rewards⟩, artifacts, ⟨phases, total⟩, cost⟩
      exact ⟨summary, rewardFile, rewards, artifacts, phases, total, cost⟩
    · intro t
      exact ⟨⟨t.summary, t.rewardFile, t.rewards⟩, t.artifacts, ⟨t.phases, t.total⟩, t.cost⟩
  · intro observation _
    simp only
    rw [returns_bind_and (fun workspace _ => ?_), returns_workspaceDiff]
    rw [returns_bind_and (fun times _ => ?_)]
    rw [returns_bind]
    constructor
    · rintro ⟨usage, husage, _⟩
      exact ⟨usage, husage⟩
    · rintro ⟨usage, husage⟩
      exact ⟨usage, husage, by rw [disposition_consistent]; exact returns_pure _⟩

/-! ### Handing out -/

/-- What is assigned, when every result document can be loaded. -/
def assignedAt (r : Reading) (files : Files) (ix : TaskIndex) : List (String × Observed) :=
  ((trialDirectories files).map (fun directory => placeDirectory r ix directory (resultOf r files directory))).filterMap Sum.getLeft?

/-- What is assigned to one task. -/
def itemsOf (r : Reading) (files : Files) (ix : TaskIndex) (key : String) : List Observed :=
  (ofKey Prod.fst (assignedAt r files ix) key).map Prod.snd

theorem handOut_take (plans : List Plan) (items : List Observed) :
    (handOut plans items).1.filterMap Prod.snd = items.take plans.length := by
  induction plans generalizing items with
  | nil => rfl
  | cons plan plans ih =>
    cases items with
    | nil =>
      rw [handOut, List.filterMap_cons_none rfl, ih, List.take_nil, List.take_nil]
    | cons item items =>
      rw [handOut, List.length_cons, List.take_succ_cons]
      exact congrArg (item :: ·) (ih items)

/-- The directories of a task are the ones that are matched to it. -/
theorem itemsOf_directories (key : String) : (itemsOf r files ix key).map Observed.directory =
    (trialDirectories files).filter (fun directory => taskOf r files ix directory = some key) := by
  unfold itemsOf assignedAt ofKey
  rw [List.filterMap_map]
  induction trialDirectories files with
  | nil => rfl
  | cons directory rest ih =>
    rw [List.filter_cons]
    cases hmatch : trialMatch ix (nativePath (resultOf r files directory)) directory with
    | task found method =>
      obtain ⟨item, hplace, hdirectory⟩ := placeDirectory_task (r := r) hmatch
      have htask : taskOf r files ix directory = some found := by
        unfold taskOf
        rw [hmatch]
      rw [List.filterMap_cons_some (b := (found, item)) (by simp [hplace]), List.filter_cons, htask]
      by_cases hkey : found = key
      · rw [if_pos (decide_eq_true hkey), if_pos (decide_eq_true (congrArg some hkey)), List.map_cons, List.map_cons, ih, hdirectory]
      · rw [if_neg (by simpa using hkey), if_neg (by simpa using hkey), ih]
    | ambiguous head candidates =>
      have htask : taskOf r files ix directory = none := by
        unfold taskOf
        rw [hmatch]
      rw [List.filterMap_cons_none (by simp [placeDirectory, hmatch]), ih, htask]
      rfl
    | unmapped =>
      have htask : taskOf r files ix directory = none := by
        unfold taskOf
        rw [hmatch]
      rw [List.filterMap_cons_none (by simp [placeDirectory, hmatch]), ih, htask]
      rfl

theorem itemsOf_payload {key : String} {item : Observed} (h : item ∈ itemsOf r files ix key) :
    item.payload = resultOf r files item.directory ∧
      item.startedAt = at? (resultOf r files item.directory) "started_at" := by
  obtain ⟨row, hrow, rfl⟩ := List.mem_map.1 h
  obtain ⟨hassigned, _⟩ := mem_ofKey.1 hrow
  obtain ⟨directory, _, hplace⟩ := List.mem_map.1 (mem_getLeft.1 hassigned)
  unfold placeDirectory at hplace
  simp only at hplace
  split at hplace <;> cases hplace
  exact ⟨rfl, rfl⟩

theorem observedKey_eq {key : String} {item : Observed} (h : item ∈ itemsOf r files ix key) :
    observedKey r item = startKey r files item.directory := by
  unfold observedKey startKey
  simp only [(itemsOf_payload h).2]

theorem startKey_inj {a b : String} (h : startKey r files a = startKey r files b) : a = b :=
  (Prod.mk.inj (toLex.injective h)).2

/-- The items of a task in the order in which they are handed out. -/
def queueOf (r : Reading) (files : Files) (ix : TaskIndex) (key : String) : List Observed :=
  (itemsOf r files ix key).insertionSort (fun a b => observedKey r a ≤ observedKey r b)

theorem queueOf_perm (key : String) : (queueOf r files ix key).Perm (itemsOf r files ix key) := List.perm_insertionSort _ _

theorem queueOf_sorted (key : String) :
    (queueOf r files ix key).Pairwise (fun a b => startKey r files a.directory < startKey r files b.directory) := by
  have total : Std.Total (fun a b : Observed => observedKey r a ≤ observedKey r b) := ⟨fun a b => le_total _ _⟩
  have trans : IsTrans Observed (fun a b => observedKey r a ≤ observedKey r b) := ⟨fun a b c => le_trans⟩
  have sorted : (queueOf r files ix key).Pairwise (fun a b => observedKey r a ≤ observedKey r b) :=
    List.pairwise_insertionSort _ _
  have distinct : ((queueOf r files ix key).map Observed.directory).Nodup := by
    rw [((queueOf_perm key).map _).nodup_iff, itemsOf_directories]
    exact (directories_nodup files).sublist List.filter_sublist
  refine (sorted.and (List.pairwise_map.1 distinct)).imp_of_mem ?_
  intro a b ha hb hab
  rw [observedKey_eq ((queueOf_perm key).mem_iff.1 ha), observedKey_eq ((queueOf_perm key).mem_iff.1 hb)] at hab
  exact lt_of_le_of_ne hab.1 (fun h => hab.2 (startKey_inj h))

/-- An item is among the first of its task when few directories of the task come before it. -/
theorem mem_take_queueOf {key : String} {item : Observed} {n : ℕ} :
    item ∈ (queueOf r files ix key).take n ↔ item ∈ itemsOf r files ix key ∧
      ((trialDirectories files).filter (fun other =>
        taskOf r files ix other = some key ∧ startKey r files other < startKey r files item.directory)).length < n := by
  have sorted := @queueOf_sorted r files ix key
  have ranked := @mem_take_iff_rank Observed (Lex (String × String)) _ (fun item => startKey r files item.directory) _ sorted item n
  rw [ranked, (queueOf_perm key).mem_iff, ((queueOf_perm key).filter _).length_eq]
  have count : ((itemsOf r files ix key).filter (fun y => startKey r files y.directory < startKey r files item.directory)).length =
      ((trialDirectories files).filter (fun other =>
        taskOf r files ix other = some key ∧ startKey r files other < startKey r files item.directory)).length := by
    have hmap := congrArg (List.filter (fun other => decide (startKey r files other < startKey r files item.directory)))
      (@itemsOf_directories r files ix key)
    rw [List.filter_map, List.filter_filter] at hmap
    have hlength := congrArg List.length hmap
    rw [List.length_map] at hlength
    refine hlength.trans (congrArg List.length (List.filter_congr fun other _ => ?_))
    rw [Bool.decide_and, Bool.and_comm]
  rw [count]

/-- The plans with the directories that they are handed. -/
def rowsOf (r : Reading) (files : Files) (plans : List Plan) (ix : TaskIndex) : List (Plan × Option Observed) :=
  ((groupBy Plan.taskKey plans).rows.map (fun task => (task.1, taskTrials r (assignedAt r files ix) task.1 task.2))).flatMap
    (fun task => task.2.1)

theorem mem_rowsOf {item : Observed} : (∃ plan, (plan, some item) ∈ rowsOf r files plans ix) ↔
    ∃ key, item ∈ (queueOf r files ix key).take (plans.filter (fun plan => plan.taskKey = key)).length := by
  have handed (key : String) : (taskTrials r (assignedAt r files ix) key (ofKey Plan.taskKey plans key)).1.filterMap Prod.snd =
      (queueOf r files ix key).take (plans.filter (fun plan => plan.taskKey = key)).length := by
    unfold taskTrials
    rw [handOut_take, List.length_insertionSort]
    rfl
  constructor
  · rintro ⟨plan, hrow⟩
    obtain ⟨task, htask, hrow⟩ := List.mem_flatMap.1 hrow
    obtain ⟨⟨key, group⟩, hgroup, rfl⟩ := List.mem_map.1 htask
    obtain ⟨_, rfl⟩ := mem_groupBy.1 hgroup
    refine ⟨key, ?_⟩
    rw [← handed key]
    exact List.mem_filterMap.2 ⟨(plan, some item), hrow, rfl⟩
  · rintro ⟨key, hitem⟩
    have some_plan : key ∈ plans.map Plan.taskKey := by
      refine ofKey_ne_nil_iff.1 (fun hnone => ?_)
      have hzero : (plans.filter (fun plan => plan.taskKey = key)).length = 0 := congrArg List.length hnone
      rw [hzero] at hitem
      cases hitem
    rw [← handed key] at hitem
    obtain ⟨⟨plan, given⟩, hrow, hgiven⟩ := List.mem_filterMap.1 hitem
    cases hgiven
    exact ⟨plan, List.mem_flatMap.2 ⟨_, List.mem_map.2 ⟨(key, _), mem_groupBy.2 ⟨some_plan, rfl⟩, rfl⟩, hrow⟩⟩

/-- The directories that are handed to plans. -/
theorem handed_iff {directory : String} : Handed r files plans ix directory ↔
    ∃ plan item, (plan, some item) ∈ rowsOf r files plans ix ∧ item.directory = directory ∧
      item.payload = resultOf r files directory := by
  constructor
  · rintro ⟨hmem, key, htask, hrank⟩
    have listed : directory ∈ (itemsOf r files ix key).map Observed.directory := by
      rw [itemsOf_directories]
      exact List.mem_filter.2 ⟨hmem, decide_eq_true htask⟩
    obtain ⟨item, hitem, rfl⟩ := List.mem_map.1 listed
    obtain ⟨plan, hrow⟩ := (@mem_rowsOf r files plans ix item).2 ⟨key, mem_take_queueOf.2 ⟨hitem, hrank⟩⟩
    exact ⟨plan, item, hrow, rfl, (itemsOf_payload hitem).1⟩
  · rintro ⟨plan, item, hrow, rfl, _⟩
    obtain ⟨key, htake⟩ := mem_rowsOf.1 ⟨plan, hrow⟩
    obtain ⟨hitem, hrank⟩ := mem_take_queueOf.1 htake
    have listed := List.mem_map_of_mem (f := Observed.directory) hitem
    rw [itemsOf_directories] at listed
    obtain ⟨hmem, htask⟩ := List.mem_filter.1 listed
    exact ⟨hmem, key, of_decide_eq_true htask, hrank⟩

/-! ### The parse -/

theorem placed_eq (h : ∀ directory ∈ trialDirectories files, Loadable r (trialFile files directory "result.json")) :
    (trialDirectories files).mapM (fun directory => do
      return placeDirectory r ix directory (← loadMapping r (files.get (trialPath directory "result.json")) "result.json")) =
    .ok ((trialDirectories files).map (fun directory => placeDirectory r ix directory (resultOf r files directory))) := by
  refine mapM_eq_ok_iff.2 (List.forall₂_map_right_iff.2 (List.forall₂_same.2 fun directory hmem => ?_))
  have hload := @loadMapping_eq r "result.json" _ (h directory hmem)
  unfold trialFile at hload
  rw [hload]
  rfl

/-- A parse returns when the two frozen documents and every result can be read, and every row has a result. -/
theorem returns_parse {cancelled : Bool} : Returns (parseHarborFiles r files plans cancelled) ↔
    ∃ ix, taskIndex r files = .ok ix ∧
      (∀ directory ∈ trialDirectories files, Loadable r (trialFile files directory "result.json")) ∧
      ∀ row ∈ rowsOf r files plans ix, Returns (trialResult r files row.1 row.2 parserVersion cancelled) := by
  unfold parseHarborFiles
  rw [returns_bind]
  refine exists_congr fun ix => and_congr_right fun _ => ?_
  constructor
  · intro h
    obtain ⟨placed, hplaced, h⟩ := returns_bind.1 h
    have loads : ∀ directory ∈ trialDirectories files, Loadable r (trialFile files directory "result.json") := by
      intro directory hmem
      have hplace := returns_mapM.1 ⟨placed, hplaced⟩ directory hmem
      exact returns_loadMapping.1 (returns_map.1 hplace)
    rw [placed_eq loads] at hplaced
    cases hplaced
    exact ⟨loads, returns_mapM.1 (returns_map.1 h)⟩
  · rintro ⟨loads, hrows⟩
    exact returns_bind.2 ⟨_, placed_eq loads, returns_map.2 (returns_mapM.2 hrows)⟩

/-- A parse gives a result for each plan exactly when every document it reads has a shape it expects. -/
theorem returns_results_iff (r : Reading) (files : Files) (plans : List Plan) (cancelled : Bool) :
    (∃ report, parseHarborFiles r files plans cancelled = .ok report ∧
      (report.results.map (fun result => (result.trialId, result.taskKey, result.repeatIndex))).Perm
        (plans.map (fun plan => (plan.trialId, plan.taskKey, plan.repeatIndex)))) ↔ Readable r files plans := by
  have each : (∃ report, parseHarborFiles r files plans cancelled = .ok report ∧
      (report.results.map (fun result => (result.trialId, result.taskKey, result.repeatIndex))).Perm
        (plans.map (fun plan => (plan.trialId, plan.taskKey, plan.repeatIndex)))) ↔
      Returns (parseHarborFiles r files plans cancelled) := by
    refine exists_congr fun report => and_iff_left_of_imp fun h => ?_
    obtain ⟨ix, placed, _, _, hreport⟩ := parse_ok h
    obtain ⟨hresults, _⟩ := hreport _ rfl
    rw [(results_ok hresults).1]
    exact (tasks_plans rfl).map _
  rw [each, returns_parse]
  constructor
  · rintro ⟨ix, hix, loads, hrows⟩
    obtain ⟨plan, planTasks, manifest, manifestTasks⟩ := returns_taskIndex.1 ⟨ix, hix⟩
    refine ⟨plan, planTasks, manifest, manifestTasks, loads, fun ix' hix' directory handed => ?_⟩
    cases hix.symm.trans hix'
    obtain ⟨plan, item, hrow, rfl, hpayload⟩ := handed_iff.1 handed
    exact (returns_observedResult hpayload (loads _ handed.1)).1 (hrows _ hrow)
  · intro h
    obtain ⟨ix, hix⟩ := returns_taskIndex.2 ⟨h.plan, h.planTasks, h.manifest, h.manifestTasks⟩
    refine ⟨ix, hix, h.results, fun row hrow => ?_⟩
    obtain ⟨plan, observed⟩ := row
    cases observed with
    | none => exact returns_ok _
    | some item =>
      obtain ⟨key, htake⟩ := mem_rowsOf.1 ⟨plan, hrow⟩
      have hpayload := (itemsOf_payload (mem_take_queueOf.1 htake).1).1
      have handed := handed_iff.2 ⟨plan, item, hrow, rfl, hpayload⟩
      exact (returns_observedResult hpayload (h.results _ handed.1)).2 (h.trials ix hix _ handed)

end

/-! A trial whose end has an offset and whose start has none. -/

def mixedPlan : String := "\x7b\"tasks\": [\x7b\"task_key\": \"t\", \"normalized_relative_path\": \"t\"\x7d]\x7d"

def mixedResult : String := "\x7b\"started_at\": \"2026-01-01T00:00:00\", \"finished_at\": \"2026-01-01T00:01:00Z\"\x7d"

def mixedReading : Reading where
  decode := staleReading.decode
  loads text :=
    if text = mixedPlan then
      .ok (.obj [("tasks", .arr [.obj [("task_key", .str "t"), ("normalized_relative_path", .str "t")]])])
    else if text = mixedResult then
      .ok (.obj [("started_at", .str "2026-01-01T00:00:00"), ("finished_at", .str "2026-01-01T00:01:00Z")])
    else .error (.decode "Expecting value" 0)
  float _ := none
  str _ := ""
  repr := staleReading.repr
  sha256 _ := ""
  duration start finish :=
    if start = "2026-01-01T00:00:00" ∧ finish = "2026-01-01T00:01:00Z" then .error ⟨"TypeError"⟩ else .ok none

def mixedFiles : Files where
  rows := [("harbor/plan.json", mixedPlan.toList.map (fun c => UInt8.ofNat c.toNat)),
    ("harbor/trials/t__a1/result.json", mixedResult.toList.map (fun c => UInt8.ofNat c.toNat))]
  nodup := by decide

/-- Two times of one trial end the parse of all. -/
theorem mixed_times_raise : ¬ ∀ r files plans cancelled, (plans.map Plan.trialId).Nodup →
    ∃ report, parseHarborFiles r files plans cancelled = .ok report ∧
      (report.results.map (fun result => (result.trialId, result.taskKey, result.repeatIndex))).Perm
        (plans.map (fun plan => (plan.trialId, plan.taskKey, plan.repeatIndex))) := by
  intro hall
  obtain ⟨report, h, _⟩ := hall mixedReading mixedFiles [{ trialId := "trial-1", taskKey := "t", repeatIndex := 0 }] false
    (List.nodup_singleton _)
  have raised : (parseHarborFiles mixedReading mixedFiles [{ trialId := "trial-1", taskKey := "t", repeatIndex := 0 }]
      false).toOption.isNone = true := by decide +kernel
  rw [h] at raised
  cases raised

end Motte.Harbor
