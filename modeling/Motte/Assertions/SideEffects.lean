import Motte.Assertions.ResponsePolicy
import Motte.Foundation.Twin

/-! No side effect.

What is forbidden is looked for in the actions of the logs and in the tool calls. A match
fails the metric; that there is none is believed only of evidence that is complete over the
declared scope, and of tool calls that cannot have done more than is seen of them. -/
namespace Motte.Assertions
open Foundation

def sideEffectScopes : List String := ["tool_calls", "actions", "filesystem"]

def controlledTools : List String := ["read_file", "list_files", "write_file"]

/-- A no-side-effect metric. -/
structure SideEffectMetric where
  header : Header
  scope : List String := []
  log : Option String := none
  logs : List String := []
  forbid : List Matcher := []

/-- `_log_ids` -/
def logIds (metric : SideEffectMetric) : Except String (List String) := do
  ensure (metric.log ≠ some "") "log must be a non-empty evidence id"
  ensure ("" ∉ metric.logs) "logs must be a list of non-empty evidence ids"
  return (metric.log.toList ++ metric.logs).foldl (fun ids id => if id ∈ ids then ids else ids ++ [id]) []

/-- Why what is read of a log cannot be all of it. -/
def logGap (r : ReadLog) : Option String :=
  if !r.ref.complete then some "action_log_incomplete"
  else if r.ref.monitoredScope.isEmpty then some "monitoring_scope_undeclared"
  else none

/-- The calls that are seen in a log. -/
def loggedCallIds (logs : List ReadLog) : List String :=
  logs.flatMap (fun r => r.log.actions.filterMap (fun record => record.callId.filter (· ≠ "")))

/-- What a call may have done is not seen. -/
def unmonitored (logged : List String) (call : ToolCall) : Bool :=
  call.callId ∉ logged && (call.toolName ∉ controlledTools ||
    (call.toolName = "write_file" && (call.status ≠ .succeeded || (at? call.arguments "path").str?.isNone)))

/-- `_unmonitored_tool_calls` -/
def unmonitoredToolCalls (calls : List ToolCall) (logged : List String) : List String :=
  ((calls.filter (unmonitored logged)).map ToolCall.toolName).dedup.insertionSort (· ≤ ·)

/-- What the metric is judged by, once its logs are read. -/
structure SideEffectInputs where
  ids : List String
  logs : List ReadLog

/-- The first part of `evaluate_no_side_effect`: the metric is checked and its logs are read. -/
def sideEffectInputs (ctx : Context) (read : String → Except LogFailure ReadLog) (metric : SideEffectMetric) :
    Except MetricResult SideEffectInputs := do
  let h := metric.header
  ensure (metric.scope ≠ []) (h.insufficient "monitoring_scope_undeclared" .none [])
  let unknown := (metric.scope.filter (· ∉ sideEffectScopes)).dedup.insertionSort (· ≤ ·)
  ensure (unknown = []) (h.configError ("unknown scope tokens: " ++ ", ".intercalate unknown))
  let _ ← (matcherList "forbid" metric.forbid).mapError h.configError
  let ids ← (logIds metric).mapError h.configError
  ensure (¬("actions" ∈ metric.scope ∧ ids = [])) (h.insufficient "action_log_missing" (.evidence none metric.scope) [])
  ensure (ctx.expired = false) h.deadlineError
  let logs ← ids.mapM (fun id => (read id).mapError h.logFailure)
  return { ids, logs }

/-- The items that are looked through. -/
def sideEffectItems (lib : Library) (obs : Observation) (logs : List ReadLog) : List Item :=
  actionLogItems (logs.map ReadLog.log) ++ toolCallItems lib obs.toolCalls

/-- What follows when nothing forbidden is found. -/
def cleanVerdict (obs : Observation) (metric : SideEffectMetric) (inputs : SideEffectInputs) : MetricResult :=
  let h := metric.header
  let refs := inputs.logs.map (fun r => r.ref.artifactId)
  let covered := Details.evidence none metric.scope
  let unseen := unmonitoredToolCalls obs.toolCalls (loggedCallIds inputs.logs)
  match inputs.logs.findSome? logGap with
  | some reason => h.insufficient reason covered refs
  | none =>
    if "filesystem" ∈ metric.scope ∧ obs.workspace ≠ some true then h.insufficient "workspace_snapshot_incomplete" covered refs
    else if "tool_calls" ∈ metric.scope ∧ obs.coverageComplete = false then h.insufficient "tool_trajectory_incomplete" covered refs
    else if unseen ≠ [] then h.insufficient "tool_side_effects_unobserved" (.tools unseen metric.scope) refs
    else h.succeeded (.monitored metric.scope (actionLogItems (inputs.logs.map ReadLog.log)).length
      obs.toolCalls.length inputs.ids) refs

/-- The second part of `evaluate_no_side_effect`. -/
def judgeSideEffects (ctx : Context) (obs : Observation) (metric : SideEffectMetric) (inputs : SideEffectInputs) : MetricResult :=
  let h := metric.header
  let seconds := effectiveTimeout ctx none
  let refs := inputs.logs.map (fun r => r.ref.artifactId)
  match keysOf ctx.lib (sideEffectItems ctx.lib obs inputs.logs) {} seconds metric.forbid with
  | .error (.timeout _) => h.result .evaluatorError none "checker_timeout" (.checker seconds none) refs
  | .error (.failure detail) => h.result .evaluatorError none "checker_execution_error" (.error detail) refs
  | .ok entries =>
    match entries.filter (fun entry => !entry.2.isEmpty) with
    | [] => cleanVerdict obs metric inputs
    | hits => h.failed "side_effect_detected"
        (.violations (hits.map (fun entry => .forbidden entry.1 entry.2.length)) (some metric.scope)) refs

/-- `evaluate_no_side_effect`, with what reads a log. -/
def evaluateNoSideEffectWith (ctx : Context) (obs : Observation) (read : String → Except LogFailure ReadLog)
    (metric : SideEffectMetric) : MetricResult :=
  match sideEffectInputs ctx read metric with
  | .error result => result
  | .ok inputs => judgeSideEffects ctx obs metric inputs

/-- `evaluate_no_side_effect` -/
def evaluateNoSideEffect (ctx : Context) (obs : Observation) (metric : SideEffectMetric) : MetricResult :=
  evaluateNoSideEffectWith ctx obs (readLog ctx obs) metric

/-! ### What a verdict rests on -/

section
variable {lib : Library} {forbid : List Matcher} {seconds : ℚ}

/-- A checker does not answer on the item. -/
def Raises (lib : Library) (forbid : List Matcher) (seconds : ℚ) (item : Item) : Prop :=
  ∃ m ∈ forbid, ∃ e, itemKeys lib m {} seconds item = .error e

/-- The item is forbidden. -/
def Hits (lib : Library) (forbid : List Matcher) (seconds : ℚ) (item : Item) : Prop :=
  ∃ m ∈ forbid, ∃ keys, itemKeys lib m {} seconds item = .ok keys ∧ keys ≠ []

theorem matcherKeys_error_iff {items : List Item} {m : Matcher} {flags : RegexFlags} :
    (∃ e, matcherKeys lib items m flags seconds = .error e) ↔ ∃ item ∈ items, ∃ e, itemKeys lib m flags seconds item = .error e := by
  have each : (∃ e, items.mapM (itemKeys lib m flags seconds) = .error e) ↔
      ∃ item ∈ items, ∃ e, itemKeys lib m flags seconds item = .error e := by
    induction items with
    | nil => exact ⟨fun ⟨_, h⟩ => (by cases h), fun ⟨_, h, _⟩ => (by cases h)⟩
    | cons item rest ih =>
      simp only [List.mapM_cons, except_bind_error_iff, List.mem_cons, or_and_right, exists_or, exists_eq_left, ← ih]
      cases hitem : itemKeys lib m flags seconds item with
      | error e => simp
      | ok keys =>
        simp only [reduceCtorEq, exists_false, false_or, Except.ok.injEq, exists_eq_left']
        refine exists_congr fun e => ⟨?_, .inl⟩
        rintro (h | ⟨_, _, h⟩)
        · exact h
        · cases h
  rw [← each]
  unfold matcherKeys
  refine exists_congr fun e => ?_
  rw [except_bind_error_iff]
  refine ⟨?_, .inl⟩
  rintro (h | ⟨_, _, h⟩)
  · exact h
  · cases h

theorem matcherKeys_ne_nil {items : List Item} {m : Matcher} {flags : RegexFlags} {keys : List ℕ}
    (h : matcherKeys lib items m flags seconds = .ok keys) :
    keys ≠ [] ↔ ∃ item ∈ items, ∃ found, itemKeys lib m flags seconds item = .ok found ∧ found ≠ [] := by
  obtain ⟨each, heach, hkeys⟩ := except_bind_ok_iff.1 h
  cases hkeys
  have hall := mapM_ok heach
  rw [ne_eq, ← List.length_eq_zero_iff, List.length_insertionSort, List.length_eq_zero_iff, List.flatten_eq_nil_iff, not_forall]
  simp only [Classical.not_imp]
  constructor
  · rintro ⟨found, hfound, hne⟩
    obtain ⟨item, hitem, hkeys⟩ := exists_of_forall₂ hall.flip hfound
    exact ⟨item, hitem, found, hkeys, hne⟩
  · rintro ⟨item, hitem, found, hfound, hne⟩
    obtain ⟨found', hmem, hkeys⟩ := exists_of_forall₂ hall hitem
    cases hfound.symm.trans hkeys
    exact ⟨found, hmem, hne⟩

/-- The checkers of a policy answer unless one raises on an item. -/
theorem keysOf_error_iff {items : List Item} :
    (∃ e, keysOf lib items {} seconds forbid = .error e) ↔ ∃ item ∈ items, Raises lib forbid seconds item := by
  have each : (∃ e, keysOf lib items {} seconds forbid = .error e) ↔ ∃ m ∈ forbid, ∃ e, matcherKeys lib items m {} seconds = .error e := by
    unfold keysOf
    induction forbid with
    | nil => exact ⟨fun ⟨_, h⟩ => (by cases h), fun ⟨_, h, _⟩ => (by cases h)⟩
    | cons m rest ih =>
      simp only [List.mapM_cons, except_bind_error_iff, except_bind_ok_iff, List.mem_cons, or_and_right, exists_or, exists_eq_left, ← ih]
      cases hm : matcherKeys lib items m {} seconds with
      | error e => simp
      | ok keys =>
        simp [pure, Except.pure]
  rw [each]
  simp only [matcherKeys_error_iff, Raises]
  constructor
  · rintro ⟨m, hm, item, hitem, h⟩
    exact ⟨item, hitem, m, hm, h⟩
  · rintro ⟨item, hitem, m, hm, h⟩
    exact ⟨m, hm, item, hitem, h⟩

theorem keysOf_hit_iff {items : List Item} {entries : List (Matcher × List ℕ)} (h : keysOf lib items {} seconds forbid = .ok entries) :
    entries.filter (fun entry => !entry.2.isEmpty) ≠ [] ↔ ∃ item ∈ items, Hits lib forbid seconds item := by
  have hall := mapM_ok h
  rw [ne_eq, List.filter_eq_nil_iff]
  push Not
  constructor
  · rintro ⟨⟨m', keys⟩, hentry, hne⟩
    obtain ⟨m, hm, hkeys⟩ := exists_of_forall₂ hall.flip hentry
    obtain ⟨keys', hkeys, hsame⟩ := except_bind_ok_iff.1 hkeys
    cases hsame
    obtain ⟨item, hitem, found, hfound⟩ := (matcherKeys_ne_nil hkeys).1 (by simpa using hne)
    exact ⟨item, hitem, m', hm, found, hfound⟩
  · rintro ⟨item, hitem, m, hm, found, hfound⟩
    obtain ⟨⟨m', keys⟩, hentry, hkeys⟩ := exists_of_forall₂ hall hm
    obtain ⟨keys', hkeys, hsame⟩ := except_bind_ok_iff.1 hkeys
    cases hsame
    exact ⟨(m, keys), hentry, by simpa using (matcherKeys_ne_nil hkeys).2 ⟨item, hitem, found, hfound⟩⟩

end

/-- What is judged changes as what is read does. -/
theorem inputs_twin {ctx : Context} {metric : SideEffectMetric} {R : ReadLog → ReadLog → Prop}
    {read read' : String → Except LogFailure ReadLog} (hread : ∀ id, Twin R (read id) (read' id)) :
    Twin (fun inputs inputs' => List.Forall₂ R inputs.logs inputs'.logs)
      (sideEffectInputs ctx read metric) (sideEffectInputs ctx read' metric) := by
  unfold sideEffectInputs
  refine .same fun _ _ => .same fun _ _ => .same fun _ _ => .same fun ids _ => .same fun _ _ => .same fun _ _ => ?_
  exact (Twin.mapM (fun id => (hread id).mapError _) ids).bind (fun logs logs' h => .pure h)

end Motte.Assertions
