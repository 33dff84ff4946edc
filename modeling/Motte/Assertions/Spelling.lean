import Mathlib.Data.Sum.Basic
import Motte.Assertions.Counting
import Motte.Assertions.SideEffects
import Motte.Foundation.Twin
import Motte.Foundation.PosixPath

/-! The spelling of a path.

A file of a workspace has many paths. What is forbidden is compared with the path as it is
spelled, so a verdict may change with the spelling. It does not exactly when what decides it
is the same for every spelling: an action or a call that no checker answers on, or that is
forbidden however it is spelled, or nothing that is forbidden in any spelling. -/
namespace Motte.Assertions
open Foundation

/-- `validate_relative_path` -/
def validateRelativePath (path : String) : Bool :=
  path ≠ "" && path.toList.head? ≠ some '/' && path.toList.head? ≠ some '\\' && '\\' ∉ path.toList &&
    ".." ∉ (PosixPath.parts path.toList).map String.ofList && path.length ≤ 512

/-- `_canonical_relpath` -/
def canonicalRelpath (path : String) : String :=
  String.ofList (PosixPath.join ((PosixPath.parts path.toList).filter (· ≠ ['.'])))

/-- Two paths that a workspace takes, and that name one file. -/
structure SameFile (p q : String) : Prop where
  left : validateRelativePath p
  right : validateRelativePath q
  same : canonicalRelpath p = canonicalRelpath q

/-- The arguments with another text under a key. -/
def setArgument (arguments : List (String × Value)) (key text : String) : List (String × Value) :=
  arguments.map (fun entry => if entry.1 = key then (key, .str text) else entry)

/-- The same call, where the path that it writes may be spelled otherwise. -/
def ToolCall.Respelled (call call' : ToolCall) : Prop :=
  call' = call ∨ call.toolName = "write_file" ∧
    ∃ p q, at? call.arguments "path" = .str p ∧ SameFile p q ∧ call' = { call with arguments := setArgument call.arguments "path" q }

/-- The same action, where the path that it writes may be spelled otherwise. -/
def ActionRecord.Respelled (record record' : ActionRecord) : Prop :=
  record' = record ∨ record.action = "write_file" ∧
    ∃ p q, record.target = some p ∧ SameFile p q ∧ record' = { record with target := some q }

/-- The same log, where paths may be spelled otherwise. -/
structure ReadLog.Respelled (r r' : ReadLog) : Prop where
  artifactId : r'.ref.artifactId = r.ref.artifactId
  complete : r'.ref.complete = r.ref.complete
  monitoredScope : r'.ref.monitoredScope = r.ref.monitoredScope
  actions : List.Forall₂ ActionRecord.Respelled r.log.actions r'.log.actions

/-- A log that is read is read respelled, and another fails as before. -/
def ReadRespelled (read read' : String → Except LogFailure ReadLog) : Prop := ∀ id, Twin ReadLog.Respelled (read id) (read' id)

/-- Whether the metric was scored, and how. -/
def MetricResult.verdict (result : MetricResult) : MetricStatus × Option Bool := (result.status, result.passed)

/-- However the paths of the writes are spelled, the verdict is the same. -/
def SpellingFree (ctx : Context) (obs : Observation) (read : String → Except LogFailure ReadLog) (metric : SideEffectMetric) : Prop :=
  ∀ calls read', List.Forall₂ ToolCall.Respelled obs.toolCalls calls → ReadRespelled read read' →
    (evaluateNoSideEffectWith ctx { obs with toolCalls := calls } read' metric).verdict =
      (evaluateNoSideEffectWith ctx obs read metric).verdict

/-! ### Actions and calls one by one -/

/-- An action or a call. -/
inductive Deed where
  | action (record : ActionRecord)
  | call (call : ToolCall)

/-- The ways to spell an action or a call. -/
@[reducible] def Deed.Spelling : Deed → Type
  | .action record => { record' : ActionRecord // record.Respelled record' }
  | .call c => { c' : ToolCall // c.Respelled c' }

/-- What is looked at of an action; where it stands in the log is left out. -/
def ActionRecord.item (record : ActionRecord) : Item :=
  { order := 0, step := record.step, name := record.action, target := record.target.elim .null .str, status := record.status
    text := record.detail, callId := record.callId }

/-- What is looked at of a call; where it stands among the calls is left out. -/
def ToolCall.item (lib : Library) (call : ToolCall) : Item :=
  { order := 0, step := call.step, name := call.toolName
    target := orElse (at? call.arguments "target") (at? call.arguments "path")
    status := call.status, text := some (lib.dumps (.obj call.arguments)), callId := some call.callId }

def Deed.item (lib : Library) : (deed : Deed) → deed.Spelling → Item
  | .action _, record => record.1.item
  | .call _, c => c.1.item lib

/-- The spelling that there is. -/
def Deed.asIs : (deed : Deed) → deed.Spelling
  | .action record => ⟨record, .inl rfl⟩
  | .call c => ⟨c, .inl rfl⟩

/-- What is looked through: the actions of the logs, then the calls. -/
def deeds (logs : List ReadLog) (calls : List ToolCall) : List Deed :=
  (logs.flatMap (fun r => r.log.actions)).map .action ++ calls.map .call

/-- The verdict is decided by what no spelling changes. -/
def Settled (ctx : Context) (obs : Observation) (metric : SideEffectMetric) (inputs : SideEffectInputs) : Prop :=
  let all := deeds inputs.logs obs.toolCalls
  let raises (deed : Deed) spelling := Raises ctx.lib metric.forbid (effectiveTimeout ctx none) (deed.item ctx.lib spelling)
  let hits (deed : Deed) spelling := Hits ctx.lib metric.forbid (effectiveTimeout ctx none) (deed.item ctx.lib spelling)
  (∃ deed ∈ all, ∀ spelling, raises deed spelling) ∨
  (∀ deed ∈ all, ∀ spelling, ¬raises deed spelling) ∧
    ((∃ deed ∈ all, ∀ spelling, hits deed spelling) ∨ ∀ deed ∈ all, ∀ spelling, ¬hits deed spelling)

/-! ### Items and where they stand -/

section
variable {lib : Library} {forbid : List Matcher} {seconds : ℚ}

/-- Where an item stands makes the keys, not whether there are any. -/
theorem itemKeys_order (m : Matcher) (flags : RegexFlags) (item : Item) (n : ℕ) :
    (itemKeys lib m flags seconds { item with order := n }).map List.isEmpty = (itemKeys lib m flags seconds item).map List.isEmpty := by
  unfold itemKeys
  rw [show m.admits lib { item with order := n } = m.admits lib item from rfl]
  by_cases hadmits : (!m.admits lib item) = true
  · rw [if_pos hadmits, if_pos hadmits]
  · rw [if_neg hadmits, if_neg hadmits]
    simp only
    generalize m.text.elim [] (fun needle => textOffsets lib (item.text.getD "") needle m.casePolicy) = offsets
    by_cases hnone : (m.text.isSome && offsets.isEmpty) = true
    · rw [if_pos hnone, if_pos hnone]
    · rw [if_neg hnone, if_neg hnone]
      cases m.pattern.elim (.ok true) (fun pattern => searchPattern lib pattern (item.text.getD "") flags seconds) with
      | error e => simp only [bind, Except.bind, Except.map]
      | ok found =>
        cases found with
        | false => simp only [bind, Except.bind, Except.map, pure, Except.pure, Bool.false_eq_true, if_false]
        | true => simp only [bind, Except.bind, Except.map, pure, Except.pure, if_true, List.isEmpty_map]

theorem raises_iff {item : Item} : Raises lib forbid seconds item ↔
    ∃ m ∈ forbid, ∃ e, (itemKeys lib m {} seconds item).map List.isEmpty = .error e := by
  refine exists_congr fun m => and_congr_right fun _ => exists_congr fun e => ?_
  cases itemKeys lib m {} seconds item <;> simp [Except.map]

theorem hits_iff {item : Item} : Hits lib forbid seconds item ↔
    ∃ m ∈ forbid, (itemKeys lib m {} seconds item).map List.isEmpty = .ok false := by
  refine exists_congr fun m => and_congr_right fun _ => ?_
  cases itemKeys lib m {} seconds item <;> simp [Except.map]

theorem raises_order (item : Item) (n : ℕ) : Raises lib forbid seconds { item with order := n } ↔ Raises lib forbid seconds item := by
  simp only [raises_iff, itemKeys_order]

theorem hits_order (item : Item) (n : ℕ) : Hits lib forbid seconds { item with order := n } ↔ Hits lib forbid seconds item := by
  simp only [hits_iff, itemKeys_order]

/-- The items are the actions and the calls, with the place of each. -/
theorem exists_item_iff {P : Item → Prop} (hP : ∀ item n, P { item with order := n } ↔ P item) (obs : Observation) (logs : List ReadLog) :
    (∃ item ∈ sideEffectItems lib obs logs, P item) ↔ ∃ deed ∈ deeds logs obs.toolCalls, P (deed.item lib deed.asIs) := by
  have hactions : (∃ item ∈ actionLogItems (logs.map ReadLog.log), P item) ↔ ∃ r ∈ logs, ∃ record ∈ r.log.actions, P record.item := by
    have each (index : ℕ) (log : ActionLog) : (∃ item ∈ logItems index log, P item) ↔ ∃ record ∈ log.actions, P record.item := by
      unfold logItems
      simp only [List.mem_map, exists_exists_and_eq_and]
      exact exists_congr fun record => and_congr_right fun _ => (hP record.item _)
    unfold actionLogItems
    constructor
    · rintro ⟨item, hitem, h⟩
      obtain ⟨items, hitems, hitem⟩ := List.mem_flatten.1 hitem
      obtain ⟨⟨log, index⟩, hlog, rfl⟩ := List.mem_map.1 hitems
      obtain ⟨r, hr, rfl⟩ := List.mem_map.1 (List.fst_mem_of_mem_zipIdx hlog)
      exact ⟨r, hr, (each index r.log).1 ⟨item, hitem, h⟩⟩
    · rintro ⟨r, hr, h⟩
      obtain ⟨index, hindex, hget⟩ := List.mem_iff_getElem.1 (List.mem_map_of_mem (f := ReadLog.log) hr)
      obtain ⟨item, hitem, h⟩ := (each index r.log).2 h
      refine ⟨item, List.mem_flatten.2 ⟨_, List.mem_map.2 ⟨(r.log, index), ?_, rfl⟩, hitem⟩, h⟩
      rw [List.mem_zipIdx_iff_getElem?, ← hget]
      exact List.getElem?_eq_getElem hindex
  have hcalls : (∃ item ∈ toolCallItems lib obs.toolCalls, P item) ↔ ∃ call ∈ obs.toolCalls, P (call.item lib) := by
    unfold toolCallItems
    simp only [List.mem_map, exists_exists_and_eq_and]
    constructor
    · rintro ⟨⟨call, index⟩, hcall, h⟩
      exact ⟨call, List.fst_mem_of_mem_zipIdx hcall, (hP (call.item lib) _).1 h⟩
    · rintro ⟨call, hcall, h⟩
      obtain ⟨index, hindex, hget⟩ := List.mem_iff_getElem.1 hcall
      refine ⟨(call, index), ?_, (hP (call.item lib) _).2 h⟩
      rw [List.mem_zipIdx_iff_getElem?, ← hget]
      exact List.getElem?_eq_getElem hindex
  unfold sideEffectItems deeds
  simp only [List.mem_append, or_and_right, exists_or, hactions, hcalls, List.mem_map, exists_exists_and_eq_and, List.mem_flatMap]
  refine or_congr ⟨?_, ?_⟩ Iff.rfl
  · rintro ⟨r, hr, record, hrecord, h⟩
    exact ⟨record, ⟨r, hr, hrecord⟩, h⟩
  · rintro ⟨record, ⟨r, hr, hrecord⟩, h⟩
    exact ⟨r, hr, record, hrecord, h⟩

end

/-! ### One verdict for each way it goes -/

section
variable (ctx : Context) (obs : Observation) (metric : SideEffectMetric) (inputs : SideEffectInputs)

/-- A checker does not answer. -/
def Halts : Prop := ∃ deed ∈ deeds inputs.logs obs.toolCalls,
  Raises ctx.lib metric.forbid (effectiveTimeout ctx none) (deed.item ctx.lib deed.asIs)

/-- Something forbidden is found. -/
def Detects : Prop := ∃ deed ∈ deeds inputs.logs obs.toolCalls,
  Hits ctx.lib metric.forbid (effectiveTimeout ctx none) (deed.item ctx.lib deed.asIs)

variable {ctx obs metric inputs}

theorem judge_halts (h : Halts ctx obs metric inputs) : (judgeSideEffects ctx obs metric inputs).verdict = (.evaluatorError, none) := by
  obtain ⟨e, he⟩ := keysOf_error_iff.2 ((exists_item_iff raises_order obs inputs.logs).2 h)
  unfold judgeSideEffects
  simp only [he]
  cases e <;> rfl

theorem judge_answers (h : ¬Halts ctx obs metric inputs) :
    ∃ entries, keysOf ctx.lib (sideEffectItems ctx.lib obs inputs.logs) {} (effectiveTimeout ctx none) metric.forbid = .ok entries := by
  cases hkeys : keysOf ctx.lib (sideEffectItems ctx.lib obs inputs.logs) {} (effectiveTimeout ctx none) metric.forbid with
  | ok entries => exact ⟨entries, rfl⟩
  | error e => exact absurd ((exists_item_iff raises_order obs inputs.logs).1 (keysOf_error_iff.1 ⟨e, hkeys⟩)) h

theorem judge_detects (hanswers : ¬Halts ctx obs metric inputs) (h : Detects ctx obs metric inputs) :
    (judgeSideEffects ctx obs metric inputs).verdict = (.scored, some false) := by
  obtain ⟨entries, hentries⟩ := judge_answers hanswers
  have hne := (keysOf_hit_iff hentries).2 ((exists_item_iff hits_order obs inputs.logs).2 h)
  unfold judgeSideEffects
  simp only [hentries]
  cases hhits : entries.filter (fun entry => !entry.2.isEmpty) with
  | nil => exact absurd hhits hne
  | cons hit hits => rfl

theorem judge_clean (hanswers : ¬Halts ctx obs metric inputs) (h : ¬Detects ctx obs metric inputs) :
    (judgeSideEffects ctx obs metric inputs).verdict = (cleanVerdict obs metric inputs).verdict := by
  obtain ⟨entries, hentries⟩ := judge_answers hanswers
  have hnone : entries.filter (fun entry => !entry.2.isEmpty) = [] := by
    by_contra hne
    exact h ((exists_item_iff hits_order obs inputs.logs).1 ((keysOf_hit_iff hentries).1 hne))
  unfold judgeSideEffects
  simp only [hentries, hnone]

/-- Where nothing forbidden is found the metric is not failed, and the checkers are not to blame. -/
theorem clean_apart : (cleanVerdict obs metric inputs).verdict ≠ (.evaluatorError, none) ∧
    (cleanVerdict obs metric inputs).verdict ≠ (.scored, some false) := by
  unfold cleanVerdict
  simp only
  split
  · exact ⟨nofun, nofun⟩
  · repeat' split
    all_goals exact ⟨nofun, nofun⟩

/-- Two verdicts agree when both judgements go the same way. -/
theorem judge_eq_iff {obs' : Observation} {inputs' : SideEffectInputs}
    (hclean : (cleanVerdict obs' metric inputs').verdict = (cleanVerdict obs metric inputs).verdict) :
    (judgeSideEffects ctx obs' metric inputs').verdict = (judgeSideEffects ctx obs metric inputs).verdict ↔
      (Halts ctx obs' metric inputs' ↔ Halts ctx obs metric inputs) ∧
        (¬Halts ctx obs metric inputs → (Detects ctx obs' metric inputs' ↔ Detects ctx obs metric inputs)) := by
  obtain ⟨herror, hfail⟩ := @clean_apart obs metric inputs
  by_cases h : Halts ctx obs metric inputs <;> by_cases h' : Halts ctx obs' metric inputs'
  · simp [judge_halts h, judge_halts h', h, h']
  · by_cases d' : Detects ctx obs' metric inputs'
    · simp [judge_halts h, judge_detects h' d', h, h']
    · simp [judge_halts h, judge_clean h' d', h, h', hclean, herror]
  · by_cases d : Detects ctx obs metric inputs
    · simp [judge_halts h', judge_detects h d, h, h']
    · simp [judge_halts h', judge_clean h d, h, h', herror.symm]
  · by_cases d : Detects ctx obs metric inputs <;> by_cases d' : Detects ctx obs' metric inputs'
    · simp [judge_detects h d, judge_detects h' d', h, h', d, d']
    · simp [judge_detects h d, judge_clean h' d', h, h', d, d', hclean, hfail]
    · simp [judge_clean h d, judge_detects h' d', h, h', d, d', hfail.symm]
    · simp [judge_clean h d, judge_clean h' d', h, h', d, d', hclean]

end

/-! ### Respelled evidence -/

section
variable {lib : Library}

theorem map_eq_of_forall₂ {α β : Type} {R : α → α → Prop} {f : α → β} {xs ys : List α} (h : List.Forall₂ R xs ys)
    (each : ∀ x y, R x y → f y = f x) : ys.map f = xs.map f := by
  induction h with
  | nil => rfl
  | cons hr _ ih => rw [List.map_cons, List.map_cons, each _ _ hr, ih]

theorem at?_setArgument {arguments : List (String × Value)} {key p q : String} (h : at? arguments key = .str p) :
    at? (setArgument arguments key q) key = .str q := by
  unfold at? at h ⊢
  induction arguments with
  | nil => cases h
  | cons entry rest ih =>
    unfold setArgument
    rw [List.map_cons]
    by_cases hkey : entry.1 = key
    · rw [if_pos hkey, List.lookup_cons_self]
      rfl
    · have hne : (key == entry.1) = false := beq_eq_false_iff_ne.2 (Ne.symm hkey)
      rw [if_neg hkey, List.lookup_cons, hne]
      rw [List.lookup_cons, hne] at h
      exact ih h

theorem ActionRecord.Respelled.kept {record record' : ActionRecord} (h : record.Respelled record') :
    record'.seq = record.seq ∧ record'.callId = record.callId := by
  rcases h with rfl | ⟨_, _, _, _, _, rfl⟩
  · exact ⟨rfl, rfl⟩
  · exact ⟨rfl, rfl⟩

theorem ToolCall.Respelled.kept {call call' : ToolCall} (h : call.Respelled call') :
    call'.toolName = call.toolName ∧ ∀ logged, unmonitored logged call' = unmonitored logged call := by
  rcases h with rfl | ⟨_, p, q, hp, _, rfl⟩
  · exact ⟨rfl, fun _ => rfl⟩
  · refine ⟨rfl, fun logged => ?_⟩
    unfold unmonitored
    rw [at?_setArgument hp, hp]
    rfl

/-- Each action and each call is spelled in one of its ways. -/
theorem respelled_deeds {logs logs' : List ReadLog} {calls calls' : List ToolCall} (hlogs : List.Forall₂ ReadLog.Respelled logs logs')
    (hcalls : List.Forall₂ ToolCall.Respelled calls calls') :
    List.Forall₂ (fun (deed : Deed) (deed' : Deed) => ∃ spelling, deed.item lib spelling = deed'.item lib deed'.asIs)
      (deeds logs calls) (deeds logs' calls') := by
  unfold deeds
  refine List.rel_append ?_ ?_
  · rw [List.forall₂_map_left_iff, List.forall₂_map_right_iff]
    have hactions : List.Forall₂ ActionRecord.Respelled (logs.flatMap (fun r => r.log.actions)) (logs'.flatMap (fun r => r.log.actions)) :=
      List.rel_flatMap hlogs (fun _ _ h => h.actions)
    exact hactions.imp (fun record record' h => ⟨⟨record', h⟩, rfl⟩)
  · rw [List.forall₂_map_left_iff, List.forall₂_map_right_iff]
    exact hcalls.imp (fun call call' h => ⟨⟨call', h⟩, rfl⟩)

theorem loggedCallIds_respelled {logs logs' : List ReadLog} (hlogs : List.Forall₂ ReadLog.Respelled logs logs') :
    loggedCallIds logs' = loggedCallIds logs := by
  unfold loggedCallIds
  rw [List.flatMap_def, List.flatMap_def]
  refine congrArg List.flatten (map_eq_of_forall₂ hlogs (fun r r' h => ?_))
  have hids : r'.log.actions.map ActionRecord.callId = r.log.actions.map ActionRecord.callId :=
    map_eq_of_forall₂ h.actions (fun _ _ hrecord => hrecord.kept.2)
  have split (actions : List ActionRecord) : actions.filterMap (fun record => record.callId.filter (· ≠ "")) =
      (actions.map ActionRecord.callId).filterMap (fun id => id.filter (· ≠ "")) := by
    rw [List.filterMap_map]
    rfl
  rw [split, split, hids]

theorem unmonitoredToolCalls_respelled {calls calls' : List ToolCall} (hcalls : List.Forall₂ ToolCall.Respelled calls calls')
    (logged : List String) : unmonitoredToolCalls calls' logged = unmonitoredToolCalls calls logged := by
  have hpairs : calls'.map (fun call => (unmonitored logged call, call.toolName)) =
      calls.map (fun call => (unmonitored logged call, call.toolName)) :=
    map_eq_of_forall₂ hcalls (fun _ _ h => Prod.ext (h.kept.2 logged) h.kept.1)
  have split (calls : List ToolCall) : (calls.filter (unmonitored logged)).map ToolCall.toolName =
      ((calls.map (fun call => (unmonitored logged call, call.toolName))).filter Prod.fst).map Prod.snd := by
    rw [List.filter_map, List.map_map]
    rfl
  unfold unmonitoredToolCalls
  rw [split, split, hpairs]

/-- Where nothing forbidden is found, spelling is not looked at. -/
theorem clean_respelled {obs : Observation} {metric : SideEffectMetric} {inputs inputs' : SideEffectInputs} {calls : List ToolCall}
    (hlogs : List.Forall₂ ReadLog.Respelled inputs.logs inputs'.logs) (hcalls : List.Forall₂ ToolCall.Respelled obs.toolCalls calls) :
    (cleanVerdict { obs with toolCalls := calls } metric inputs').verdict = (cleanVerdict obs metric inputs).verdict := by
  have hgap : inputs'.logs.findSome? logGap = inputs.logs.findSome? logGap := by
    have split (logs : List ReadLog) : logs.findSome? logGap = (logs.map logGap).findSome? id := by
      rw [List.findSome?_map]
      rfl
    rw [split, split, map_eq_of_forall₂ hlogs]
    intro r r' h
    unfold logGap
    rw [h.complete, h.monitoredScope]
  have hunseen : unmonitoredToolCalls calls (loggedCallIds inputs'.logs) = unmonitoredToolCalls obs.toolCalls (loggedCallIds inputs.logs) := by
    rw [loggedCallIds_respelled hlogs, unmonitoredToolCalls_respelled hcalls]
  unfold cleanVerdict
  simp only [hgap, hunseen]
  cases inputs.logs.findSome? logGap with
  | some reason => rfl
  | none =>
    simp only
    split
    · rfl
    · split
      · rfl
      · split <;> rfl

end

/-! ### One spelling for each action and each call -/

section
variable (g : ∀ deed : Deed, deed.Spelling)

def respellLog (r : ReadLog) : ReadLog :=
  { ref := r.ref
    log := {
      actions := r.log.actions.map (fun record => (g (.action record)).1)
      ordered := by
        have hseq (record : ActionRecord) : (g (.action record)).1.seq = record.seq := (g (.action record)).2.kept.1
        have hkept : (r.log.actions.map (fun record => (g (.action record)).1)).map ActionRecord.seq = r.log.actions.map ActionRecord.seq := by
          rw [List.map_map]
          exact List.map_congr_left (fun record _ => hseq record)
        rw [hkept]
        exact r.log.ordered } }

theorem respellLog_respelled (r : ReadLog) : r.Respelled (respellLog g r) where
  artifactId := rfl
  complete := rfl
  monitoredScope := rfl
  actions := List.forall₂_map_right_iff.2 (List.forall₂_same.2 (fun record _ => (g (.action record)).2))

def respellCall (call : ToolCall) : ToolCall := (g (.call call)).1

/-- What a choice of spellings makes of the actions and the calls. -/
theorem exists_respelled_iff {lib : Library} {P : Item → Prop} (logs : List ReadLog) (calls : List ToolCall) :
    (∃ deed ∈ deeds (logs.map (respellLog g)) (calls.map (respellCall g)), P (deed.item lib deed.asIs)) ↔
      ∃ deed ∈ deeds logs calls, P (deed.item lib (g deed)) := by
  have hactions : (logs.map (respellLog g)).flatMap (fun r => r.log.actions) =
      (logs.flatMap (fun r => r.log.actions)).map (fun record => (g (.action record)).1) := by
    rw [List.flatMap_map, List.map_flatMap]
    rfl
  unfold deeds
  rw [hactions]
  simp only [List.mem_append, or_and_right, exists_or, List.mem_map, exists_exists_and_eq_and]
  exact Iff.rfl

/-- What holds of one of them in every choice, or in none, holds of one whatever is chosen for it, or of none. -/
theorem constant_of_iff {ι : Type} {X : ι → Type} {all : List ι} {P : ∀ i, X i → Prop} {q : Prop} (given : ∀ i, X i)
    (h : ∀ g : ∀ i, X i, (∃ i ∈ all, P i (g i)) ↔ q) : (∃ i ∈ all, ∀ x, P i x) ∨ ∀ i ∈ all, ∀ x, ¬P i x := by
  classical
  by_cases hall : ∃ i ∈ all, ∀ x, P i x
  · exact .inl hall
  · push Not at hall
    have hnone : ¬q := by
      rw [← h (fun i => if hi : ∃ x, ¬P i x then hi.choose else given i)]
      rintro ⟨i, hi, hP⟩
      rw [dif_pos (hall i hi)] at hP
      exact (hall i hi).choose_spec hP
    refine .inr (fun i hi x hP => hnone ((h (Function.update given i x)).1 ⟨i, hi, ?_⟩))
    rwa [Function.update_self]

end

/-! ### When spelling does not matter -/

section
variable {ctx : Context} {obs : Observation} {read : String → Except LogFailure ReadLog} {metric : SideEffectMetric}

theorem spelling_free_of_settled (h : ∀ inputs, sideEffectInputs ctx read metric = .ok inputs → Settled ctx obs metric inputs) :
    SpellingFree ctx obs read metric := by
  intro calls read' hcalls hread
  have htwin := @inputs_twin ctx metric ReadLog.Respelled read read' hread
  unfold evaluateNoSideEffectWith
  cases hinputs : sideEffectInputs ctx read metric with
  | error result =>
    rw [hinputs] at htwin
    cases hinputs' : sideEffectInputs ctx read' metric with
    | ok inputs' =>
      rw [hinputs'] at htwin
      cases htwin
    | error result' =>
      rw [hinputs'] at htwin
      cases htwin
      rfl
  | ok inputs =>
    rw [hinputs] at htwin
    cases hinputs' : sideEffectInputs ctx read' metric with
    | error result' =>
      rw [hinputs'] at htwin
      cases htwin
    | ok inputs' =>
      rw [hinputs'] at htwin
      cases htwin with
      | given hlogs =>
      have hall := @respelled_deeds ctx.lib _ _ _ _ hlogs hcalls
      -- What holds in every spelling, or in none, holds of what is respelled as it held before.
      have same {P : Item → Prop} (hP : (∃ deed ∈ deeds inputs.logs obs.toolCalls, ∀ spelling, P (deed.item ctx.lib spelling)) ∨
          ∀ deed ∈ deeds inputs.logs obs.toolCalls, ∀ spelling, ¬P (deed.item ctx.lib spelling)) :
          (∃ deed ∈ deeds inputs'.logs calls, P (deed.item ctx.lib deed.asIs)) ↔
            ∃ deed ∈ deeds inputs.logs obs.toolCalls, P (deed.item ctx.lib deed.asIs) := by
        rcases hP with ⟨deed, hdeed, hP⟩ | hP
        · obtain ⟨deed', hdeed', spelling, hitem⟩ := exists_of_forall₂ hall hdeed
          exact iff_of_true ⟨deed', hdeed', hitem ▸ hP spelling⟩ ⟨deed, hdeed, hP deed.asIs⟩
        · refine iff_of_false ?_ (fun ⟨deed, hdeed, h⟩ => hP deed hdeed deed.asIs h)
          rintro ⟨deed', hdeed', h⟩
          obtain ⟨deed, hdeed, spelling, hitem⟩ := exists_of_forall₂ hall.flip hdeed'
          exact hP deed hdeed spelling (hitem ▸ h)
      show (judgeSideEffects ctx _ metric inputs').verdict = (judgeSideEffects ctx obs metric inputs).verdict
      rw [judge_eq_iff (clean_respelled hlogs hcalls)]
      rcases h inputs hinputs with hraises | ⟨hanswers, hhits⟩
      · refine ⟨same (.inl hraises), fun hno => absurd ?_ hno⟩
        obtain ⟨deed, hdeed, hraises⟩ := hraises
        exact ⟨deed, hdeed, hraises deed.asIs⟩
      · exact ⟨same (.inr hanswers), fun _ => same hhits⟩

theorem settled_of_spelling_free (h : SpellingFree ctx obs read metric) {inputs : SideEffectInputs}
    (hinputs : sideEffectInputs ctx read metric = .ok inputs) : Settled ctx obs metric inputs := by
  have each (g : ∀ deed : Deed, deed.Spelling) :
      ((∃ deed ∈ deeds inputs.logs obs.toolCalls, Raises ctx.lib metric.forbid (effectiveTimeout ctx none) (deed.item ctx.lib (g deed))) ↔
        Halts ctx obs metric inputs) ∧
      (¬Halts ctx obs metric inputs →
        ((∃ deed ∈ deeds inputs.logs obs.toolCalls, Hits ctx.lib metric.forbid (effectiveTimeout ctx none) (deed.item ctx.lib (g deed))) ↔
          Detects ctx obs metric inputs)) := by
    have hread : ∀ id, Twin (fun r r' => r' = respellLog g r) (read id) ((read id).map (respellLog g)) := by
      intro id
      cases read id with
      | error e => exact .raised e
      | ok r => exact .given rfl
    have hrespelled : ReadRespelled read (fun id => (read id).map (respellLog g)) := by
      intro id
      show Twin _ (read id) ((read id).map (respellLog g))
      cases read id with
      | error e => exact .raised e
      | ok r => exact .given (respellLog_respelled g r)
    have hcalls : List.Forall₂ ToolCall.Respelled obs.toolCalls (obs.toolCalls.map (respellCall g)) :=
      List.forall₂_map_right_iff.2 (List.forall₂_same.2 (fun call _ => (g (.call call)).2))
    have hverdict := h _ _ hcalls hrespelled
    have htwin := @inputs_twin ctx metric _ _ _ hread
    unfold evaluateNoSideEffectWith at hverdict
    rw [hinputs] at htwin hverdict
    cases hinputs' : sideEffectInputs ctx (fun id => (read id).map (respellLog g)) metric with
    | error result => rw [hinputs'] at htwin; cases htwin
    | ok inputs' =>
      rw [hinputs'] at htwin hverdict
      cases htwin with
      | given hsame =>
      have hlogs : inputs'.logs = inputs.logs.map (respellLog g) := by
        have hmapped : List.Forall₂ (· = ·) (inputs.logs.map (respellLog g)) inputs'.logs :=
          List.forall₂_map_left_iff.2 (hsame.imp (fun _ _ h => h.symm))
        exact (List.forall₂_eq_eq_eq ▸ hmapped).symm
      have hforall : List.Forall₂ ReadLog.Respelled inputs.logs inputs'.logs :=
        hsame.imp (fun r r' hr => hr ▸ respellLog_respelled g r)
      have hways := (@judge_eq_iff ctx _ _ _ _ _ (clean_respelled hforall hcalls)).1 hverdict
      unfold Halts Detects at hways
      simp only [hlogs, exists_respelled_iff g] at hways
      exact hways
  let raises (deed : Deed) (spelling : deed.Spelling) : Prop :=
    Raises ctx.lib metric.forbid (effectiveTimeout ctx none) (deed.item ctx.lib spelling)
  let hits (deed : Deed) (spelling : deed.Spelling) : Prop :=
    Hits ctx.lib metric.forbid (effectiveTimeout ctx none) (deed.item ctx.lib spelling)
  rcases constant_of_iff (P := raises) Deed.asIs (fun g => (each g).1) with hraises | hanswers
  · exact .inl hraises
  · have hno : ¬Halts ctx obs metric inputs := fun ⟨deed, hdeed, h⟩ => hanswers deed hdeed deed.asIs h
    exact .inr ⟨hanswers, constant_of_iff (P := hits) Deed.asIs (fun g => (each g).2 hno)⟩

/-- The verdict does not depend on the spelling of paths if and only if what decides it does not. -/
theorem spelling_free_iff : SpellingFree ctx obs read metric ↔
    ∀ inputs, sideEffectInputs ctx read metric = .ok inputs → Settled ctx obs metric inputs :=
  ⟨fun h _ hinputs => settled_of_spelling_free h hinputs, spelling_free_of_settled⟩

end

def lockedWrite (path : String) : ToolCall :=
  { callId := "c1", toolName := "write_file", arguments := [("path", .str path)], status := .succeeded, step := 1 }

def lockedMetric : SideEffectMetric :=
  { header := ⟨"no_side_effect", none⟩, scope := ["tool_calls"], forbid := [{ target := some "locked.txt" }] }

/-- The locked file can be written as another path. -/
theorem alias_passes : ¬∀ ctx obs read metric, SpellingFree ctx obs read metric := by
  intro hall
  have hsame : SameFile "locked.txt" "./locked.txt" := ⟨by decide +kernel, by decide +kernel, by decide +kernel⟩
  have h := hall plainContext { wholeObservation with toolCalls := [lockedWrite "locked.txt"] } (fun id => .error (.refused id ⟨"", .evaluatorError, none, none⟩))
    lockedMetric [lockedWrite "./locked.txt"] _
    (.cons (.inr ⟨rfl, _, _, rfl, hsame, rfl⟩) .nil) (fun id => .raised _)
  exact absurd h (by decide +kernel)

end Motte.Assertions
