import Motte.Assertions.Counting
import Motte.Assertions.SideEffects
import Motte.Foundation.Twin

/-! Failures and longer logs.

What fails a log that is not complete is what is seen in it: a match of something forbidden,
or more matches than are allowed. Every longer log shows it too, and fails, unless a checker
does not answer on what was added. -/
namespace Motte.Assertions
open Foundation

/-- The metric is scored as failed. -/
def MetricResult.Failed (result : MetricResult) : Prop := result.status = .scored ∧ result.passed = some false

/-- A checker did not answer. -/
def MetricResult.CheckerStopped (result : MetricResult) : Prop :=
  result.status = .evaluatorError ∧ (result.reason = "checker_timeout" ∨ result.reason = "checker_execution_error")

/-- The same log with further actions; whether it is complete is left open. -/
def ReadLog.Extends (r r' : ReadLog) : Prop := ∃ more, r'.log.actions = r.log.actions ++ more

/-- Each log that is read is read with further actions, and another fails as before. -/
def Extended (read read' : String → Except LogFailure ReadLog) : Prop := ∀ id, Twin ReadLog.Extends (read id) (read' id)

/-! ### Longer streams -/

section
variable {lib : Library} {items items' : List Item} {flags : RegexFlags} {seconds : ℚ}

theorem cappedCount_mono (h : items.Sublist items') (m : Matcher) :
    cappedCount lib items m flags seconds ≤ cappedCount lib items' m flags seconds :=
  List.Sublist.sum_le_sum ((h.filter _).map _) (fun _ _ => Nat.zero_le _)

theorem logItems_sublist (index : ℕ) {log log' : ActionLog} {more : List ActionRecord} (h : log'.actions = log.actions ++ more) :
    (logItems index log).Sublist (logItems index log') := by
  unfold logItems
  rw [h, List.map_append]
  exact List.sublist_append_left _ _

theorem actionLogItems_sublist {logs logs' : List ReadLog} (h : List.Forall₂ ReadLog.Extends logs logs') :
    (actionLogItems (logs.map ReadLog.log)).Sublist (actionLogItems (logs'.map ReadLog.log)) := by
  unfold actionLogItems
  generalize 0 = start
  induction h generalizing start with
  | nil => exact List.Sublist.refl _
  | cons hr _ ih =>
    obtain ⟨more, hmore⟩ := hr
    rw [List.map_cons, List.map_cons, List.zipIdx_cons, List.zipIdx_cons, List.map_cons, List.map_cons, List.flatten_cons,
      List.flatten_cons]
    exact (logItems_sublist start hmore).append (ih (start + 1))

/-- What is confirmed, in terms of the items. -/
theorem confirmed_ne_nil_iff {require forbid : List Matcher} {requireKeys forbidKeys : List (Matcher × List ℕ)}
    (hrequire : keysOf lib items flags seconds require = .ok requireKeys)
    (hforbid : keysOf lib items flags seconds forbid = .ok forbidKeys) :
    confirmedViolations requireKeys forbidKeys ≠ [] ↔
      (∃ m ∈ require, ∃ maximum, m.maxCount = some maximum ∧ maximum < cappedCount lib items m flags seconds) ∨
        ∃ m ∈ forbid, 0 < cappedCount lib items m flags seconds := by
  obtain ⟨hfirst, hkeys⟩ := keysOf_mem hrequire
  obtain ⟨hfirst', hkeys'⟩ := keysOf_mem hforbid
  unfold confirmedViolations
  rw [ne_eq, List.append_eq_nil_iff, List.filterMap_eq_nil_iff, List.filterMap_eq_nil_iff, not_and_or]
  push Not
  rw [← hfirst, ← hfirst']
  simp only [List.mem_map, exists_exists_and_eq_and]
  refine or_congr (exists_congr fun entry => and_congr_right fun hentry => ?_)
    (exists_congr fun entry => and_congr_right fun hentry => ?_)
  · rw [← length_matcherKeys (hkeys entry hentry)]
    cases entry.1.maxCount with
    | none => simp
    | some maximum => simp
  · rw [← length_matcherKeys (hkeys' entry hentry), List.length_pos_iff]
    simp

/-- What is confirmed of a stream is confirmed of a longer one. -/
theorem confirmed_mono {require forbid : List Matcher} {requireKeys forbidKeys requireKeys' forbidKeys' : List (Matcher × List ℕ)}
    (h : items.Sublist items')
    (hrequire : keysOf lib items flags seconds require = .ok requireKeys)
    (hforbid : keysOf lib items flags seconds forbid = .ok forbidKeys)
    (hrequire' : keysOf lib items' flags seconds require = .ok requireKeys')
    (hforbid' : keysOf lib items' flags seconds forbid = .ok forbidKeys')
    (hconfirmed : confirmedViolations requireKeys forbidKeys ≠ []) : confirmedViolations requireKeys' forbidKeys' ≠ [] := by
  rw [confirmed_ne_nil_iff hrequire' hforbid']
  rcases (confirmed_ne_nil_iff hrequire hforbid).1 hconfirmed with ⟨m, hm, maximum, hmax, hlt⟩ | ⟨m, hm, hpos⟩
  · exact .inl ⟨m, hm, maximum, hmax, hlt.trans_le (cappedCount_mono h m)⟩
  · exact .inr ⟨m, hm, hpos.trans_le (cappedCount_mono h m)⟩

end

/-! ### Response policies -/

section
variable {lib : Library} {h : Header} {seconds : ℚ} {options : PolicyOptions} {stream stream' : PolicyStream} {result : MetricResult}

/-- A stream that is not complete fails only by what is confirmed. -/
theorem judgePolicy_failed (hincomplete : stream.complete = false) (hresult : judgePolicy lib h seconds options stream = .ok result)
    (hfailed : result.Failed) :
    ∃ requireKeys forbidKeys, keysOf lib stream.items options.flags seconds options.require = .ok requireKeys ∧
      keysOf lib stream.items options.flags seconds options.forbid = .ok forbidKeys ∧ confirmedViolations requireKeys forbidKeys ≠ [] := by
  unfold judgePolicy at hresult
  split at hresult
  · cases hresult
    cases hfailed.1
  · cases hresult
    cases hfailed.1
  · rename_i requireKeys forbidKeys hkeys
    obtain ⟨requireKeys', hrequire, hkeys⟩ := except_bind_ok_iff.1 hkeys
    obtain ⟨forbidKeys', hforbid, hkeys⟩ := except_bind_ok_iff.1 hkeys
    cases hkeys
    refine ⟨_, _, hrequire, hforbid, fun hnone => ?_⟩
    unfold policyVerdict at hresult
    rw [hnone, hincomplete] at hresult
    cases hresult
    cases hfailed.1

/-- A longer stream fails too, when the checkers answer on it. -/
theorem judgePolicy_extended (hincomplete : stream.complete = false) (hsub : stream.items.Sublist stream'.items)
    (hresult : judgePolicy lib h seconds options stream = .ok result) (hfailed : result.Failed) :
    ∃ result', judgePolicy lib h seconds options stream' = .ok result' ∧ (result'.Failed ∨ result'.CheckerStopped) := by
  obtain ⟨requireKeys, forbidKeys, hrequire, hforbid, hconfirmed⟩ := judgePolicy_failed hincomplete hresult hfailed
  unfold judgePolicy
  split
  · exact ⟨_, rfl, .inr ⟨rfl, .inl rfl⟩⟩
  · exact ⟨_, rfl, .inr ⟨rfl, .inr rfl⟩⟩
  · rename_i requireKeys' forbidKeys' hkeys
    obtain ⟨_, hrequire', hkeys⟩ := except_bind_ok_iff.1 hkeys
    obtain ⟨_, hforbid', hkeys⟩ := except_bind_ok_iff.1 hkeys
    cases hkeys
    have hconfirmed' := confirmed_mono hsub hrequire hforbid hrequire' hforbid' hconfirmed
    unfold policyVerdict
    cases hviolations : confirmedViolations requireKeys' forbidKeys' with
    | nil => exact absurd hviolations hconfirmed'
    | cons first rest => exact ⟨_, rfl, .inl ⟨rfl, rfl⟩⟩

/-- A policy is judged by the same stream, or by a longer one where it was not complete. -/
theorem policyStream_extended {ctx : Context} {obs : Observation} {read read' : String → Except LogFailure ReadLog}
    {reprText : String → String} {metric : PolicyMetric} (hread : Extended read read')
    (hincomplete : ∀ id r, metric.log = some id → read id = .ok r → r.ref.complete = false) :
    Twin (fun stream stream' => stream' = stream ∨ stream.complete = false ∧ stream.items.Sublist stream'.items)
      (policyStream ctx obs read reprText metric) (policyStream ctx obs read' reprText metric) := by
  have same (x : Except MetricResult PolicyStream) :
      Twin (fun stream stream' => stream' = stream ∨ stream.complete = false ∧ stream.items.Sublist stream'.items) x x := by
    cases x with
    | error e => exact .raised e
    | ok stream => exact .given (.inl rfl)
  unfold policyStream
  by_cases hfinal : metric.source = "final_output"
  · simp only [if_pos hfinal]
    exact same _
  · simp only [if_neg hfinal]
    by_cases hcalls : metric.source = "tool_calls"
    · simp only [if_pos hcalls]
      exact same _
    · simp only [if_neg hcalls]
      by_cases hlog : metric.source = "action_log"
      · simp only [if_pos hlog]
        cases hid : metric.log with
        | none => exact same _
        | some id =>
          simp only
          by_cases hempty : id = ""
          · simp only [if_pos hempty]
            exact same _
          · simp only [if_neg hempty]
            have htwin := hread id
            cases hr : read id with
            | error failure =>
              rw [hr] at htwin
              cases hr' : read' id with
              | ok r' => rw [hr'] at htwin; cases htwin
              | error failure' =>
                rw [hr'] at htwin
                cases htwin
                exact .raised _
            | ok r =>
              rw [hr] at htwin
              cases hr' : read' id with
              | error failure' => rw [hr'] at htwin; cases htwin
              | ok r' =>
                rw [hr'] at htwin
                cases htwin with
                | given hext =>
                refine .given (.inr ⟨?_, ?_⟩)
                · show (logIncomplete obs r.ref).isNone = false
                  unfold logIncomplete
                  rw [hincomplete id r hid hr]
                  rfl
                · exact @actionLogItems_sublist [r] [r'] (.cons hext .nil)
      · simp only [if_neg hlog]
        exact same _

theorem policy_failure_stable {ctx : Context} {obs : Observation} {read read' : String → Except LogFailure ReadLog}
    {metric : PolicyMetric} (hread : Extended read read')
    (hincomplete : ∀ id r, metric.log = some id → read id = .ok r → r.ref.complete = false)
    (hresult : evaluateResponsePolicyWith ctx obs read metric = .ok result) (hfailed : result.Failed) :
    ∃ result', evaluateResponsePolicyWith ctx obs read' metric = .ok result' ∧ (result'.Failed ∨ result'.CheckerStopped) := by
  unfold evaluateResponsePolicyWith at hresult ⊢
  cases hoptions : policyOptions metric with
  | error problem =>
    rw [hoptions] at hresult
    exact ⟨result, hresult, .inl hfailed⟩
  | ok options =>
    rw [hoptions] at hresult
    simp only at hresult ⊢
    by_cases hexpired : ctx.expired = true
    · rw [if_pos hexpired] at hresult ⊢
      exact ⟨result, hresult, .inl hfailed⟩
    · rw [if_neg hexpired] at hresult ⊢
      have htwin := @policyStream_extended ctx obs read read' ctx.lib.repr metric hread hincomplete
      cases hstream : policyStream ctx obs read ctx.lib.repr metric with
      | error e =>
        rw [hstream] at hresult htwin
        cases hstream' : policyStream ctx obs read' ctx.lib.repr metric with
        | ok stream' => rw [hstream'] at htwin; cases htwin
        | error e' =>
          rw [hstream'] at htwin
          cases htwin
          exact ⟨result, hresult, .inl hfailed⟩
      | ok stream =>
        rw [hstream] at hresult htwin
        cases hstream' : policyStream ctx obs read' ctx.lib.repr metric with
        | error e' => rw [hstream'] at htwin; cases htwin
        | ok stream' =>
          rw [hstream'] at htwin
          cases htwin with
          | given hlonger =>
          rcases hlonger with rfl | ⟨hnot, hsub⟩
          · exact ⟨result, hresult, .inl hfailed⟩
          · exact judgePolicy_extended hnot hsub hresult hfailed

end

/-! ### Side effects -/

section
variable {ctx : Context} {obs : Observation} {metric : SideEffectMetric} {inputs inputs' : SideEffectInputs}

/-- The metric fails only by what is found. -/
theorem judgeSideEffects_failed (h : (judgeSideEffects ctx obs metric inputs).Failed) :
    ∃ item ∈ sideEffectItems ctx.lib obs inputs.logs, Hits ctx.lib metric.forbid (effectiveTimeout ctx none) item := by
  unfold judgeSideEffects at h
  simp only at h
  split at h
  · cases h.1
  · cases h.1
  · rename_i entries hentries
    refine (keysOf_hit_iff hentries).1 (fun hnone => ?_)
    rw [hnone] at h
    -- Where nothing is found, no case of the clean verdict is a failure.
    unfold cleanVerdict at h
    simp only at h
    split at h
    · cases h.1
    · split at h
      · cases h.1
      · split at h
        · cases h.1
        · split at h
          · cases h.1
          · cases h.2

theorem judgeSideEffects_extended (hsub : sideEffectItems ctx.lib obs inputs.logs ⊆ sideEffectItems ctx.lib obs inputs'.logs)
    (h : (judgeSideEffects ctx obs metric inputs).Failed) :
    (judgeSideEffects ctx obs metric inputs').Failed ∨ (judgeSideEffects ctx obs metric inputs').CheckerStopped := by
  obtain ⟨item, hitem, hhits⟩ := judgeSideEffects_failed h
  unfold judgeSideEffects
  simp only
  split
  · exact .inr ⟨rfl, .inl rfl⟩
  · exact .inr ⟨rfl, .inr rfl⟩
  · rename_i entries hentries
    have hne := (keysOf_hit_iff hentries).2 ⟨item, hsub hitem, hhits⟩
    cases hhit : entries.filter (fun entry => !entry.2.isEmpty) with
    | nil => exact absurd hhit hne
    | cons hit hits => exact .inl ⟨rfl, rfl⟩

theorem side_effect_failure_stable {read read' : String → Except LogFailure ReadLog} (hread : Extended read read')
    (h : (evaluateNoSideEffectWith ctx obs read metric).Failed) :
    (evaluateNoSideEffectWith ctx obs read' metric).Failed ∨ (evaluateNoSideEffectWith ctx obs read' metric).CheckerStopped := by
  have htwin := @inputs_twin ctx metric ReadLog.Extends read read' hread
  unfold evaluateNoSideEffectWith at h ⊢
  cases hinputs : sideEffectInputs ctx read metric with
  | error result =>
    rw [hinputs] at h htwin
    cases hinputs' : sideEffectInputs ctx read' metric with
    | ok inputs' => rw [hinputs'] at htwin; cases htwin
    | error result' =>
      rw [hinputs'] at htwin
      cases htwin
      exact .inl h
  | ok inputs =>
    rw [hinputs] at h htwin
    cases hinputs' : sideEffectInputs ctx read' metric with
    | error result' => rw [hinputs'] at htwin; cases htwin
    | ok inputs' =>
      rw [hinputs'] at htwin
      cases htwin with
      | given hlogs =>
      refine judgeSideEffects_extended ?_ h
      exact ((actionLogItems_sublist hlogs).append (List.Sublist.refl _)).subset

end

/-- A library whose pattern search refuses one pattern. -/
def refusingLibrary : Library :=
  { plainLibrary with
    search := fun pattern _ _ _ => if pattern = "(" then .error "missing ), unterminated subpattern at position 0" else .found true }

def shortLog : ReadLog where
  ref := { wholeRef with complete := false }
  log := {
    actions := [{ seq := 1, step := 1, action := "a", target := none, status := .succeeded, callId := none, detail := none }]
    ordered := List.pairwise_singleton _ _ }

def longerLog : ReadLog where
  ref := wholeRef
  log := {
    actions := shortLog.log.actions ++
      [{ seq := 2, step := 2, action := "b", target := none, status := .succeeded, callId := none, detail := none }]
    ordered := by decide }

def refusedPolicy : PolicyMetric :=
  { header := ⟨"policy", none⟩, log := some "log", forbid := [{ action := some "a" }, { action := some "b", pattern := some "(" }] }

theorem longer_extended : Extended (fun _ => .ok shortLog) (fun _ => .ok longerLog) := fun _ => .given ⟨_, rfl⟩

def firstForbidden : SideEffectMetric :=
  { header := ⟨"no_side_effect", none⟩, scope := ["actions"], log := some "log", forbid := [{ action := some "a" }] }

end Motte.Assertions
