import Motte.Service.Record

/-! The plan of trials frozen in a run's manifest.

A trial is one repeat of one task. Before a run is created every unit of its plan
is checked: the identity fields are there, and no two units share a trial id or a
task and repeat. A `TrialRun` is a run that went through that check. While results
come in, units are found by their trial id or by `<task_key>#<repeat_index>` in one
index. -/
namespace Motte.Service
open Foundation Storage

/-- The identity a plan gives one trial. -/
structure PlanUnit where
  trialId : String
  runId : String
  taskKey : String
  repeatIndex : Nat
deriving DecidableEq

def requireText (plan : Json) (field : String) : Except Exn String :=
  match plan.get field with
  | .str text => do
    ensure (text ≠ "") (.value ("trial plan requires a nonempty string " ++ field))
    return text
  | _ => throw (.value ("trial plan requires a nonempty string " ++ field))

def requireRepeat (plan : Json) : Except Exn Nat :=
  match plan.get "repeat_index" with
  | .num q => do
    ensure (q.den = 1 ∧ 0 ≤ q) (.value "trial plan requires a non-negative integer repeat_index")
    return q.num.toNat
  | _ => throw (.value "trial plan requires a non-negative integer repeat_index")

/-- `validate_plan` -/
def validatePlan (plan : Json) : Except Exn PlanUnit := do
  let trialId ← requireText plan "trial_id"
  let runId ← requireText plan "run_id"
  let taskKey ← requireText plan "task_key"
  let repeatIndex ← requireRepeat plan
  let _ ← requireText plan "agent_config_hash"
  let _ ← requireText plan "environment_hash"
  return ⟨trialId, runId, taskKey, repeatIndex⟩

/-- The raw units of the frozen plan. -/
def planTrials (run : Run) : List Json := ((runnerPlan run).get "trials").items

/-- The units are of this run, distinct, and agree with what `stored` holds. -/
def checkUnits (stored : String → Option Json) (runId : String) :
    List (Json × PlanUnit) → List String → List (String × Nat) → Except Exn Unit
  | [], _, _ => return ()
  | (plan, u) :: rest, seen, units => do
    ensure (u.runId = runId) (.value "frozen trial plan run_id does not match the current Run")
    ensure (u.trialId ∉ seen ∧ (u.taskKey, u.repeatIndex) ∉ units)
      (.value "frozen trial plan contains a duplicate trial identity")
    ensure (∀ existing ∈ stored u.trialId, existing.get "run_id" = .str runId ∧ existing.get "plan" = plan)
      (.conflict ("frozen trial plan conflicts with stored plan: " ++ u.trialId))
    checkUnits stored runId rest (u.trialId :: seen) ((u.taskKey, u.repeatIndex) :: units)

/-- `validate_frozen_trial_plans`, against the trial records stored so far. -/
def validateFrozenTrialPlans (stored : String → Option Json) (run : Run) : Except Exn (List PlanUnit) := do
  let units ← (planTrials run).mapM validatePlan
  checkUnits stored run.id ((planTrials run).zip units) [] []
  return units

/-- A run of planned trials: its plan passed the check that `create_run` makes. -/
structure TrialRun where
  run : Run
  shaped : trialShaped run = true
  stored : String → Option Json
  units : List PlanUnit
  validated : validateFrozenTrialPlans stored run = .ok units

/-- The second key of a unit. -/
def compositeKey (taskKey : String) (repeatIndex : Nat) : String := taskKey ++ "#" ++ toString repeatIndex

/-- A whole number, as the index reads it. -/
def asNat (j : Json) : Option Nat :=
  match j with
  | .num q => if q.den = 1 ∧ 0 ≤ q then some q.num.toNat else none
  | _ => none

/-- The entries one unit adds to the index, the later over the earlier. -/
def indexUnit (index : Table String Json) (item : Json) : Table String Json :=
  let byId := match item.get "trial_id" with
    | .str trialId => if trialId ≠ "" then index.set trialId item else index
    | _ => index
  match item.get "task_key", asNat (item.get "repeat_index") with
  | .str taskKey, some repeatIndex => byId.set (compositeKey taskKey repeatIndex) item
  | _, _ => byId

/-- `_frozen_plan_index` -/
def frozenPlanIndex (run : Run) : Table String Json :=
  ((planTrials run).filter Json.isObj).foldl indexUnit ∅

/-! ### What a checked plan guarantees -/

/-- The raw unit carries the identity. -/
structure Describes (item : Json) (u : PlanUnit) : Prop where
  trialId : item.get "trial_id" = .str u.trialId
  taskKey : item.get "task_key" = .str u.taskKey
  repeatIndex : item.get "repeat_index" = .num u.repeatIndex
  trialId_ne : u.trialId ≠ ""
  taskKey_ne : u.taskKey ≠ ""

theorem requireText_ok {plan : Json} {field text : String} (h : requireText plan field = .ok text) :
    plan.get field = .str text ∧ text ≠ "" := by
  unfold requireText at h
  split at h
  · rename_i t ht
    simp only [except_bind_ok_iff, ensure_ok_iff, except_pure_ok_iff, exists_const] at h
    rw [← h.2]
    exact ⟨ht, h.1⟩
  · cases h

theorem requireRepeat_ok {plan : Json} {n : Nat} (h : requireRepeat plan = .ok n) :
    plan.get "repeat_index" = .num n := by
  unfold requireRepeat at h
  split at h
  · rename_i q hq
    simp only [except_bind_ok_iff, ensure_ok_iff, except_pure_ok_iff, exists_const] at h
    obtain ⟨⟨hden, hpos⟩, rfl⟩ := h
    rw [hq]
    congr 1
    have hnum : (q.num.toNat : ℤ) = q.num := Int.toNat_of_nonneg (Rat.num_nonneg.2 hpos)
    have hq' : (q.num : ℚ) = q := Rat.coe_int_num_of_den_eq_one hden
    calc q = ((q.num.toNat : ℤ) : ℚ) := by rw [hnum, hq']
      _ = (q.num.toNat : ℚ) := Rat.intCast_natCast _
  · cases h

theorem validatePlan_ok {plan : Json} {u : PlanUnit} (h : validatePlan plan = .ok u) : Describes plan u := by
  simp only [validatePlan, except_bind_ok_iff, except_pure_ok_iff] at h
  obtain ⟨trialId, hid, _, _, taskKey, htask, repeatIndex, hrepeat, _, _, _, _, rfl⟩ := h
  exact ⟨(requireText_ok hid).1, (requireText_ok htask).1, requireRepeat_ok hrepeat, (requireText_ok hid).2,
    (requireText_ok htask).2⟩

theorem Describes.isObj {item : Json} {u : PlanUnit} (h : Describes item u) : item.isObj = true := by
  have hid := h.trialId
  cases item <;> first | rfl | cases hid

theorem checkUnits_ok {stored : String → Option Json} {runId : String} {rows : List (Json × PlanUnit)}
    {seen : List String} {units : List (String × Nat)} {x : Unit}
    (h : checkUnits stored runId rows seen units = .ok x) :
    (∀ row ∈ rows, row.2.trialId ∉ seen ∧ (row.2.taskKey, row.2.repeatIndex) ∉ units) ∧
      (rows.map (·.2.trialId)).Nodup ∧ (rows.map (fun row => (row.2.taskKey, row.2.repeatIndex))).Nodup := by
  induction rows generalizing seen units with
  | nil => simp
  | cons row rest ih =>
    obtain ⟨plan, u⟩ := row
    simp only [checkUnits, except_bind_ok_iff, ensure_ok_iff, exists_const] at h
    obtain ⟨_, hnew, _, h⟩ := h
    obtain ⟨hrest, hids, hkeys⟩ := ih h
    refine ⟨?_, ?_, ?_⟩
    · intro row hrow
      rcases List.mem_cons.1 hrow with rfl | hrow
      · exact hnew
      · have := hrest row hrow
        simp only [List.mem_cons, not_or] at this
        exact ⟨this.1.2, this.2.2⟩
    · rw [List.map_cons, List.nodup_cons]
      refine ⟨?_, hids⟩
      intro hmem
      obtain ⟨row, hrow, heq⟩ := List.mem_map.1 hmem
      exact (hrest row hrow).1 (heq ▸ List.mem_cons_self)
    · rw [List.map_cons, List.nodup_cons]
      refine ⟨?_, hkeys⟩
      intro hmem
      obtain ⟨row, hrow, heq⟩ := List.mem_map.1 hmem
      exact (hrest row hrow).2 (heq ▸ List.mem_cons_self)

namespace TrialRun
variable (t : TrialRun)

theorem describes : List.Forall₂ Describes (planTrials t.run) t.units := by
  have h := t.validated
  simp only [validateFrozenTrialPlans, except_bind_ok_iff, except_pure_ok_iff] at h
  obtain ⟨units, hunits, _, _, rfl⟩ := h
  exact (mapM_ok hunits).imp (fun _ _ => validatePlan_ok)

/-- No two units share a trial id, and no two a task and repeat. -/
theorem units_distinct :
    (t.units.map (·.trialId)).Nodup ∧ (t.units.map (fun u => (u.taskKey, u.repeatIndex))).Nodup := by
  have h := t.validated
  simp only [validateFrozenTrialPlans, except_bind_ok_iff, except_pure_ok_iff] at h
  obtain ⟨_, hunits, _, hcheck, rfl⟩ := h
  have hlen := (mapM_ok hunits).length_eq
  obtain ⟨_, hids, hkeys⟩ := checkUnits_ok hcheck
  have hsnd : ((planTrials t.run).zip t.units).map (·.2) = t.units := List.map_snd_zip hlen.ge
  rw [← hsnd, List.map_map, List.map_map]
  exact ⟨hids, hkeys⟩

end TrialRun

end Motte.Service
