import Motte.Service.JobRecords

/-! No trial result is lost or given to the wrong trial.

Each result object of a run of planned trials becomes the record of one trial or
is set aside. The two exceptions to what one would expect both come from the index
of the plan holding trial ids and `<task_key>#<repeat_index>` keys side by side,
and from fields of a payload that are read without being compared with the plan.
`trial_results_placed_iff` says on exactly which results the placement is
faithful. -/
namespace Motte.Service
open Foundation Storage

/-! ### The index of a checked plan -/

theorem asNat_natCast (n : Nat) : asNat (.num n) = some n := by
  have hpos : (0 : ℚ) ≤ n := Rat.natCast_nonneg
  simp [asNat, Rat.den_natCast, Rat.num_natCast, hpos]

theorem indexUnit_of_describes {index : Table String Json} {item : Json} {u : PlanUnit} (h : Describes item u) :
    indexUnit index item = (index.set u.trialId item).set (compositeKey u.taskKey u.repeatIndex) item := by
  simp [indexUnit, h.trialId, h.taskKey, h.repeatIndex, h.trialId_ne, asNat_natCast]

/-- What the index finds is a unit of the plan, under one of its two keys. -/
theorem foldl_indexUnit_get {items : List Json} {units : List PlanUnit} (h : List.Forall₂ Describes items units)
    {index : Table String Json} {key : String} {item : Json}
    (hget : (items.foldl indexUnit index).get key = some item) :
    index.get key = some item ∨
      ∃ u ∈ units, Describes item u ∧ (key = u.trialId ∨ key = compositeKey u.taskKey u.repeatIndex) := by
  induction h generalizing index with
  | nil => exact .inl hget
  | @cons first u rest units hu _ ih =>
    rw [List.foldl_cons, indexUnit_of_describes hu] at hget
    rcases ih hget with hset | ⟨v, hv, hitem, hkey⟩
    · rw [Table.get_set, Table.get_set] at hset
      split at hset
      · rename_i hkey
        cases hset
        exact .inr ⟨u, List.mem_cons_self, hu, .inr hkey⟩
      · split at hset
        · rename_i hkey
          cases hset
          exact .inr ⟨u, List.mem_cons_self, hu, .inl hkey⟩
        · exact .inl hset
    · exact .inr ⟨v, List.mem_cons_of_mem u hv, hitem, hkey⟩

theorem foldl_indexUnit_isSome {items : List Json} {units : List PlanUnit}
    (h : List.Forall₂ Describes items units) {index : Table String Json} {key : String}
    (hkey : (index.get key).isSome ∨ ∃ u ∈ units, key = u.trialId) :
    ((items.foldl indexUnit index).get key).isSome := by
  induction h generalizing index with
  | nil =>
    rcases hkey with hkey | ⟨u, hu, _⟩
    · exact hkey
    · cases hu
  | @cons first u rest units hu _ ih =>
    rw [List.foldl_cons, indexUnit_of_describes hu]
    apply ih
    rw [Table.get_set, Table.get_set]
    rcases hkey with hkey | ⟨v, hv, rfl⟩
    · left
      split
      · rfl
      · split
        · rfl
        · exact hkey
    · rcases List.mem_cons.1 hv with rfl | hv
      · left
        split
        · rfl
        · rw [if_pos rfl]
          rfl
      · exact .inr ⟨v, hv, rfl⟩

namespace TrialRun
variable (t : TrialRun)

theorem frozenPlanIndex_eq : frozenPlanIndex t.run = (planTrials t.run).foldl indexUnit ∅ := by
  have hobj : ∀ item ∈ planTrials t.run, item.isObj = true := by
    have h := t.describes
    generalize planTrials t.run = items at h
    generalize t.units = units at h
    induction h with
    | nil => simp
    | cons hu _ ih => simpa [hu.isObj] using ih
  rw [frozenPlanIndex, List.filter_eq_self.2 hobj]

theorem index_unit {key : String} {item : Json} (h : (frozenPlanIndex t.run).get key = some item) :
    ∃ u ∈ t.units, Describes item u ∧ (key = u.trialId ∨ key = compositeKey u.taskKey u.repeatIndex) := by
  rw [frozenPlanIndex_eq] at h
  rcases foldl_indexUnit_get t.describes h with hnone | hunit
  · cases hnone
  · exact hunit

theorem index_isSome {u : PlanUnit} (h : u ∈ t.units) : ((frozenPlanIndex t.run).get u.trialId).isSome := by
  rw [frozenPlanIndex_eq]
  exact foldl_indexUnit_isSome t.describes (.inr ⟨u, h, rfl⟩)

theorem exists_describes {u : PlanUnit} (h : u ∈ t.units) : ∃ item, Describes item u := by
  have hall := t.describes
  generalize planTrials t.run = items at hall
  generalize t.units = units at hall h
  induction hall with
  | nil => cases h
  | cons hu _ ih =>
    rcases List.mem_cons.1 h with rfl | h
    · exact ⟨_, hu⟩
    · exact ih h

theorem trialId_ne {u : PlanUnit} (h : u ∈ t.units) : u.trialId ≠ "" := (t.exists_describes h).choose_spec.trialId_ne

theorem taskKey_ne {u : PlanUnit} (h : u ∈ t.units) : u.taskKey ≠ "" := (t.exists_describes h).choose_spec.taskKey_ne

theorem unit_eq_of_trialId {u v : PlanUnit} (hu : u ∈ t.units) (hv : v ∈ t.units) (h : u.trialId = v.trialId) :
    u = v := List.inj_on_of_nodup_map t.units_distinct.1 hu hv h

theorem unit_eq_of_identity {u v : PlanUnit} (hu : u ∈ t.units) (hv : v ∈ t.units)
    (htask : u.taskKey = v.taskKey) (hrepeat : u.repeatIndex = v.repeatIndex) : u = v :=
  List.inj_on_of_nodup_map t.units_distinct.2 hu hv (Prod.ext htask hrepeat)

end TrialRun

/-! ### Where the loop puts each result -/

/-- The trials recorded once a result has been placed. -/
def Placement.recorded (byTrial : Table String TrialRecord) : Placement → Table String TrialRecord
  | .record r => byTrial.set r.trialId r
  | .quarantine _ => byTrial

def Placement.record? : Placement → Option TrialRecord
  | .record r => some r
  | .quarantine _ => none

def Placement.quarantine? : Placement → Option Unmapped
  | .record _ => none
  | .quarantine row => some row

/-- The placement of each result object, in the order of the results. -/
def placements (w : Writing) (run : Run) (byTrial : Table String TrialRecord) : List Json → List Placement
  | [] => []
  | item :: rest =>
    if item.isObj then
      placeResult w run byTrial item ::
        placements w run ((placeResult w run byTrial item).recorded byTrial) rest
    else placements w run byTrial rest

section Loop
variable {w : Writing} {run : Run}

theorem place_byTrial (c : Collected) (p : Placement) : (c.place p).byTrial = p.recorded c.byTrial := by
  cases p <;> rfl

theorem place_unmapped (c : Collected) (p : Placement) :
    (c.place p).unmapped = c.unmapped ++ p.quarantine?.toList := by
  cases p with
  | record r => simp [Collected.place, Placement.quarantine?]
  | quarantine row => rfl

@[simp] theorem trialRecord_trialId (item : Json) (a : Attribution) :
    (trialRecord w item a).trialId = a.trialId := rfl

@[simp] theorem trialRecord_taskKey (item : Json) (a : Attribution) :
    (trialRecord w item a).taskKey = a.taskKey := rfl

/-- A result is recorded only for a trial that has no record yet. -/
theorem placeResult_record {byTrial : Table String TrialRecord} {item : Json} {r : TrialRecord}
    (h : placeResult w run byTrial item = .record r) :
    ∃ a, attributeResult w (frozenPlanIndex run) item = .ok a ∧ a.taskKey ∈ caseIds run ∧
      byTrial.get a.trialId = none ∧ r = trialRecord w item a := by
  unfold placeResult at h
  split at h
  · cases h
  · rename_i a ha
    split at h
    · cases h
    · rename_i htask
      split at h
      · cases h
      · rename_i hnew
        cases h
        exact ⟨a, ha, not_not.1 htask, by simpa using hnew, rfl⟩

theorem placeResult_of_new {byTrial : Table String TrialRecord} {item : Json} {a : Attribution}
    (ha : attributeResult w (frozenPlanIndex run) item = .ok a) (htask : a.taskKey ∈ caseIds run)
    (hnew : byTrial.get a.trialId = none) : placeResult w run byTrial item = .record (trialRecord w item a) := by
  simp [placeResult, ha, htask, hnew]

theorem placements_length (byTrial : Table String TrialRecord) (items : List Json) :
    (placements w run byTrial items).length = (items.filter Json.isObj).length := by
  induction items generalizing byTrial with
  | nil => rfl
  | cons item rest ih =>
    unfold placements
    split
    · rename_i h
      rw [List.filter_cons_of_pos h, List.length_cons, List.length_cons, ih]
    · rename_i h
      rw [List.filter_cons_of_neg h, ih]

theorem collect_unmapped (c : Collected) (items : List Json) :
    (collect w run c items).unmapped =
      c.unmapped ++ (placements w run c.byTrial items).filterMap Placement.quarantine? := by
  induction items generalizing c with
  | nil => simp [collect, placements]
  | cons item rest ih =>
    unfold collect placements
    split
    · rw [ih, place_byTrial, place_unmapped, List.append_assoc]
      congr 1
      cases placeResult w run c.byTrial item <;> simp [List.filterMap_cons, Placement.quarantine?]
    · exact ih c

/-- Records are only added, each for a new trial. -/
theorem collect_byTrial (c : Collected) (items : List Json) :
    (collect w run c items).byTrial.rows =
      c.byTrial.rows ++ ((placements w run c.byTrial items).filterMap Placement.record?).map
        (fun r => (r.trialId, r)) := by
  induction items generalizing c with
  | nil => simp [collect, placements]
  | cons item rest ih =>
    unfold collect placements
    split
    · rw [ih, place_byTrial]
      cases hp : placeResult w run c.byTrial item with
      | quarantine row => simp [List.filterMap_cons, Placement.recorded, Placement.record?]
      | record r =>
        obtain ⟨a, _, _, hnew, rfl⟩ := placeResult_record hp
        have hrows := Table.rows_set_of_none (trialRecord w item a) hnew
        simp [Placement.recorded, Placement.record?, hrows]
    · exact ih c

end Loop

/-! ### Faithful placement -/

/-- The record is that of a unit of the plan. -/
structure Agrees (r : TrialRecord) (u : PlanUnit) : Prop where
  trialId : r.trialId = u.trialId
  taskKey : r.taskKey = u.taskKey
  repeatIndex : r.repeatIndex.equals (.num u.repeatIndex) = true

/-- The result names the trial, and its payload contradicts nothing the plan says of it. -/
structure Reports (w : Writing) (item : Json) (u : PlanUnit) : Prop where
  trialId : payloadText w (outputOf item) "trial_id" = u.trialId
  taskKey : (outputOf item).has "task_key" = true → (outputOf item).get "task_key" = .str u.taskKey
  repeatIndex : (outputOf item).has "repeat_index" = true →
    ((outputOf item).get "repeat_index").equals (.num u.repeatIndex) = true

/-- Each result object went to one place, and to the right one. -/
structure Placed (w : Writing) (t : TrialRun) (runId : String) (outcome : Json) (records : JobRecords) : Prop where
  returned : externalJobRecords w runId t.run outcome = .ok records
  recorded : records.trials.Perm
    ((placements w t.run ∅ (outcome.get "results").items).filterMap Placement.record?)
  unmapped : records.unmapped =
    (placements w t.run ∅ (outcome.get "results").items).filterMap Placement.quarantine?
  count : records.trials.length + records.unmapped.length =
    ((outcome.get "results").items.filter Json.isObj).length
  distinct : (records.trials.map (·.trialId)).Nodup
  agrees : ∀ r ∈ records.trials, ∃ u ∈ t.units, Agrees r u
  /-- A consistent report of a planned trial is recorded unless the trial was reported before. -/
  kept : ∀ before item after, (outcome.get "results").items = before ++ item :: after →
    ∀ u ∈ t.units, Reports w item u →
      (∃ r, .record r ∈ placements w t.run ∅ before ∧ r.trialId = u.trialId) ∨
        ∃ r, placeResult w t.run (collect w t.run ⟨∅, []⟩ before).byTrial item = .record r

/-- One of the results is attributed to the trial, and its task was selected. -/
def Reported (w : Writing) (run : Run) (results : List Json) (trialId : String) : Prop :=
  ∃ item ∈ results, item.isObj = true ∧ ∃ a, attributeResult w (frozenPlanIndex run) item = .ok a ∧
    a.taskKey ∈ caseIds run ∧ a.trialId = trialId

/-- What the attributed result says of itself fits the plan: a trial id is not just the
second key of some unit and comes with the task; a payload without trial id has no
other repeat than the unit that was found. -/
def FitsPlan (w : Writing) (item : Json) (a : Attribution) : Prop :=
  if payloadText w (outputOf item) "trial_id" = "" then
    (outputOf item).get "repeat_index" = .null ∨
      ((outputOf item).get "repeat_index").equals (a.plan.get "repeat_index") = true
  else a.plan.get "trial_id" = .str a.trialId ∧ (outputOf item).has "task_key" = true

/-- The first result of each trial fits the plan, and a consistent first report of a
planned trial carries its task, which is selected, and finds its own unit. -/
structure Fitting (w : Writing) (t : TrialRun) (results : List Json) : Prop where
  fits : ∀ before item after, results = before ++ item :: after → item.isObj = true →
    ∀ a, attributeResult w (frozenPlanIndex t.run) item = .ok a → a.taskKey ∈ caseIds t.run →
      ¬ Reported w t.run before a.trialId → FitsPlan w item a
  complete : ∀ before item after, results = before ++ item :: after → ∀ u ∈ t.units, Reports w item u →
    ¬ Reported w t.run before u.trialId →
      (outputOf item).has "task_key" = true ∧ u.taskKey ∈ caseIds t.run ∧
        ∀ plan ∈ (frozenPlanIndex t.run).get u.trialId, plan.get "trial_id" = .str u.trialId

/-! ### What attribution found -/

section Attribution
variable {w : Writing} {index : Table String Json} {item : Json} {a : Attribution}

theorem attributeResult_named (h : attributeResult w index item = .ok a)
    (hid : payloadText w (outputOf item) "trial_id" ≠ "") :
    a.trialId = payloadText w (outputOf item) "trial_id" ∧
      a.taskKey = payloadText w (outputOf item) "task_key" ∧ index.get a.trialId = some a.plan ∧
      mismatches (outputOf item) a.plan = [] := by
  unfold attributeResult at h
  rw [if_pos hid] at h
  unfold attributeNamed at h
  split at h
  · cases h
  · rename_i plan hplan
    split at h
    · rename_i hm
      cases h
      exact ⟨rfl, rfl, hplan, hm⟩
    · cases h

theorem attributeResult_unnamed (h : attributeResult w index item = .ok a)
    (hid : payloadText w (outputOf item) "trial_id" = "") :
    (∃ key, index.get key = some a.plan) ∧ a.trialId = w.text (a.plan.get "trial_id") ∧
      a.taskKey = w.text (a.plan.get "task_key") := by
  unfold attributeResult at h
  rw [if_neg (not_not.2 hid)] at h
  simp only [attributeByKey] at h
  split at h
  · cases h
  · rename_i plan hplan
    cases h
    refine ⟨?_, rfl, rfl⟩
    rcases Option.or_eq_some_iff.1 hplan with hkey | ⟨_, hkey⟩
    · exact ⟨_, hkey⟩
    · exact ⟨_, hkey⟩

theorem mismatches_eq_nil {payload plan : Json} :
    mismatches payload plan = [] ↔
      (payload.has "task_key" = true → (payload.get "task_key").equals (plan.get "task_key") = true) ∧
      (payload.has "repeat_index" = true →
        (payload.get "repeat_index").equals (plan.get "repeat_index") = true) := by
  simp [mismatches, List.filter_eq_nil_iff]

theorem get_of_not_has {j : Json} {key : String} (h : j.has key = false) : j.get key = .null := by
  unfold Json.has at h
  unfold Json.get
  split
  · simp only [Option.isSome_eq_false_iff, Option.isNone_iff_eq_none] at h
    rw [h]
    rfl
  · rfl

theorem get_null_of_not_has {j : Json} {key : String} (h : j.get key ≠ .null) : j.has key = true := by
  by_contra hno
  exact h (get_of_not_has (by simpa using hno))

theorem payloadText_of_get {payload : Json} {key text : String} (h : payload.get key = .str text)
    (hne : text ≠ "") : payloadText w payload key = text := by
  have hpayload : payload.truthy = true := by
    cases payload with
    | obj members => cases members with
      | nil => cases h
      | cons m rest => rfl
    | _ => cases h
  have htext : (Json.str text).truthy = true := by simp [Json.truthy, hne]
  rw [payloadText, if_pos hpayload, h, Json.or, if_pos htext, w.text_str]

theorem payloadText_of_not_has {payload : Json} {key : String} (h : payload.has key = false) :
    payloadText w payload key = "" := by
  unfold payloadText
  split
  · rw [get_of_not_has h]
    exact w.text_str ""
  · rfl

end Attribution

/-- The repeat of a record: the payload's, or else the plan's. -/
theorem trialRecord_repeatIndex (w : Writing) (item : Json) (a : Attribution) :
    (trialRecord w item a).repeatIndex =
      if (outputOf item).get "repeat_index" = .null then a.plan.get "repeat_index"
      else (outputOf item).get "repeat_index" := by
  simp only [trialRecord]
  by_cases hp : (outputOf item).truthy = true
  · rw [if_pos hp]
  · have hnull : (outputOf item).get "repeat_index" = .null := by
      unfold outputOf at hp ⊢
      split at hp
      · rw [if_pos ‹_›]
        cases hout : item.get "output" with
        | obj members => cases members with
          | nil => rfl
          | cons m rest => simp [hout, Json.truthy] at hp
        | _ => rfl
      · rw [if_neg ‹_›]
        rfl
    rw [if_neg hp, if_pos hnull]
    split
    · rfl
    · rfl

section Fit
variable {w : Writing} {t : TrialRun} {item : Json} {a : Attribution}

/-- An attributed result makes the record of a unit exactly when it fits the plan. -/
theorem agrees_iff_fitsPlan (h : attributeResult w (frozenPlanIndex t.run) item = .ok a) :
    (∃ u ∈ t.units, Agrees (trialRecord w item a) u) ↔ FitsPlan w item a := by
  unfold FitsPlan
  split
  · rename_i hid
    obtain ⟨⟨key, hkey⟩, htrial, htask⟩ := attributeResult_unnamed h hid
    obtain ⟨u, hu, hplan, _⟩ := t.index_unit hkey
    rw [hplan.trialId, w.text_str] at htrial
    rw [hplan.taskKey, w.text_str] at htask
    rw [hplan.repeatIndex]
    constructor
    · rintro ⟨v, hv, hagree⟩
      have huv : u = v := t.unit_eq_of_trialId hu hv (by rw [← htrial, ← hagree.trialId]; rfl)
      have hrepeat := hagree.repeatIndex
      rw [trialRecord_repeatIndex] at hrepeat
      split at hrepeat
      · left
        assumption
      · right
        rw [huv]
        exact hrepeat
    · intro hrepeat
      refine ⟨u, hu, htrial, htask, ?_⟩
      rw [trialRecord_repeatIndex, hplan.repeatIndex]
      split
      · simp [Json.equals, Json.number?]
      · rename_i hne
        exact hrepeat.resolve_left hne
  · rename_i hid
    obtain ⟨_, htask, hkey, hm⟩ := attributeResult_named h hid
    obtain ⟨u, hu, hplan, _⟩ := t.index_unit hkey
    rw [mismatches_eq_nil, hplan.taskKey, hplan.repeatIndex, Json.equals_str] at hm
    have hrepeat : (trialRecord w item a).repeatIndex.equals (.num u.repeatIndex) = true := by
      rw [trialRecord_repeatIndex, hplan.repeatIndex]
      split
      · simp [Json.equals, Json.number?]
      · rename_i hne
        exact hm.2 (get_null_of_not_has hne)
    rw [hplan.trialId]
    constructor
    · rintro ⟨v, hv, hagree⟩
      have hhas : (outputOf item).has "task_key" = true := by
        by_contra hno
        have hempty := payloadText_of_not_has (w := w) (Bool.eq_false_iff.2 hno)
        have hv' : v.taskKey = "" := by rw [← hagree.taskKey, trialRecord_taskKey, htask, hempty]
        exact t.taskKey_ne hv hv'
      have htask' : u.taskKey = v.taskKey := by
        rw [← hagree.taskKey, trialRecord_taskKey, htask, payloadText_of_get (hm.1 hhas) hplan.taskKey_ne]
      have hsame : u.repeatIndex = v.repeatIndex := by
        have h1 := Json.equals_num.1 hrepeat
        have h2 := Json.equals_num.1 hagree.repeatIndex
        rw [h1] at h2
        exact Rat.natCast_inj.1 (Option.some.inj h2)
      have huv := t.unit_eq_of_identity hu hv htask' hsame
      exact ⟨by rw [huv, ← hagree.trialId]; rfl, hhas⟩
    · rintro ⟨htrial, hhas⟩
      refine ⟨u, hu, (Json.str.inj htrial).symm, ?_, hrepeat⟩
      rw [trialRecord_taskKey, htask, payloadText_of_get (hm.1 hhas) hplan.taskKey_ne]

/-- A consistent report of a planned trial is attributed to it when it carries the task
and finds its own unit. -/
theorem attributeResult_of_reports {u : PlanUnit} (hu : u ∈ t.units) (h : Reports w item u)
    (hhas : (outputOf item).has "task_key" = true)
    (hown : ∀ plan ∈ (frozenPlanIndex t.run).get u.trialId, plan.get "trial_id" = .str u.trialId) :
    ∃ plan, attributeResult w (frozenPlanIndex t.run) item = .ok ⟨u.trialId, u.taskKey, plan⟩ := by
  obtain ⟨plan, hplan⟩ := Option.isSome_iff_exists.1 (t.index_isSome hu)
  obtain ⟨v, hv, hdescribes, _⟩ := t.index_unit hplan
  have hvu : v = u := by
    have hid := hown plan hplan
    rw [hdescribes.trialId] at hid
    exact t.unit_eq_of_trialId hv hu (Json.str.inj hid)
  subst hvu
  have hm : mismatches (outputOf item) plan = [] := by
    rw [mismatches_eq_nil, hdescribes.taskKey, hdescribes.repeatIndex, Json.equals_str]
    exact ⟨h.taskKey, h.repeatIndex⟩
  refine ⟨plan, ?_⟩
  rw [attributeResult, if_pos (by rw [h.trialId]; exact hdescribes.trialId_ne), attributeNamed, h.trialId,
    payloadText_of_get (h.taskKey hhas) hdescribes.taskKey_ne]
  simp only [hplan, if_pos hm]
  rfl

theorem isObj_of_reports {u : PlanUnit} (hu : u ∈ t.units) (h : Reports w item u) : item.isObj = true := by
  have hne : payloadText w (outputOf item) "trial_id" ≠ "" := h.trialId ▸ t.trialId_ne hu
  cases item with
  | obj members => rfl
  | _ => exact absurd rfl hne

end Fit

/-! ### The trials that have a record -/

section Recorded
variable {w : Writing} {run : Run}

theorem reported_append {a b : List Json} {trialId : String} :
    Reported w run (a ++ b) trialId ↔ Reported w run a trialId ∨ Reported w run b trialId := by
  simp only [Reported, List.mem_append, or_and_right, exists_or]

/-- A trial has a record exactly when some result so far was attributed to it. -/
theorem collect_get_isSome (c : Collected) (items : List Json) (trialId : String) :
    ((collect w run c items).byTrial.get trialId).isSome ↔
      (c.byTrial.get trialId).isSome ∨ Reported w run items trialId := by
  induction items generalizing c with
  | nil => simp [collect, Reported]
  | cons item rest ih =>
    rw [← List.singleton_append, reported_append, List.singleton_append]
    unfold collect
    split
    · rename_i hobj
      rw [ih, place_byTrial, ← or_assoc]
      apply or_congr_left
      cases hp : placeResult w run c.byTrial item with
      | record r =>
        obtain ⟨a, ha, htask, _, rfl⟩ := placeResult_record hp
        simp only [Placement.recorded, trialRecord_trialId, Table.get_set]
        split
        · rename_i heq
          simp only [Option.isSome_some, true_iff]
          exact .inr ⟨item, List.mem_singleton_self item, hobj, a, ha, htask, heq.symm⟩
        · rename_i hne
          constructor
          · exact .inl
          · rintro (hsome | ⟨item', hmem, _, a', ha', _, heq⟩)
            · exact hsome
            · rw [List.mem_singleton.1 hmem, ha] at ha'
              cases ha'
              exact absurd heq.symm hne
      | quarantine row =>
        simp only [Placement.recorded]
        constructor
        · exact .inl
        · rintro (hsome | ⟨item', hmem, _, a', ha', htask, rfl⟩)
          · exact hsome
          · rw [List.mem_singleton.1 hmem] at ha'
            by_contra hno
            rw [placeResult_of_new ha' htask (by simpa using hno)] at hp
            cases hp
    · rename_i hobj
      rw [ih]
      apply or_congr_right
      constructor
      · exact .inr
      · rintro (⟨item', hmem, hobj', _⟩ | hrest)
        · rw [List.mem_singleton.1 hmem] at hobj'
          exact absurd hobj' hobj
        · exact hrest

theorem collect_get_eq_none {items : List Json} {trialId : String} :
    (collect w run ⟨∅, []⟩ items).byTrial.get trialId = none ↔ ¬ Reported w run items trialId := by
  rw [← Option.not_isSome_iff_eq_none, collect_get_isSome]
  simp

theorem record_mem_iff_reported {items : List Json} {trialId : String} :
    (∃ r, .record r ∈ placements w run ∅ items ∧ r.trialId = trialId) ↔ Reported w run items trialId := by
  have hsome : ((collect w run ⟨∅, []⟩ items).byTrial.get trialId).isSome ↔ Reported w run items trialId := by
    rw [collect_get_isSome]
    simp
  rw [← hsome, ← Option.ne_none_iff_isSome, ne_eq, Table.get_eq_none_iff, not_not, collect_byTrial]
  simp only [List.mem_map, List.mem_append, List.mem_filterMap]
  constructor
  · rintro ⟨r, hr, rfl⟩
    exact ⟨(r.trialId, r), .inr ⟨r, ⟨_, hr, rfl⟩, rfl⟩, rfl⟩
  · rintro ⟨row, hrow | ⟨r, ⟨p, hp, hpr⟩, rfl⟩, rfl⟩
    · cases hrow
    · cases p with
      | record r' =>
        cases hpr
        exact ⟨r, hp, rfl⟩
      | quarantine row => cases hpr

/-- Every record stands in the list of placements at the result it came from. -/
theorem mem_placements_record {items : List Json} {r : TrialRecord}
    (h : .record r ∈ placements w run ∅ items) :
    ∃ before item after, items = before ++ item :: after ∧ item.isObj = true ∧
      placeResult w run (collect w run ⟨∅, []⟩ before).byTrial item = .record r := by
  have general : ∀ (c : Collected) (items : List Json), .record r ∈ placements w run c.byTrial items →
      ∃ before item after, items = before ++ item :: after ∧ item.isObj = true ∧
        placeResult w run (collect w run c before).byTrial item = .record r := by
    intro c items h
    induction items generalizing c with
    | nil => cases h
    | cons item rest ih =>
      unfold placements at h
      split at h
      · rename_i hobj
        rcases List.mem_cons.1 h with heq | h
        · exact ⟨[], item, rest, rfl, hobj, heq.symm⟩
        · rw [← place_byTrial] at h
          obtain ⟨before, item', after, rfl, hobj', hp⟩ := ih _ h
          exact ⟨item :: before, item', after, rfl, hobj', by rw [collect, if_pos hobj]; exact hp⟩
      · rename_i hobj
        obtain ⟨before, item', after, rfl, hobj', hp⟩ := ih _ h
        exact ⟨item :: before, item', after, rfl, hobj', by rw [collect, if_neg hobj]; exact hp⟩
  exact general ⟨∅, []⟩ items h

/-- The placement of a result stands in the list of placements. -/
theorem placeResult_mem_placements {items before after : List Json} {item : Json}
    (h : items = before ++ item :: after) (hobj : item.isObj = true) :
    placeResult w run (collect w run ⟨∅, []⟩ before).byTrial item ∈ placements w run ∅ items := by
  have general : ∀ c : Collected, placeResult w run (collect w run c before).byTrial item ∈
      placements w run c.byTrial (before ++ item :: after) := by
    induction before generalizing items with
    | nil =>
      intro c
      rw [List.nil_append, placements, if_pos hobj]
      exact List.mem_cons_self
    | cons first rest ih =>
      intro c
      rw [List.cons_append]
      unfold placements collect
      split
      · rw [← place_byTrial]
        exact List.mem_cons_of_mem _ (ih rfl _)
      · exact ih rfl c
  rw [h]
  exact general ⟨∅, []⟩

end Recorded

/-! ### Sorting -/

theorem order_number {r : TrialRecord} {u : PlanUnit} (h : Agrees r u) : r.order.number? = some (u.repeatIndex : ℚ) := by
  have hn := Json.equals_num.1 h.repeatIndex
  unfold TrialRecord.order Json.or
  split
  · exact hn
  · rename_i hfalsy
    rw [← hn]
    cases hr : r.repeatIndex <;> simp_all [Json.truthy, Json.number?]

theorem less?_isSome {a b : Json} {p q : ℚ} (ha : a.number? = some p) (hb : b.number? = some q) :
    (a.less? b).isSome := by
  cases a <;> cases b <;> simp_all [Json.number?, Json.less?]

theorem before?_isSome {a b : TrialRecord} {u v : PlanUnit} (ha : Agrees a u) (hb : Agrees b v) :
    (a.before? b).isSome := by
  unfold TrialRecord.before?
  split
  · split
    · rfl
    · exact less?_isSome (order_number ha) (order_number hb)
  · rfl

/-- Trials of the plan can be sorted. -/
theorem sortTrials_of_agrees {records : List TrialRecord} {units : List PlanUnit}
    (h : ∀ r ∈ records, ∃ u ∈ units, Agrees r u) :
    ∃ sorted, sortTrials records = .ok sorted ∧ sorted.Perm records := by
  have hcomparable : records.Pairwise (fun a b => (a.before? b).isSome ∧ (b.before? a).isSome) := by
    apply List.pairwise_of_forall_mem_list
    intro a ha b hb
    obtain ⟨u, _, hu⟩ := h a ha
    obtain ⟨v, _, hv⟩ := h b hb
    exact ⟨before?_isSome hu hv, before?_isSome hv hu⟩
  refine ⟨records.mergeSort (fun a b => b.before? a ≠ some true), ?_, List.mergeSort_perm records _⟩
  rw [sortTrials, ensure, if_pos hcomparable]
  rfl

/-! ### When placement is faithful -/

section Main
variable {w : Writing} {run : Run} {t : TrialRun} {results : List Json}

/-- The records of the loop, in the order of the results. -/
theorem collect_records :
    (collect w run ⟨∅, []⟩ results).byTrial.rows.map (·.2) =
      (placements w run ∅ results).filterMap Placement.record? := by
  rw [collect_byTrial]
  show ([] ++ _ : List (String × TrialRecord)).map _ = _
  rw [List.nil_append, List.map_map]
  exact List.map_id' _

theorem collect_trialIds :
    ((placements w run ∅ results).filterMap Placement.record?).map (·.trialId) =
      (collect w run ⟨∅, []⟩ results).byTrial.rows.map (·.1) := by
  rw [collect_byTrial]
  show _ = ([] ++ _ : List (String × TrialRecord)).map _
  rw [List.nil_append, List.map_map]
  rfl

theorem filterMap_lengths (ps : List Placement) :
    (ps.filterMap Placement.record?).length + (ps.filterMap Placement.quarantine?).length = ps.length := by
  induction ps with
  | nil => rfl
  | cons p ps ih =>
    cases p with
    | record r =>
      simp only [List.filterMap_cons, Placement.record?, Placement.quarantine?, List.length_cons]
      omega
    | quarantine row =>
      simp only [List.filterMap_cons, Placement.record?, Placement.quarantine?, List.length_cons]
      omega

theorem mem_records {r : TrialRecord} :
    r ∈ (placements w run ∅ results).filterMap Placement.record? ↔ .record r ∈ placements w run ∅ results := by
  rw [List.mem_filterMap]
  constructor
  · rintro ⟨p, hp, hr⟩
    cases p with
    | record r' =>
      cases hr
      exact hp
    | quarantine row => cases hr
  · intro hr
    exact ⟨_, hr, rfl⟩

theorem agrees_of_fitting (h : Fitting w t results) :
    ∀ r ∈ (placements w t.run ∅ results).filterMap Placement.record?, ∃ u ∈ t.units, Agrees r u := by
  intro r hr
  obtain ⟨before, item, after, hsplit, hobj, hp⟩ := mem_placements_record (mem_records.1 hr)
  obtain ⟨a, ha, htask, hnew, rfl⟩ := placeResult_record hp
  rw [agrees_iff_fitsPlan ha]
  exact h.fits before item after hsplit hobj a ha htask (collect_get_eq_none.1 hnew)

theorem externalJobRecords_trial (shaped : trialShaped run = true) {runId : String} {outcome : Json}
    {records : JobRecords} :
    externalJobRecords w runId run outcome = .ok records ↔
      ∃ trials, sortTrials ((placements w run ∅ (outcome.get "results").items).filterMap Placement.record?) =
          .ok trials ∧
        records = ⟨trials, taskCaseRows w runId (caseIds run) trials,
          (placements w run ∅ (outcome.get "results").items).filterMap Placement.quarantine?⟩ := by
  rw [externalJobRecords, if_pos shaped]
  simp only [except_bind_ok_iff, except_pure_ok_iff, collect_records, collect_unmapped, List.nil_append,
    @eq_comm JobRecords records]

end Main

/-- For every run of planned trials and every list of results: placement is faithful if
and only if the results fit the plan. -/
theorem trial_results_placed_iff (w : Writing) (t : TrialRun) (runId : String) (outcome : Json) :
    (∃ records, Placed w t runId outcome records) ↔ Fitting w t (outcome.get "results").items := by
  constructor
  · rintro ⟨records, h⟩
    have hagrees : ∀ r, .record r ∈ placements w t.run ∅ (outcome.get "results").items →
        ∃ u ∈ t.units, Agrees r u := by
      intro r hr
      exact h.agrees r (h.recorded.mem_iff.2 (mem_records.2 hr))
    refine ⟨?_, ?_⟩
    · intro before item after hsplit hobj a ha htask hnew
      have hplace := placeResult_of_new ha htask (collect_get_eq_none.2 hnew)
      have hmem : placeResult w t.run (collect w t.run ⟨∅, []⟩ before).byTrial item ∈ _ :=
        placeResult_mem_placements hsplit hobj
      rw [hplace] at hmem
      exact (agrees_iff_fitsPlan ha).1 (hagrees _ hmem)
    · intro before item after hsplit u hu hreports hnew
      have hobj := isObj_of_reports hu hreports
      rcases h.kept before item after hsplit u hu hreports with hearlier | ⟨r, hr⟩
      · exact absurd (record_mem_iff_reported.1 hearlier) hnew
      · have hmem : placeResult w t.run (collect w t.run ⟨∅, []⟩ before).byTrial item ∈ _ :=
          placeResult_mem_placements hsplit hobj
        rw [hr] at hmem
        obtain ⟨a, ha, htask, _, rfl⟩ := placeResult_record hr
        have hne : payloadText w (outputOf item) "trial_id" ≠ "" := hreports.trialId ▸ t.trialId_ne hu
        obtain ⟨hid, hkey, hplan, _⟩ := attributeResult_named ha hne
        have hfits := (agrees_iff_fitsPlan ha).1 (hagrees _ hmem)
        rw [FitsPlan, if_neg hne] at hfits
        rw [hid, hreports.trialId] at hfits hplan
        refine ⟨hfits.2, ?_, ?_⟩
        · rwa [hkey, payloadText_of_get (hreports.taskKey hfits.2) (t.taskKey_ne hu)] at htask
        · intro plan hfound
          rw [hplan] at hfound
          cases hfound
          exact hfits.1
  · intro h
    have hagrees := agrees_of_fitting h
    obtain ⟨trials, hsort, hperm⟩ := sortTrials_of_agrees hagrees
    refine ⟨_, ⟨(externalJobRecords_trial t.shaped).2 ⟨trials, hsort, rfl⟩, hperm, rfl, ?_, ?_, ?_, ?_⟩⟩
    · rw [hperm.length_eq, filterMap_lengths, placements_length]
    · rw [(hperm.map _).nodup_iff, collect_trialIds]
      exact (collect w t.run ⟨∅, []⟩ _).byTrial.nodup
    · intro r hr
      exact hagrees r (hperm.mem_iff.1 hr)
    · intro before item after hsplit u hu hreports
      by_cases hnew : Reported w t.run before u.trialId
      · exact .inl (record_mem_iff_reported.2 hnew)
      · obtain ⟨hhas, hselected, hown⟩ := h.complete before item after hsplit u hu hreports hnew
        obtain ⟨plan, ha⟩ := attributeResult_of_reports hu hreports hhas hown
        exact .inr ⟨_, placeResult_of_new ha hselected (collect_get_eq_none.2 hnew)⟩

/-! ### A report that is lost -/

/-- A run with one planned trial. -/
def oneTrialRun : TrialRun where
  run := {
    id := "run"
    status := some "scoring"
    revision := 1
    schemaVersion := 2
    fields := ((∅ : Fields).insert "case_ids" (.arr [.str "task"])).insert "manifest" (.obj [("external_benchmark",
      .obj [("runner_config", .obj [("plan", .obj [("trials", .arr [.obj [("agent_config_hash", .str "agent"),
        ("environment_hash", .str "environment"), ("repeat_index", .num 0), ("run_id", .str "run"),
        ("task_key", .str "task"), ("trial_id", .str "trial")]])])])])]) }
  shaped := by decide
  stored _ := none
  units := [⟨"trial", "run", "task", 0⟩]
  validated := by decide +kernel

/-- A payload that names its trial and nothing else. -/
def bareReport : Json := .obj [("output", .obj [("trial_id", .str "trial")])]

/-- The report of a planned trial that leaves out the task is set aside, though it
contradicts nothing and is the first of its trial. -/
theorem bare_report_set_aside :
    ¬ ∃ records, Placed plainWriting oneTrialRun "run" (.obj [("results", .arr [bareReport])]) records := by
  rintro ⟨records, h⟩
  have hreports : Reports plainWriting bareReport ⟨"trial", "run", "task", 0⟩ := by
    constructor <;> decide +kernel
  rcases h.kept [] bareReport [] rfl ⟨"trial", "run", "task", 0⟩ (by decide) hreports with ⟨r, hr, _⟩ | ⟨r, hr⟩
  · cases hr
  · have haside : placeResult plainWriting oneTrialRun.run ∅ bareReport =
        .quarantine ⟨.str "", .null, .null⟩ := by decide +kernel
    rw [collect, haside] at hr
    cases hr

end Motte.Service
