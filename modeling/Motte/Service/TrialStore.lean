import Motte.Foundation.Run
import Motte.Service.TrialPlan

/-! The trial repository: plans and results, written once.

A plan is stored under its trial id and a result beside its plan. A second plan or
a second result for a trial is answered `identical` or `conflict` and changes
nothing, with one exception: a placeholder that the platform put in for a missing
result gives way to a result from a runner. Memory and database share the code of
both calls; they differ in how a row is written, and in what a call leaves behind
that raises halfway through a list of plans. -/
namespace Motte.Service
open Foundation Storage

/-! ### Records -/

/-- The record of a trial. Its other members are those of `plan`. -/
structure TrialRow where
  unit : PlanUnit
  plan : Json
  planHash : String
  status : String
  createdAt : String
  result : Option Json
  resultHash : Option String
  sourceHash : Option String
  parserVersion : Option String
  finishedAt : Option String
deriving DecidableEq

inductive TrialError where
  | raised (e : Exn)
  /-- `trial result identity mismatch: … != …` -/
  | mismatch (field : String) (found expected : Json)
  /-- An integer that does not fit a column of the database. -/
  | overflow (value : Nat)
deriving DecidableEq

/-- What `create_plans` reports of one plan. -/
inductive PlanAnswer where
  | created (plan : TrialRow)
  | identical (plan : TrialRow)
  | conflict (existing incoming : String × Json)
deriving DecidableEq

/-- What `put_result` reports. -/
inductive ResultAnswer where
  | unknownTrial (trialId : String)
  | identical (trialId : String) (result : Json)
  | conflict (trialId : String) (existing : Option String × Option String × Option String)
      (incoming : String × String × String)
  | replacedPlaceholder (trialId : String) (disposition synthesizedBy : Json) (resultHash : Option String) (result : Json)
  | stored (trialId : String) (result : Json)
deriving DecidableEq

/-- `validate_result`: the trial and the disposition a result names. -/
def validateResult (result : Json) : Except TrialError (String × String) := do
  let trialId ← match result.get "trial_id" with
    | .str text => do
      ensure (text ≠ "") (TrialError.raised (.value "trial result requires a nonempty string trial_id"))
      pure text
    | _ => .error (.raised (.value "trial result requires a nonempty string trial_id"))
  let disposition ← match result.get "disposition" with
    | .str text => do
      ensure (text ≠ "") (TrialError.raised (.value "trial result requires a disposition"))
      pure text
    | _ => .error (.raised (.value "trial result requires a disposition"))
  return (trialId, disposition)

/-- A member of a result that names what its trial belongs to, where the result has it. -/
def agrees (result : Json) (field : String) (expected : Json) : Prop :=
  result.has field = true → (result.get field).equals expected = true

instance (result : Json) (field : String) (expected : Json) : Decidable (agrees result field expected) :=
  inferInstanceAs (Decidable (_ → _))

/-- `_check_result_identity` -/
def checkResultIdentity (row : TrialRow) (result : Json) (trialId : String) : Except TrialError Unit := do
  ensure (result.get "trial_id" = .str trialId) (.mismatch "trial_id" (result.get "trial_id") (.str trialId))
  ensure (agrees result "run_id" (.str row.unit.runId))
    (.mismatch "run_id" (result.get "run_id") (.str row.unit.runId))
  ensure (agrees result "task_key" (.str row.unit.taskKey))
    (.mismatch "task_key" (result.get "task_key") (.str row.unit.taskKey))
  ensure (agrees result "repeat_index" (.num row.unit.repeatIndex))
    (.mismatch "repeat_index" (result.get "repeat_index") (.num row.unit.repeatIndex))

/-- `is_synthetic_result` -/
def isSyntheticResult (result : Json) : Bool := result.isObj && (result.get "synthesized_by").truthy

section Calls

-- The text of a document with its keys in order; nothing below depends on which text it is.
variable (canonical : Json → String)

/-- `_plan_record` -/
def planRecord (plan : Json) (now : String) : Except TrialError TrialRow :=
  match validatePlan plan with
  | .error e => .error (.raised e)
  | .ok unit => .ok {
      unit := unit, plan := plan, planHash := canonical plan, status := "pending", createdAt := now,
      result := none, resultHash := none, sourceHash := none, parserVersion := none, finishedAt := none }

/-- `_apply_plan`: the plan that came first stays. -/
def applyPlan (existing incoming : TrialRow) : PlanAnswer :=
  if existing.planHash = incoming.planHash then .identical incoming
  else .conflict (existing.planHash, existing.plan) (incoming.planHash, incoming.plan)

/-- `_placeholder_replacement` is there: a placeholder stands where a result comes in. -/
def replacesPlaceholder (existing : Option Json) (incoming : Json) : Bool :=
  existing.any isSyntheticResult && !isSyntheticResult incoming

/-- A call of `put_result`, with the time its record is made. -/
structure ResultCall where
  trialId : String
  result : Json
  sourceHash : String
  parserVersion : String
  now : String

/-- The record `_apply_result` makes. -/
def withResult (row : TrialRow) (c : ResultCall) (disposition : String) : TrialRow :=
  { row with
    result := some c.result, resultHash := some (canonical c.result), sourceHash := some c.sourceHash
    parserVersion := some c.parserVersion, status := disposition, finishedAt := some c.now }

/-- The answer `_apply_result` gives. -/
def applyAnswer (row : TrialRow) (c : ResultCall) : ResultAnswer :=
  match row.result with
  | some previous =>
    if replacesPlaceholder row.result c.result then
      .replacedPlaceholder c.trialId (previous.get "disposition") (previous.get "synthesized_by") row.resultHash c.result
    else .stored c.trialId c.result
  | none => .stored c.trialId c.result

/-- The body of `create_plans`, over how a store finds a record and inserts one. Each plan comes
with the time its record is made. -/
def createPlansWith {σ : Type} (find : String → σ → Option TrialRow) (insert : TrialRow → Op σ TrialError Unit) :
    List (Json × String) → Op σ TrialError (List PlanAnswer)
  | [] => pure []
  | (plan, now) :: rest => do
    let incoming ← Op.lift (planRecord canonical plan now)
    let existing ← Op.gets (find incoming.unit.trialId)
    match existing with
    | none =>
      insert incoming
      let answers ← createPlansWith find insert rest
      pure (.created incoming :: answers)
    | some row =>
      let answers ← createPlansWith find insert rest
      pure (applyPlan row incoming :: answers)

/-- The body of `put_result`, over how a store finds a record with its result and writes it back. -/
def putResultWith {σ : Type} (find : String → σ → Option (TrialRow × Option Json))
    (write : TrialRow → Op σ TrialError Unit) (c : ResultCall) : Op σ TrialError ResultAnswer := do
  let named ← Op.lift (validateResult c.result)
  let found ← Op.gets (find c.trialId)
  match found with
  | none => pure (.unknownTrial c.trialId)
  | some (row, stored) =>
    Op.lift (checkResultIdentity row c.result c.trialId)
    let store : Op σ TrialError ResultAnswer := do
      write (withResult canonical row c named.2)
      pure (applyAnswer row c)
    match stored with
    | none => store
    | some result =>
      if row.sourceHash = some c.sourceHash ∧ row.resultHash = some (canonical c.result) then
        pure (.identical c.trialId result)
      else if replacesPlaceholder row.result c.result then store
      else pure (.conflict c.trialId (row.resultHash, row.sourceHash, row.parserVersion)
        (canonical c.result, c.sourceHash, c.parserVersion))

/-! ### The two stores -/

/-- A call of the repository. -/
inductive TrialRequest where
  | createPlans (plans : List (Json × String))
  | putResult (call : ResultCall)

inductive TrialAnswer where
  | plans (answers : List PlanAnswer)
  | result (answer : ResultAnswer)
deriving DecidableEq

namespace MemoryTrials

abbrev Rows : Type := Table String TrialRow

def set (row : TrialRow) : Op Rows TrialError Unit := Op.modify (fun rows => rows.set row.unit.trialId row)

theorem set_apply (row : TrialRow) (rows : Rows) : set row rows = (.ok (), rows.set row.unit.trialId row) := rfl

def createPlans : List (Json × String) → Op Rows TrialError (List PlanAnswer) :=
  createPlansWith canonical (fun id rows => rows.get id) set

def putResult : ResultCall → Op Rows TrialError ResultAnswer :=
  putResultWith canonical (fun id rows => (rows.get id).map (fun row => (row, row.result))) set

def serve : TrialRequest → Op Rows TrialError TrialAnswer
  | .createPlans plans => createPlans canonical plans >>= fun answers => pure (.plans answers)
  | .putResult call => putResult canonical call >>= fun answer => pure (.result answer)

end MemoryTrials

namespace SQLiteTrials

/-- A row of `trials`: columns beside the whole record. -/
structure Columns where
  runId : String
  taskKey : String
  repeatIndex : Nat
  status : String
  planHash : String
  payload : TrialRow
  resultPayload : Option Json
  createdAt : String
  finishedAt : Option String
deriving DecidableEq

abbrev Rows : Type := Table String Columns

/-- `_row` -/
def columns (row : TrialRow) : Columns where
  runId := row.unit.runId
  taskKey := row.unit.taskKey
  repeatIndex := row.unit.repeatIndex
  status := row.status
  planHash := row.planHash
  payload := row
  resultPayload := row.result
  createdAt := row.createdAt
  finishedAt := row.finishedAt

/-- The largest number a column holds. -/
def maxInteger : Nat := 2 ^ 63 - 1

def insert (row : TrialRow) : Op Rows TrialError Unit := do
  Op.lift (ensure (row.unit.repeatIndex ≤ maxInteger) (.overflow row.unit.repeatIndex))
  Op.modify (fun rows => rows.set row.unit.trialId (columns row))

/-- `UPDATE trials SET …`: four columns of the row. -/
def update (row : TrialRow) : Op Rows TrialError Unit :=
  Op.modify (fun rows => match rows.get row.unit.trialId with
    | some old => rows.set row.unit.trialId { old with
        status := row.status, payload := row, resultPayload := row.result, finishedAt := row.finishedAt }
    | none => rows)

def createPlans (plans : List (Json × String)) : Op Rows TrialError (List PlanAnswer) :=
  Op.atomically (createPlansWith canonical (fun id rows => (rows.get id).map (·.payload)) insert plans)

def putResult (call : ResultCall) : Op Rows TrialError ResultAnswer :=
  Op.atomically (putResultWith canonical
    (fun id rows => (rows.get id).map (fun row => (row.payload, row.resultPayload))) update call)

def serve : TrialRequest → Op Rows TrialError TrialAnswer
  | .createPlans plans => createPlans canonical plans >>= fun answers => pure (.plans answers)
  | .putResult call => putResult canonical call >>= fun answer => pure (.result answer)

end SQLiteTrials

/-! ### What is kept -/

/-- The result names the trial of the row, and nothing that contradicts its plan. -/
structure Belongs (row : TrialRow) (result : Json) : Prop where
  trialId : result.get "trial_id" = .str row.unit.trialId
  runId : agrees result "run_id" (.str row.unit.runId)
  taskKey : agrees result "task_key" (.str row.unit.taskKey)
  repeatIndex : agrees result "repeat_index" (.num row.unit.repeatIndex)

/-- The plan stands, and so does a result, unless a placeholder gave way to one that is not. -/
structure RowKept (old new : TrialRow) : Prop where
  unit : new.unit = old.unit
  plan : new.plan = old.plan
  planHash : new.planHash = old.planHash
  createdAt : new.createdAt = old.createdAt
  result : ∀ r, old.result = some r → new = old ∨
    isSyntheticResult r = true ∧ ∃ r', new.result = some r' ∧ isSyntheticResult r' = false

theorem RowKept.refl (row : TrialRow) : RowKept row row := ⟨rfl, rfl, rfl, rfl, fun _ _ => .inl rfl⟩

theorem RowKept.trans {a b c : TrialRow} (hab : RowKept a b) (hbc : RowKept b c) : RowKept a c where
  unit := hbc.unit.trans hab.unit
  plan := hbc.plan.trans hab.plan
  planHash := hbc.planHash.trans hab.planHash
  createdAt := hbc.createdAt.trans hab.createdAt
  result r hr := by
    rcases hab.result r hr with rfl | ⟨hs, r', hr', hreal⟩
    · exact hbc.result r hr
    · -- A result that replaced a placeholder is not one itself, so it stays.
      rcases hbc.result r' hr' with rfl | ⟨hs', -⟩
      · exact .inr ⟨hs, r', hr', hreal⟩
      · rw [hreal] at hs'
        cases hs'

/-- Every trial of the first is in the second, its evidence kept. -/
def EvidenceKept (s t : Table String TrialRow) : Prop :=
  ∀ id row, s.get id = some row → ∃ row', t.get id = some row' ∧ RowKept row row'

theorem EvidenceKept.refl (s : Table String TrialRow) : EvidenceKept s s := fun _ row h => ⟨row, h, .refl row⟩

theorem EvidenceKept.trans {s t u : Table String TrialRow} (hst : EvidenceKept s t) (htu : EvidenceKept t u) :
    EvidenceKept s u := by
  intro id row h
  obtain ⟨row', h', kept⟩ := hst id row h
  obtain ⟨row'', h'', kept'⟩ := htu id row' h'
  exact ⟨row'', h'', kept.trans kept'⟩

/-- Rows stand under their own trial ids, with a checked plan and results of their own. -/
structure TrialRow.Sound (id : String) (row : TrialRow) : Prop where
  own : row.unit.trialId = id
  planned : validatePlan row.plan = .ok row.unit
  belongs : ∀ r, row.result = some r → Belongs row r

def EvidenceSound (s : Table String TrialRow) : Prop := ∀ id row, s.get id = some row → row.Sound id

/-- A row may be added, or replaced by one that keeps it. -/
theorem EvidenceKept.set {s : Table String TrialRow} {id : String} {new : TrialRow}
    (kept : ∀ old, s.get id = some old → RowKept old new) : EvidenceKept s (s.set id new) := by
  intro k row h
  by_cases hk : k = id
  · subst hk
    exact ⟨new, Table.get_set_self .., kept row h⟩
  · exact ⟨row, (Table.get_set_ne s new hk).trans h, .refl row⟩

theorem EvidenceSound.set {s : Table String TrialRow} (h : EvidenceSound s) {id : String} {new : TrialRow}
    (sound : new.Sound id) : EvidenceSound (s.set id new) := by
  intro k row hk
  rw [Table.get_set] at hk
  split at hk
  · rename_i hid
    cases hk
    exact hid ▸ sound
  · exact h k row hk

variable {canonical}

theorem planRecord_ok {plan : Json} {now : String} {row : TrialRow} (h : planRecord canonical plan now = .ok row) :
    validatePlan plan = .ok row.unit ∧ row.plan = plan ∧ row.result = none := by
  unfold planRecord at h
  split at h
  · cases h
  · rename_i u hu
    cases h
    exact ⟨hu, rfl, rfl⟩

theorem planRecord_error {plan : Json} {now : String} {e : TrialError} (h : planRecord canonical plan now = .error e) :
    ∃ e, validatePlan plan = .error e := by
  unfold planRecord at h
  split at h
  · rename_i e he
    exact ⟨e, he⟩
  · cases h

theorem checkResultIdentity_ok {row : TrialRow} {result : Json} {trialId : String} {u : Unit}
    (h : checkResultIdentity row result trialId = .ok u) (own : row.unit.trialId = trialId) : Belongs row result := by
  simp only [checkResultIdentity, except_bind_ok_iff, ensure_ok_iff, exists_const] at h
  obtain ⟨hid, hrun, htask, hrepeat⟩ := h
  exact ⟨own ▸ hid, hrun, htask, hrepeat⟩

/-- What stands between a state and a later one. -/
structure Advances (s t : Table String TrialRow) : Prop where
  kept : EvidenceKept s t
  sound : EvidenceSound t

theorem MemoryTrials.createPlans_advances (plans : List (Json × String)) {s : Rows} (sound : EvidenceSound s) :
    Op.wp (createPlans canonical plans) s (fun _ t => Advances s t) (fun _ t => Advances s t) := by
  unfold createPlans
  induction plans generalizing s with
  | nil => exact ⟨.refl s, sound⟩
  | cons head rest ih =>
    obtain ⟨plan, now⟩ := head
    rw [createPlansWith, Op.wp_bind, Op.wp_lift]
    refine ⟨fun incoming hin => ?_, fun e _ => ⟨.refl s, sound⟩⟩
    rw [Op.wp_bind, Op.wp_gets]
    obtain ⟨planned, hplan, hnone⟩ := planRecord_ok hin
    cases hget : s.get incoming.unit.trialId with
    | some row =>
      rw [Op.wp_bind]
      exact Op.wp_mono (ih sound) (fun _ _ h => h) (fun _ _ h => h)
    | none =>
      have next : Advances s (s.set incoming.unit.trialId incoming) :=
        ⟨.set (fun old hold => by cases hget.symm.trans hold),
          sound.set ⟨rfl, hplan ▸ planned, fun r hr => by cases hnone.symm.trans hr⟩⟩
      rw [Op.wp_bind, MemoryTrials.set, Op.wp_modify, Op.wp_bind]
      exact Op.wp_mono (ih next.sound) (fun _ t h => ⟨next.kept.trans h.kept, h.sound⟩)
        (fun _ t h => ⟨next.kept.trans h.kept, h.sound⟩)

/-- The record with a result in it keeps a record without one, or with a placeholder for it. -/
theorem rowKept_withResult {row : TrialRow} {c : ResultCall} {disposition : String}
    (free : row.result = none ∨ replacesPlaceholder row.result c.result = true) :
    RowKept row (withResult canonical row c disposition) := by
  refine ⟨rfl, rfl, rfl, rfl, fun r hr => .inr ?_⟩
  rcases free with hnone | hrep
  · cases hnone.symm.trans hr
  · simp only [replacesPlaceholder, hr, Option.any_some, Bool.and_eq_true, Bool.not_eq_true'] at hrep
    exact ⟨hrep.1, c.result, rfl, hrep.2⟩

theorem MemoryTrials.putResult_advances (c : ResultCall) {s : Rows} (sound : EvidenceSound s) :
    Op.wp (putResult canonical c) s (fun _ t => Advances s t) (fun _ t => t = s) := by
  unfold putResult putResultWith
  rw [Op.wp_bind, Op.wp_lift]
  refine ⟨fun named _ => ?_, fun _ _ => rfl⟩
  rw [Op.wp_bind, Op.wp_gets]
  dsimp only
  cases hget : s.get c.trialId with
  | none => exact ⟨.refl s, sound⟩
  | some row =>
    have hrow := sound c.trialId row hget
    rw [Option.map_some, Op.wp_bind, Op.wp_lift]
    refine ⟨fun _ hid => ?_, fun _ _ => rfl⟩
    have belongs := checkResultIdentity_ok hid hrow.own
    -- A result goes in where there is none, or over a placeholder.
    have stores (free : row.result = none ∨ replacesPlaceholder row.result c.result = true) :
        Advances s (s.set row.unit.trialId (withResult canonical row c named.2)) := by
      rw [hrow.own]
      refine ⟨.set (fun old hold => ?_), sound.set ⟨hrow.own, hrow.planned, fun r hr => ?_⟩⟩
      · cases hget.symm.trans hold
        exact rowKept_withResult free
      · cases hr
        exact ⟨belongs.trialId, belongs.runId, belongs.taskKey, belongs.repeatIndex⟩
    cases hres : row.result with
    | none => exact stores (.inl hres)
    | some result =>
      dsimp only
      split
      · exact ⟨.refl s, sound⟩
      · split
        · rename_i hrep
          exact stores (.inr (hres ▸ hrep))
        · exact ⟨.refl s, sound⟩

theorem MemoryTrials.serve_advances (r : TrialRequest) {s : Rows} (sound : EvidenceSound s) :
    Advances s (serve canonical r s).2 := by
  cases r with
  | createPlans plans =>
    rw [serve, Op.bind_pure_state]
    exact Op.wp_state (createPlans_advances plans sound)
  | putResult call =>
    rw [serve, Op.bind_pure_state]
    refine Op.wp_state (Op.wp_mono (putResult_advances call sound) (fun _ _ h => h) (fun _ t h => ?_))
    subst h
    exact ⟨.refl t, sound⟩

/-! ### The two stores side by side -/

/-- The rows of the database that hold the given records. -/
abbrev asColumns (m : MemoryTrials.Rows) : SQLiteTrials.Rows := m.map SQLiteTrials.columns

/-- A plan that `create_plans` inserts has a repeat index that a column holds. -/
def PlansFit (m : MemoryTrials.Rows) (plans : List (Json × String)) : Prop :=
  ∀ earlier p later units unit, plans = earlier ++ p :: later → earlier.mapM (validatePlan ·.1) = .ok units →
    validatePlan p.1 = .ok unit → m.get unit.trialId = none → (∀ u ∈ units, u.trialId ≠ unit.trialId) →
    unit.repeatIndex ≤ SQLiteTrials.maxInteger

/-- Before a plan that is refused there is none that would be stored. -/
def RefusedFirst (m : MemoryTrials.Rows) (plans : List (Json × String)) : Prop :=
  ∀ earlier p later units e, plans = earlier ++ p :: later → earlier.mapM (validatePlan ·.1) = .ok units →
    validatePlan p.1 = .error e → ∀ u ∈ units, m.get u.trialId ≠ none

theorem mapM_cons_ok {α β ε : Type} {f : α → Except ε β} {x : α} {xs : List α} {y : β} {ys : List β}
    (hx : f x = .ok y) (hxs : xs.mapM f = .ok ys) : (x :: xs).mapM f = .ok (y :: ys) := by
  rw [List.mapM_cons, hx]
  show (xs.mapM f >>= fun ys => pure (y :: ys)) = _
  rw [hxs]
  rfl

/-- All of a list is accepted, or there is a first item that is not. -/
theorem mapM_cases {α β ε : Type} (f : α → Except ε β) (xs : List α) :
    (∃ ys, xs.mapM f = .ok ys) ∨
      ∃ earlier x later ys e, xs = earlier ++ x :: later ∧ earlier.mapM f = .ok ys ∧ f x = .error e := by
  induction xs with
  | nil => exact .inl ⟨[], rfl⟩
  | cons x xs ih =>
    cases hx : f x with
    | error e => exact .inr ⟨[], x, xs, [], e, rfl, rfl, hx⟩
    | ok y =>
      rcases ih with ⟨ys, hys⟩ | ⟨earlier, x', later, ys, e, rfl, hys, hx'⟩
      · exact .inl ⟨y :: ys, mapM_cons_ok hx hys⟩
      · exact .inr ⟨x :: earlier, x', later, y :: ys, e, rfl, mapM_cons_ok hx hys, hx'⟩

variable {m : MemoryTrials.Rows} {head : Json × String} {rest : List (Json × String)} {unit : PlanUnit}

/-- After a plan that is stored already. -/
theorem PlansFit.of_known (h : PlansFit m (head :: rest)) (hu : validatePlan head.1 = .ok unit)
    (known : m.get unit.trialId ≠ none) : PlansFit m rest := by
  intro earlier p later units u hplans hearlier hp hnew hapart
  refine h (head :: earlier) p later (unit :: units) u (by rw [hplans]; rfl) (mapM_cons_ok hu hearlier) hp hnew
    (fun v hv => ?_)
  rcases List.mem_cons.1 hv with rfl | hv
  · exact fun he => known (he ▸ hnew)
  · exact hapart v hv

/-- After a plan that is stored now. -/
theorem PlansFit.of_new (h : PlansFit m (head :: rest)) (hu : validatePlan head.1 = .ok unit) (row : TrialRow) :
    PlansFit (m.set unit.trialId row) rest := by
  intro earlier p later units u hplans hearlier hp hnew hapart
  have hne : u.trialId ≠ unit.trialId := by
    rintro he
    rw [he, Table.get_set_self] at hnew
    cases hnew
  rw [Table.get_set_ne _ _ hne] at hnew
  refine h (head :: earlier) p later (unit :: units) u (by rw [hplans]; rfl) (mapM_cons_ok hu hearlier) hp hnew
    (fun v hv => ?_)
  rcases List.mem_cons.1 hv with rfl | hv
  · exact hne.symm
  · exact hapart v hv

theorem RefusedFirst.of_known (h : RefusedFirst m (head :: rest)) (hu : validatePlan head.1 = .ok unit) :
    RefusedFirst m rest := by
  intro earlier p later units e hplans hearlier hp u hmem
  exact h (head :: earlier) p later (unit :: units) e (by rw [hplans]; rfl) (mapM_cons_ok hu hearlier) hp u
    (List.mem_cons_of_mem _ hmem)

/-- After a plan that is new, no plan is refused. -/
theorem RefusedFirst.of_new (h : RefusedFirst m (head :: rest)) (hu : validatePlan head.1 = .ok unit)
    (new : m.get unit.trialId = none) : ∃ units, rest.mapM (validatePlan ·.1) = .ok units := by
  rcases mapM_cases (fun p : Json × String => validatePlan p.1) rest with accepted | ⟨earlier, p, later, units, e, rfl, hearlier, hp⟩
  · exact accepted
  · exact absurd new (h (head :: earlier) p later (unit :: units) e rfl (mapM_cons_ok hu hearlier) hp unit
      List.mem_cons_self)

/-! The body of `create_plans` from mirrored states, plan by plan. -/

/-- Plans that are all accepted are all answered. -/
theorem MemoryTrials.createPlans_accepted {plans : List (Json × String)} {units : List PlanUnit} (s : Rows)
    (h : plans.mapM (validatePlan ·.1) = .ok units) :
    Op.wp (createPlans canonical plans) s (fun _ _ => True) (fun _ _ => False) := by
  unfold createPlans
  induction plans generalizing s units with
  | nil => trivial
  | cons head rest ih =>
    obtain ⟨plan, now⟩ := head
    simp only [List.mapM_cons, except_bind_ok_iff, except_pure_ok_iff] at h
    obtain ⟨u, hu, us, hus, -⟩ := h
    rw [createPlansWith, Op.wp_bind, Op.wp_lift]
    refine ⟨fun incoming _ => ?_, fun e he => ?_⟩
    · rw [Op.wp_bind, Op.wp_gets]
      split
      · rw [Op.wp_bind, MemoryTrials.set, Op.wp_modify, Op.wp_bind]
        exact ih _ hus
      · rw [Op.wp_bind]
        exact ih _ hus
    · obtain ⟨e', he'⟩ := planRecord_error he
      cases hu.symm.trans he'

/-- A list that is refused before anything is stored leaves what it found. -/
theorem MemoryTrials.createPlans_refused {plans : List (Json × String)} {s : Rows} (h : RefusedFirst s plans) :
    Op.wp (createPlans canonical plans) s (fun _ _ => True) (fun _ t => t = s) := by
  unfold createPlans
  induction plans with
  | nil => trivial
  | cons head rest ih =>
    obtain ⟨plan, now⟩ := head
    rw [createPlansWith, Op.wp_bind, Op.wp_lift]
    refine ⟨fun incoming hin => ?_, fun _ _ => rfl⟩
    have hu := (planRecord_ok hin).1
    rw [Op.wp_bind, Op.wp_gets]
    split
    · rename_i hnew
      obtain ⟨units, hunits⟩ := h.of_new hu hnew
      rw [Op.wp_bind, MemoryTrials.set, Op.wp_modify, Op.wp_bind]
      exact Op.wp_mono (createPlans_accepted _ hunits) (fun _ _ _ => trivial) (fun _ _ => False.elim)
    · rw [Op.wp_bind]
      exact ih (h.of_known hu)

/-- The database reads the records back. -/
theorem payload_asColumns (m : MemoryTrials.Rows) (id : String) :
    ((asColumns m).get id).map (·.payload) = m.get id := by
  rw [Table.get_map, Option.map_map]
  exact Option.map_id' ▸ rfl

theorem SQLiteTrials.insert_columns {m : MemoryTrials.Rows} {row : TrialRow}
    (fits : row.unit.repeatIndex ≤ maxInteger) :
    insert row (asColumns m) = (.ok (), asColumns (m.set row.unit.trialId row)) := by
  unfold insert
  rw [Op.bind_of_ok (Op.lift_ensure_of fits), Op.modify_apply, Table.set_map]

/-- Plans that fit their columns are stored and answered alike. -/
theorem createPlans_alike {plans : List (Json × String)} {m : MemoryTrials.Rows} (h : PlansFit m plans) :
    createPlansWith canonical (fun id (rows : SQLiteTrials.Rows) => (rows.get id).map (·.payload)) SQLiteTrials.insert
        plans (asColumns m) =
      ((MemoryTrials.createPlans canonical plans m).1, asColumns (MemoryTrials.createPlans canonical plans m).2) := by
  unfold MemoryTrials.createPlans
  induction plans generalizing m with
  | nil => rfl
  | cons head rest ih =>
    obtain ⟨plan, now⟩ := head
    rw [createPlansWith, createPlansWith]
    cases hin : planRecord canonical plan now with
    | error e =>
      rw [Op.bind_of_error (Op.lift_apply _), Op.bind_of_error (Op.lift_apply _)]
    | ok incoming =>
      have hu := (planRecord_ok hin).1
      rw [Op.bind_of_ok (Op.lift_apply _), Op.bind_of_ok (Op.lift_apply _), Op.bind_of_ok (Op.gets_apply _),
        Op.bind_of_ok (Op.gets_apply _), payload_asColumns]
      cases hget : m.get incoming.unit.trialId with
      | none =>
        have fits : incoming.unit.repeatIndex ≤ SQLiteTrials.maxInteger :=
          h [] (plan, now) rest [] incoming.unit rfl rfl hu hget (fun _ => nofun)
        dsimp only
        rw [Op.bind_of_ok (SQLiteTrials.insert_columns fits), Op.bind_of_ok (MemoryTrials.set_apply incoming m),
          Op.bind_pure_apply, Op.bind_pure_apply, ih (h.of_new hu incoming)]
      | some row =>
        dsimp only
        rw [Op.bind_pure_apply, Op.bind_pure_apply, ih (h.of_known hu (by rw [hget]; nofun))]

theorem SQLiteTrials.update_columns {m : MemoryTrials.Rows} {row : TrialRow} (hget : m.get row.unit.trialId = some row)
    (c : ResultCall) (disposition : String) :
    update (withResult canonical row c disposition) (asColumns m) =
      (.ok (), asColumns (m.set row.unit.trialId (withResult canonical row c disposition))) := by
  have hcol : (asColumns m).get row.unit.trialId = some (columns row) := by rw [Table.get_map, hget, Option.map_some]
  rw [update, Op.modify_apply]
  show (Except.ok (), match (asColumns m).get row.unit.trialId with | some old => _ | none => _) = _
  rw [hcol]
  exact congrArg (Prod.mk (Except.ok ())) 
    (Table.set_map columns m row.unit.trialId (withResult canonical row c disposition))

/-- Two stores that find the same record, and both write the next one, answer alike. -/
theorem putResultWith_agree {σ τ : Type} {find : String → σ → Option (TrialRow × Option Json)}
    {find' : String → τ → Option (TrialRow × Option Json)} {write : TrialRow → Op σ TrialError Unit}
    {write' : TrialRow → Op τ TrialError Unit} {c : ResultCall} (g : τ → σ) {t : τ}
    (same : find c.trialId (g t) = find' c.trialId t)
    (writes : ∀ row stored disposition, find' c.trialId t = some (row, stored) → ∃ t',
      write (withResult canonical row c disposition) (g t) = (.ok (), g t') ∧
        write' (withResult canonical row c disposition) t = (.ok (), t')) :
    putResultWith canonical find write c (g t) =
      ((putResultWith canonical find' write' c t).1, g (putResultWith canonical find' write' c t).2) := by
  unfold putResultWith
  cases validateResult c.result with
  | error e => rw [Op.bind_of_error (Op.lift_apply _), Op.bind_of_error (Op.lift_apply _)]
  | ok named =>
    rw [Op.bind_of_ok (Op.lift_apply _), Op.bind_of_ok (Op.lift_apply _), Op.bind_of_ok (Op.gets_apply _),
      Op.bind_of_ok (Op.gets_apply _), same]
    cases hfind : find' c.trialId t with
    | none => rfl
    | some found =>
      obtain ⟨row, stored⟩ := found
      obtain ⟨t', hw, hw'⟩ := writes row stored named.2 hfind
      dsimp only
      cases checkResultIdentity row c.result c.trialId with
      | error e => rw [Op.bind_of_error (Op.lift_apply _), Op.bind_of_error (Op.lift_apply _)]
      | ok u =>
        rw [Op.bind_of_ok (Op.lift_apply _), Op.bind_of_ok (Op.lift_apply _)]
        cases stored with
        | none =>
          dsimp only
          rw [Op.bind_of_ok hw, Op.bind_of_ok hw']
          rfl
        | some result =>
          dsimp only
          split
          · rfl
          · split
            · rw [Op.bind_of_ok hw, Op.bind_of_ok hw']
              rfl
            · rfl

theorem putResult_alike (c : ResultCall) {m : MemoryTrials.Rows} (sound : EvidenceSound m) :
    putResultWith canonical
        (fun id (rows : SQLiteTrials.Rows) => (rows.get id).map (fun row => (row.payload, row.resultPayload)))
        SQLiteTrials.update c (asColumns m) =
      ((MemoryTrials.putResult canonical c m).1, asColumns (MemoryTrials.putResult canonical c m).2) := by
  refine putResultWith_agree asColumns ?_ (fun row stored disposition hfind => ?_)
  · rw [Table.get_map, Option.map_map]
    rfl
  · obtain ⟨row, hget, he⟩ := Option.map_eq_some_iff.1 hfind
    cases he
    have own := (sound c.trialId row hget).own
    exact ⟨_, SQLiteTrials.update_columns (own ▸ hget) c disposition, rfl⟩

/-! ### Runs of calls -/

/-- The call stores nothing before it is refused, and nothing that a column cannot hold. -/
def OrderlyCall (m : MemoryTrials.Rows) : TrialRequest → Prop
  | .createPlans plans => RefusedFirst m plans ∧ PlansFit m plans
  | .putResult _ => True

/-- A call that answers with a constructor raises when its body does. -/
theorem raised_of_serve {σ α β : Type} {x : Op σ TrialError α} {g : α → β} {s : σ} {e : TrialError}
    (h : ((x >>= fun a => pure (g a)) s).1 = .error e) : (x s).1 = .error e := by
  rw [Op.bind_pure_result] at h
  cases hx : (x s).1 with
  | error e' =>
    rw [hx] at h
    cases h
    rfl
  | ok a =>
    rw [hx] at h
    cases h

/-- An orderly call that raises leaves what it found. -/
theorem MemoryTrials.serve_raised {r : TrialRequest} {s : Rows} (sound : EvidenceSound s) (orderly : OrderlyCall s r)
    {e : TrialError} (h : (serve canonical r s).1 = .error e) : (serve canonical r s).2 = s := by
  cases r with
  | createPlans plans =>
    rw [serve, Op.bind_pure_state]
    exact Op.wp_raised (createPlans_refused orderly.1) (raised_of_serve h)
  | putResult call =>
    rw [serve, Op.bind_pure_state]
    exact Op.wp_raised (putResult_advances call sound) (raised_of_serve h)

theorem atomically_alike {α : Type} {x : Op SQLiteTrials.Rows TrialError α} {y : Op MemoryTrials.Rows TrialError α}
    {m : MemoryTrials.Rows} (alike : x (asColumns m) = ((y m).1, asColumns (y m).2))
    (raised : ∀ e, (y m).1 = .error e → (y m).2 = m) :
    Op.atomically x (asColumns m) = ((y m).1, asColumns (y m).2) := by
  rw [Op.atomically_eq (fun e t h => ?_), alike]
  rw [alike] at h
  rw [← (Prod.mk.inj h).2, raised e (Prod.mk.inj h).1]

/-- An orderly call is answered by both stores alike. -/
theorem serve_alike {r : TrialRequest} {m : MemoryTrials.Rows} (sound : EvidenceSound m) (orderly : OrderlyCall m r) :
    SQLiteTrials.serve canonical r (asColumns m) =
      ((MemoryTrials.serve canonical r m).1, asColumns (MemoryTrials.serve canonical r m).2) := by
  cases r with
  | createPlans plans =>
    have alike : SQLiteTrials.createPlans canonical plans (asColumns m) =
        ((MemoryTrials.createPlans canonical plans m).1, asColumns (MemoryTrials.createPlans canonical plans m).2) :=
      atomically_alike (createPlans_alike orderly.2)
        (fun e h => Op.wp_raised (MemoryTrials.createPlans_refused orderly.1) h)
    rw [SQLiteTrials.serve, MemoryTrials.serve, Op.bind_pure_apply, Op.bind_pure_apply, alike]
  | putResult call =>
    have alike : SQLiteTrials.putResult canonical call (asColumns m) =
        ((MemoryTrials.putResult canonical call m).1, asColumns (MemoryTrials.putResult canonical call m).2) :=
      atomically_alike (putResult_alike call sound)
        (fun e h => Op.wp_raised (MemoryTrials.putResult_advances call sound) h)
    rw [SQLiteTrials.serve, MemoryTrials.serve, Op.bind_pure_apply, Op.bind_pure_apply, alike]

/-- A repository of trials, with the records it holds. -/
structure TrialStore (σ : Type) where
  empty : σ
  serve : TrialRequest → Op σ TrialError TrialAnswer
  records : σ → Table String TrialRow

variable (canonical)

def memoryTrials : TrialStore MemoryTrials.Rows where
  empty := ∅
  serve := MemoryTrials.serve canonical
  records := id

def sqliteTrials : TrialStore SQLiteTrials.Rows where
  empty := ∅
  serve := SQLiteTrials.serve canonical
  records := Table.map (·.payload)

variable {canonical}

/-- The state after calls, in the order the store served them. -/
def TrialStore.after {σ : Type} (T : TrialStore σ) (requests : List TrialRequest) : σ :=
  run (fun r s => (T.serve r s).2) T.empty requests

/-- Trial evidence over a run of calls is written once. -/
structure TrialStore.WriteOnce {σ : Type} (T : TrialStore σ) (requests : List TrialRequest) : Prop where
  /-- From each moment of the run to its end. -/
  advances : ∀ earlier later, requests = earlier ++ later →
    Advances (T.records (T.after earlier)) (T.records (T.after requests))
  /-- A result of no known trial is not stored. -/
  unknown : ∀ earlier call later, requests = earlier ++ .putResult call :: later →
    (T.records (T.after earlier)).get call.trialId = none →
    (T.serve (.putResult call) (T.after earlier)).2 = T.after earlier
  /-- A call that raises leaves what it found. -/
  raised : ∀ earlier r later e, requests = earlier ++ r :: later → (T.serve r (T.after earlier)).1 = .error e →
    (T.serve r (T.after earlier)).2 = T.after earlier

theorem MemoryTrials.putResult_unknown (call : ResultCall) {s : Rows} (unknown : s.get call.trialId = none) :
    (serve canonical (.putResult call) s).2 = s := by
  rw [serve, Op.bind_pure_state, putResult, putResultWith]
  cases validateResult call.result with
  | error e => rw [Op.bind_of_error (Op.lift_apply _)]
  | ok named =>
    rw [Op.bind_of_ok (Op.lift_apply _), Op.bind_of_ok (Op.gets_apply _), unknown]
    rfl

theorem evidenceSound_empty : EvidenceSound ∅ := by
  intro id row h
  cases h

section Runs
variable {requests : List TrialRequest}

/-- The rule of a run: every call is orderly in the state it finds. -/
abbrev OrderlyRun (canonical : Json → String) (requests : List TrialRequest) : Prop :=
  Along (fun r s => (MemoryTrials.serve canonical r s).2) OrderlyCall ∅ requests

theorem memory_sound (requests : List TrialRequest) : EvidenceSound ((memoryTrials canonical).after requests) :=
  run_keeps (I := EvidenceSound) (fun _ r h => (MemoryTrials.serve_advances r h).sound) requests evidenceSound_empty

/-- From any moment of a run to its end. -/
theorem memory_advances (earlier later : List TrialRequest) :
    Advances ((memoryTrials canonical).after earlier) ((memoryTrials canonical).after (earlier ++ later)) := by
  refine ⟨?_, memory_sound _⟩
  have sound : EvidenceSound ((memoryTrials canonical).after earlier) := memory_sound earlier
  unfold TrialStore.after
  rw [run_append]
  -- Each call advances from a sound state to a sound one.
  show EvidenceKept ((memoryTrials canonical).after earlier) (run _ ((memoryTrials canonical).after earlier) later)
  generalize (memoryTrials canonical).after earlier = s at sound
  induction later generalizing s with
  | nil => exact .refl s
  | cons r rest ih =>
    have next : Advances s (MemoryTrials.serve canonical r s).2 := MemoryTrials.serve_advances r sound
    exact next.kept.trans (ih _ next.sound)

/-- Along an orderly run the database holds the same records, and answers the same. -/
theorem along_alike {s : MemoryTrials.Rows} (sound : EvidenceSound s)
    (h : Along (fun r s => (MemoryTrials.serve canonical r s).2) OrderlyCall s requests) :
    run (fun r s => (SQLiteTrials.serve canonical r s).2) (asColumns s) requests =
        asColumns (run (fun r s => (MemoryTrials.serve canonical r s).2) s requests) ∧
      replies (SQLiteTrials.serve canonical) (asColumns s) requests = replies (MemoryTrials.serve canonical) s requests := by
  induction requests generalizing s with
  | nil => exact ⟨rfl, rfl⟩
  | cons r rest ih =>
    have alike : SQLiteTrials.serve canonical r (asColumns s) =
        ((MemoryTrials.serve canonical r s).1, asColumns (MemoryTrials.serve canonical r s).2) :=
      serve_alike sound h.1
    obtain ⟨states, answers⟩ := ih (MemoryTrials.serve_advances r sound).sound h.2
    simp only [run, replies, alike]
    exact ⟨states, by rw [answers]⟩

theorem orderly_after (h : OrderlyRun canonical requests) :
    (sqliteTrials canonical).after requests = asColumns ((memoryTrials canonical).after requests) :=
  (along_alike evidenceSound_empty h).1

/-- The call in the middle of an orderly run is orderly there, and the run up to it is. -/
theorem OrderlyRun.split {earlier later : List TrialRequest} {r : TrialRequest}
    (h : OrderlyRun canonical (earlier ++ r :: later)) :
    OrderlyRun canonical earlier ∧ OrderlyCall ((memoryTrials canonical).after earlier) r :=
  ⟨(along_append.1 h).1, (along_append.1 h).2.1⟩

theorem records_asColumns (m : MemoryTrials.Rows) : (sqliteTrials canonical).records (asColumns m) = m := by
  apply Table.ext_rows
  show (m.rows.map _).map _ = _
  rw [List.map_map]
  exact List.map_id _

theorem memory_writeOnce (h : OrderlyRun canonical requests) : (memoryTrials canonical).WriteOnce requests where
  advances earlier later hreq := hreq ▸ memory_advances earlier later
  unknown earlier call later _ unknown := MemoryTrials.putResult_unknown call unknown
  raised earlier r later e hreq raised := by
    subst hreq
    exact MemoryTrials.serve_raised (memory_sound earlier) h.split.2 raised

theorem sqlite_writeOnce (h : OrderlyRun canonical requests) : (sqliteTrials canonical).WriteOnce requests where
  advances earlier later hreq := by
    subst hreq
    rw [orderly_after h, orderly_after (along_append.1 h).1, records_asColumns, records_asColumns]
    exact memory_advances earlier later
  unknown earlier call later hreq unknown := by
    subst hreq
    rw [orderly_after h.split.1, records_asColumns] at unknown
    have alike : (sqliteTrials canonical).serve _ _ = _ := serve_alike (memory_sound earlier) h.split.2
    rw [orderly_after h.split.1, alike]
    exact congrArg asColumns (MemoryTrials.putResult_unknown call unknown)
  raised earlier r later e hreq raised := by
    subst hreq
    have alike : (sqliteTrials canonical).serve _ _ = _ := serve_alike (memory_sound earlier) h.split.2
    rw [orderly_after h.split.1, alike] at raised ⊢
    exact congrArg asColumns (MemoryTrials.serve_raised (memory_sound earlier) h.split.2 raised)

/-- Trial evidence is written once in both stores, which answer alike and hold the same records throughout. -/
structure TrialEvidence (canonical : Json → String) (requests : List TrialRequest) : Prop where
  memory : (memoryTrials canonical).WriteOnce requests
  sqlite : (sqliteTrials canonical).WriteOnce requests
  answers : replies (memoryTrials canonical).serve (memoryTrials canonical).empty requests =
    replies (sqliteTrials canonical).serve (sqliteTrials canonical).empty requests
  records : ∀ earlier later, requests = earlier ++ later →
    (sqliteTrials canonical).records ((sqliteTrials canonical).after earlier) =
      (memoryTrials canonical).records ((memoryTrials canonical).after earlier)

/-- In a run of orderly calls, by any clients, trial evidence is written once. -/
theorem trial_evidence_written_once (canonical : Json → String) (requests : List TrialRequest)
    (h : OrderlyRun canonical requests) : TrialEvidence canonical requests where
  memory := memory_writeOnce h
  sqlite := sqlite_writeOnce h
  answers := (along_alike evidenceSound_empty h).2.symm
  records earlier later hreq := by
    subst hreq
    rw [orderly_after (along_append.1 h).1, records_asColumns]
    rfl

end Runs

end Calls

/-! ### One plan, and a list that is refused at its second plan -/

mutual
/-- Documents of texts and whole numbers as `_canonical` writes them. -/
def compactText : Json → String
  | .null => "null"
  | .bool b => if b then "true" else "false"
  | .num q => toString q.num
  | .str s => "\"" ++ s ++ "\""
  | .arr items => "[" ++ ",".intercalate (compactItems items) ++ "]"
  | .obj members => "\x7b" ++ ",".intercalate (compactMembers members) ++ "\x7d"

def compactItems : List Json → List String
  | [] => []
  | item :: rest => compactText item :: compactItems rest

def compactMembers : List (String × Json) → List String
  | [] => []
  | (key, value) :: rest => ("\"" ++ key ++ "\":" ++ compactText value) :: compactMembers rest
end

def firstPlan : Json := .obj [("agent_config_hash", .str "a1"), ("environment_hash", .str "e1"),
  ("repeat_index", .num 0), ("run_id", .str "r1"), ("task_key", .str "k1"), ("trial_id", .str "t1")]

/-- The platform's placeholder, then the runner's result, for the first plan. -/
def firstResults : List ResultCall :=
  [⟨"t1", .obj [("disposition", .str "cancelled"), ("synthesized_by", .str "platform"), ("trial_id", .str "t1")], "s1",
      "v1", "2"⟩,
    ⟨"t1", .obj [("disposition", .str "succeeded"), ("trial_id", .str "t1")], "s2", "v1", "3"⟩]

def placeholderRun : List TrialRequest := .createPlans [(firstPlan, "1")] :: firstResults.map .putResult

theorem validatePlan_firstPlan : validatePlan firstPlan = .ok ⟨"t1", "r1", "k1", 0⟩ := by
  decide +kernel

theorem orderly_placeholderRun : OrderlyRun compactText placeholderRun := by
  refine ⟨⟨?_, ?_⟩, trivial, trivial, trivial⟩
  · intro earlier p later units e hplans hearlier hp u hu
    cases earlier with
    | nil =>
      cases hplans
      cases validatePlan_firstPlan.symm.trans hp
    | cons _ rest => cases rest <;> cases hplans
  · intro earlier p later units unit hplans hearlier hp _ _
    cases earlier with
    | nil =>
      cases hplans
      cases validatePlan_firstPlan.symm.trans hp
      decide
    | cons _ rest => cases rest <;> cases hplans

theorem placeholder_run_written_once :
    OrderlyRun compactText placeholderRun ∧ TrialEvidence compactText placeholderRun :=
  ⟨orderly_placeholderRun, trial_evidence_written_once compactText placeholderRun orderly_placeholderRun⟩

/-- A plan, then one without any member: the memory store refuses the list and keeps its first plan. -/
theorem refused_list_kept :
    ¬ ∀ (canonical : Json → String) (requests : List TrialRequest), TrialEvidence canonical requests := by
  intro h
  have same := (h compactText [.createPlans [(firstPlan, "1"), (.obj [], "2")]]).memory.raised [] _ [] _ rfl rfl
  have found : ((memoryTrials compactText).serve (.createPlans [(firstPlan, "1"), (.obj [], "2")]) ∅).2.get "t1" ≠ none := by
    decide +kernel
  exact found (congrArg (Table.get · "t1") same)

end Motte.Service
