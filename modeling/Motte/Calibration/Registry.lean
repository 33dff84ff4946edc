import Mathlib.Data.List.Induction
import Motte.Foundation.Access
import Motte.Foundation.Table

/-! The registry of judge qualifications.

A qualification is kept under its whole configuration, and one that is registered again
keeps the place of the first. A lookup that names no policy takes the last place among
those that match, which is where the policy stands that came last for the first time. -/
namespace Motte.Calibration
open Foundation

/-- `JudgeQualification` -/
structure JudgeQualification where
  qualificationId : String
  judgeSpecSha256 : String
  policySha256 : Option String := none
  rubricId : String
  rubricVersion : String
  model : String
  calibrationId : String
  calibrationVersion : String
  calibrationSha256 : String
  qualified : Bool
  experimental : Bool
  gateEligible : Bool
  reasons : List String := []
  evaluatedAt : Option String := none
deriving DecidableEq

/-- A judge configuration that was calibrated. -/
structure Configuration where
  judgeSpecSha256 : String
  rubricId : String
  rubricVersion : String
  model : String
  calibrationVersion : String
deriving DecidableEq

def JudgeQualification.configuration (record : JudgeQualification) : Configuration where
  judgeSpecSha256 := record.judgeSpecSha256
  rubricId := record.rubricId
  rubricVersion := record.rubricVersion
  model := record.model
  calibrationVersion := record.calibrationVersion

/-- The key of a record: its configuration and the policy it was qualified under. -/
abbrev Key := Configuration × Option String

def JudgeQualification.key (record : JudgeQualification) : Key := (record.configuration, record.policySha256)

/-- `QualificationRegistry` -/
structure QualificationRegistry where
  records : Table Key JudgeQualification := ∅
  history : List JudgeQualification := []

/-- What a lookup asks for. -/
structure Query where
  judgeSpecSha256 : String
  rubricId : String
  rubricVersion : String
  model : String
  calibrationVersion : Option String := none
  policySha256 : Option String := none
deriving DecidableEq

/-- The configuration that is asked for, when its calibration version is known. -/
def Query.configuration (q : Query) : Option Configuration :=
  q.calibrationVersion.map (fun calibrationVersion => {
    judgeSpecSha256 := q.judgeSpecSha256
    rubricId := q.rubricId
    rubricVersion := q.rubricVersion
    model := q.model
    calibrationVersion := calibrationVersion })

/-- What a gate is told of a judge. -/
structure GateEligibility where
  gateEligible : Bool
  experimental : Bool
  reason : String
  qualificationId : Option String := none
deriving DecidableEq

namespace QualificationRegistry

/-- `register` -/
def register (registry : QualificationRegistry) (record : JudgeQualification) : QualificationRegistry where
  records := registry.records.set record.key record
  history := registry.history ++ [record]

/-- `lookup` -/
def lookup (registry : QualificationRegistry) (q : Query) : Option JudgeQualification :=
  match q.configuration with
  | none => none
  | some configuration =>
    match q.policySha256 with
    | some policy => registry.records.get (configuration, some policy)
    | none => ((registry.records.rows.filter (·.1.1 = configuration)).getLast?).map Prod.snd

/-- What a record says of a judge, if there is one. -/
def eligibilityOf : Option JudgeQualification → GateEligibility
  | none => {
    gateEligible := false
    experimental := true
    reason := "no calibration qualification for this judge configuration" }
  | some record => {
    gateEligible := record.gateEligible
    experimental := record.experimental
    reason :=
      let reasons := "; ".intercalate record.reasons
      if reasons = "" then "calibrated for this configuration" else reasons
    qualificationId := some record.qualificationId }

/-- `eligible` -/
def eligible (registry : QualificationRegistry) (q : Query) : GateEligibility := eligibilityOf (registry.lookup q)

/-- The registry after these registrations. -/
def registered (history : List JudgeQualification) : QualificationRegistry := history.foldl register {}

end QualificationRegistry
open QualificationRegistry

/-- The query for the judge of a pass, if it was scored by one. -/
def judgeQuery (str : Value → String) (pass : Document) (policySha256 : Option String) : Option Query :=
  if pass.getOrNull "source" = .str "judge" ∧ (pass.getOrNull "judge").isObj then
    let judge := pass.getOrNull "judge"
    let text (name : String) := if (judge.member name).truthy then str (judge.member name) else ""
    some {
      judgeSpecSha256 := text "spec_sha256"
      rubricId := text "rubric_id"
      rubricVersion := text "rubric_version"
      model := text "model"
      calibrationVersion :=
        if (judge.member "calibration_version").truthy then some (str (judge.member "calibration_version")) else none
      policySha256 := policySha256 }
  else none

/-- `pass_gate_eligibility` -/
def passGateEligibility (str : Value → String) (pass : Document) (registry : QualificationRegistry)
    (policySha256 : Option String) : GateEligibility :=
  match judgeQuery str pass policySha256 with
  | none => {
    gateEligible := false
    experimental := false
    reason := "pass is not judge-scored; calibration eligibility does not apply" }
  | some q => registry.eligible q

/-! ### The latest registration -/

/-- The record is one of those that are asked for. -/
def Query.asks (q : Query) (record : JudgeQualification) : Prop :=
  q.configuration = some record.configuration ∧ (q.policySha256.isSome → record.policySha256 = q.policySha256)

instance (q : Query) (record : JudgeQualification) : Decidable (q.asks record) := by
  unfold Query.asks
  infer_instance

/-- The last of these registrations that is asked for. -/
def latest (history : List JudgeQualification) (q : Query) : Option JudgeQualification :=
  (history.filter (q.asks ·)).getLast?

/-- The policies under which a configuration was registered, one for each registration. -/
def policies (history : List JudgeQualification) (configuration : Configuration) : List (Option String) :=
  (history.filter (·.configuration = configuration)).map (·.policySha256)

/-- The policy of the last registration of the configuration is the one that came last for the first time. -/
def NewestPolicyLast (history : List JudgeQualification) (configuration : Configuration) : Prop :=
  ∀ policy, (policies history configuration).getLast? = some policy →
    ∀ other ∈ policies history configuration,
      (policies history configuration).idxOf other ≤ (policies history configuration).idxOf policy

instance (history : List JudgeQualification) (configuration : Configuration) :
    Decidable (NewestPolicyLast history configuration) :=
  match h : (policies history configuration).getLast? with
  | none => isTrue (fun _ hlast => by rw [h] at hlast; cases hlast)
  | some policy =>
    decidable_of_iff (∀ other ∈ policies history configuration,
        (policies history configuration).idxOf other ≤ (policies history configuration).idxOf policy)
      ⟨fun hle other hlast => by rw [h] at hlast; cases hlast; exact hle, fun hle => hle policy h⟩

section
variable {history : List JudgeQualification} {record : JudgeQualification} {configuration : Configuration}

theorem registered_append (history : List JudgeQualification) (record : JudgeQualification) :
    registered (history ++ [record]) = (registered history).register record := by
  unfold registered
  rw [List.foldl_append]
  rfl

/-- Under a key stands the last record that was registered with it. -/
theorem get_registered (history : List JudgeQualification) (key : Key) :
    (registered history).records.get key = (history.filter (·.key = key)).getLast? := by
  induction history using List.reverseRecOn with
  | nil => rfl
  | append_singleton history record ih =>
    rw [registered_append, List.filter_append]
    show ((registered history).records.set record.key record).get key = _
    rw [Table.get_set]
    by_cases hkey : record.key = key
    · rw [if_pos hkey.symm, List.filter_cons_of_pos (by simpa using hkey), List.filter_nil, List.getLast?_concat]
    · rw [if_neg (fun h => hkey h.symm), ih, List.filter_cons_of_neg (by simpa using hkey), List.filter_nil,
        List.append_nil]

theorem keys_registered {key : Key} :
    key ∈ (registered history).records.rows.map Prod.fst ↔ ∃ record ∈ history, record.key = key := by
  have hget := get_registered history key
  constructor
  · intro hkey
    cases hfound : (registered history).records.get key with
    | none => exact absurd hkey (Table.get_eq_none_iff.1 hfound)
    | some record =>
      rw [hfound] at hget
      have hmem := List.mem_of_getLast? hget.symm
      exact ⟨record, (List.mem_filter.1 hmem).1, by simpa using (List.mem_filter.1 hmem).2⟩
  · rintro ⟨record, hrecord, hkey⟩
    have hne : history.filter (·.key = key) ≠ [] := List.ne_nil_of_mem (List.mem_filter.2 ⟨hrecord, by simpa using hkey⟩)
    rw [List.getLast?_eq_some_getLast hne] at hget
    exact Table.mem_keys_of_get hget

/-! ### The place of a policy -/

theorem policies_append (history : List JudgeQualification) (record : JudgeQualification) :
    policies (history ++ [record]) configuration =
      if record.configuration = configuration then policies history configuration ++ [record.policySha256]
      else policies history configuration := by
  unfold policies
  rw [List.filter_append, List.map_append]
  by_cases h : record.configuration = configuration
  · rw [if_pos h, List.filter_cons_of_pos (by simpa using h)]
    rfl
  · rw [if_neg h, List.filter_cons_of_neg (by simpa using h)]
    exact List.append_nil _

theorem mem_policies {policy : Option String} :
    policy ∈ policies history configuration ↔ ∃ record ∈ history, record.key = (configuration, policy) := by
  simp only [policies, List.mem_map, List.mem_filter, decide_eq_true_eq, JudgeQualification.key, Prod.mk.injEq, and_assoc]

/-- The rows of a configuration. -/
def placed (registry : QualificationRegistry) (configuration : Configuration) : List (Key × JudgeQualification) :=
  registry.records.rows.filter (·.1.1 = configuration)

/-- Where the rows of a configuration end after one more registration. -/
theorem placed_register (registry : QualificationRegistry) (record : JudgeQualification) :
    (placed (registry.register record) configuration).map Prod.fst =
      if record.key ∈ registry.records.rows.map Prod.fst ∨ record.configuration ≠ configuration
        then (placed registry configuration).map Prod.fst
      else (placed registry configuration).map Prod.fst ++ [record.key] := by
  have hfilter (rows : List (Key × JudgeQualification)) :
      (rows.filter (·.1.1 = configuration)).map Prod.fst = (rows.map Prod.fst).filter (·.1 = configuration) :=
    (List.filter_map (f := Prod.fst) (p := fun key : Key => key.1 = configuration) (l := rows)).symm
  unfold placed
  rw [hfilter, hfilter]
  show ((Table.assign registry.records.rows record.key record).map Prod.fst).filter _ = _
  rw [Table.assign_keys]
  by_cases hkey : record.key ∈ registry.records.rows.map Prod.fst
  · rw [if_pos hkey, if_pos (.inl hkey)]
  · rw [if_neg hkey, List.filter_append]
    by_cases hconfiguration : record.configuration = configuration
    · have hkeep : decide (record.key.1 = configuration) = true := decide_eq_true hconfiguration
      rw [if_neg (not_or.2 ⟨hkey, not_not.2 hconfiguration⟩),
        List.filter_cons_of_pos (p := fun key : Key => decide (key.1 = configuration)) hkeep]
      rfl
    · have hdrop : ¬decide (record.key.1 = configuration) = true := fun h => hconfiguration (of_decide_eq_true h)
      rw [if_pos (.inr hconfiguration),
        List.filter_cons_of_neg (p := fun key : Key => decide (key.1 = configuration)) hdrop]
      exact List.append_nil _

/-- The last row of a configuration is that of the policy which came last for the first time. -/
theorem last_placed {key : Key}
    (h : ((placed (registered history) configuration).map Prod.fst).getLast? = some key) :
    key.1 = configuration ∧ key.2 ∈ policies history configuration ∧
      ∀ other ∈ policies history configuration,
        (policies history configuration).idxOf other ≤ (policies history configuration).idxOf key.2 := by
  induction history using List.reverseRecOn with
  | nil => cases h
  | append_singleton history record ih =>
    rw [registered_append, placed_register] at h
    rw [policies_append]
    split at h
    · rename_i hold
      obtain ⟨hconfiguration, hmem, hlast⟩ := ih h
      split
      · rename_i hrecord
        have hseen : record.policySha256 ∈ policies history configuration := by
          rcases hold with hkey | hother
          · obtain ⟨record', hrecord', hkey'⟩ := keys_registered.1 hkey
            exact mem_policies.2 ⟨record', hrecord', by rw [hkey', JudgeQualification.key, hrecord]⟩
          · exact absurd hrecord hother
        have hsame {policy : Option String} (hpolicy : policy ∈ policies history configuration ++ [record.policySha256]) :
            policy ∈ policies history configuration := by
          rcases List.mem_append.1 hpolicy with hpolicy | hpolicy
          · exact hpolicy
          · rw [List.mem_singleton.1 hpolicy]
            exact hseen
        refine ⟨hconfiguration, List.mem_append_left _ hmem, fun other hother => ?_⟩
        rw [List.idxOf_append_of_mem hmem, List.idxOf_append_of_mem (hsame hother)]
        exact hlast other (hsame hother)
      · exact ⟨hconfiguration, hmem, hlast⟩
    · rename_i hnew
      obtain ⟨hfresh, hrecord⟩ := not_or.1 hnew
      have hrecord : record.configuration = configuration := not_not.1 hrecord
      rw [List.getLast?_concat] at h
      cases h
      rw [if_pos hrecord]
      have hunseen : record.policySha256 ∉ policies history configuration := by
        intro hseen
        obtain ⟨record', hrecord', hkey'⟩ := mem_policies.1 hseen
        exact hfresh (keys_registered.2 ⟨record', hrecord', by rw [hkey', JudgeQualification.key, hrecord]⟩)
      refine ⟨hrecord, List.mem_append_right _ (.head _), fun other hother => ?_⟩
      have hplace : (policies history configuration ++ [record.policySha256]).idxOf record.key.2 =
          (policies history configuration).length := by
        rw [show record.key.2 = record.policySha256 from rfl, List.idxOf_append_of_notMem hunseen, List.idxOf_cons_self]
        rfl
      rw [hplace]
      rcases List.mem_append.1 hother with hother | hother
      · rw [List.idxOf_append_of_mem hother]
        exact le_of_lt (List.idxOf_lt_length_of_mem hother)
      · rw [List.mem_singleton.1 hother]
        exact le_of_eq hplace

/-! ### Lookups -/

theorem asks_policy {q : Query} {policy : String} (hconfiguration : q.configuration = some configuration)
    (hpolicy : q.policySha256 = some policy) : q.asks record ↔ record.key = (configuration, some policy) := by
  unfold Query.asks JudgeQualification.key
  rw [hconfiguration, hpolicy]
  simp [Prod.ext_iff, eq_comm]

theorem asks_any {q : Query} (hconfiguration : q.configuration = some configuration) (hpolicy : q.policySha256 = none) :
    q.asks record ↔ record.configuration = configuration := by
  unfold Query.asks
  rw [hconfiguration, hpolicy]
  simp [eq_comm]

/-- A lookup that names its policy finds the last registration under it. -/
theorem lookup_policy {q : Query} {policy : String} (hconfiguration : q.configuration = some configuration)
    (hpolicy : q.policySha256 = some policy) : (registered history).lookup q = latest history q := by
  have hlookup : (registered history).lookup q = (registered history).records.get (configuration, some policy) := by
    simp only [lookup, hconfiguration, hpolicy]
  rw [hlookup, get_registered, latest]
  congr 1
  exact List.filter_congr (fun record _ => decide_eq_decide.2 (asks_policy hconfiguration hpolicy).symm)

/-- A lookup that names no policy finds the last registration when its policy is the newest. -/
theorem lookup_any {q : Query} (hconfiguration : q.configuration = some configuration) (hpolicy : q.policySha256 = none) :
    (registered history).lookup q = latest history q ↔ NewestPolicyLast history configuration := by
  have hlookup : (registered history).lookup q =
      ((placed (registered history) configuration).getLast?).map Prod.snd := by
    simp only [lookup, hconfiguration, hpolicy, placed]
  have hlatest : latest history q = (history.filter (·.configuration = configuration)).getLast? := by
    unfold latest
    congr 1
    exact List.filter_congr (fun record _ => decide_eq_decide.2 (asks_any hconfiguration hpolicy))
  have hpolicies : (policies history configuration).getLast? = (latest history q).map (·.policySha256) := by
    rw [hlatest, policies, List.getLast?_map]
  rw [hlookup]
  cases hlast : (placed (registered history) configuration).getLast? with
  | none =>
    have hempty : policies history configuration = [] := by
      refine List.eq_nil_iff_forall_not_mem.2 (fun policy hmem => ?_)
      obtain ⟨row, hrow, hkey⟩ := List.mem_map.1 (keys_registered.2 (mem_policies.1 hmem))
      have hplaced : row ∈ placed (registered history) configuration :=
        List.mem_filter.2 ⟨hrow, by rw [hkey]; exact decide_eq_true rfl⟩
      rw [List.getLast?_eq_none_iff.1 hlast] at hplaced
      cases hplaced
    have hnone : latest history q = none := by
      rw [hempty] at hpolicies
      exact Option.map_eq_none_iff.1 hpolicies.symm
    rw [hnone]
    refine ⟨fun _ policy h => ?_, fun _ => rfl⟩
    rw [hempty] at h
    cases h
  | some row =>
    obtain ⟨key, found⟩ := row
    obtain ⟨hkey, hmem, hnewest⟩ := @last_placed history configuration key
      (by rw [List.getLast?_map, hlast]; rfl)
    have hrow : (registered history).records.get key = some found :=
      Table.get_of_mem (List.mem_filter.1 (List.mem_of_getLast? hlast)).1
    rw [get_registered] at hrow
    have hfound : found.key = key := by simpa using (List.mem_filter.1 (List.mem_of_getLast? hrow)).2
    constructor
    · intro hsame policy hlastPolicy other hother
      rw [hpolicies, ← hsame] at hlastPolicy
      have hpolicyKey : found.policySha256 = key.2 := congrArg Prod.snd hfound
      have hlastKey : policy = key.2 := (Option.some.inj hlastPolicy).symm.trans hpolicyKey
      rw [hlastKey]
      exact hnewest other hother
    · intro hcondition
      cases hrecord : latest history q with
      | none =>
        rw [hrecord] at hpolicies
        rw [List.getLast?_eq_none_iff.1 hpolicies] at hmem
        cases hmem
      | some record =>
        have hrecordPolicy : (policies history configuration).getLast? = some record.policySha256 := by
          rw [hpolicies, hrecord]
          rfl
        have hseen : record.policySha256 ∈ policies history configuration := List.mem_of_getLast? hrecordPolicy
        have hplace : (policies history configuration).idxOf record.policySha256 =
            (policies history configuration).idxOf key.2 :=
          Nat.le_antisymm (hnewest _ hseen) (hcondition _ hrecordPolicy _ hmem)
        have hpolicySame : record.policySha256 = key.2 := (List.idxOf_inj hseen).1 hplace
        -- the last registration of the configuration is the last one of its own key
        rw [hlatest] at hrecord
        have hconfigurationSame : record.configuration = configuration := by
          simpa using (List.mem_filter.1 (List.mem_of_getLast? hrecord)).2
        have hrecordKey : record.key = key := by
          rw [JudgeQualification.key, hconfigurationSame, hpolicySame, ← hkey]
        have hsub : (history.filter (·.key = key)) =
            ((history.filter (·.configuration = configuration)).filter (·.key = key)) := by
          rw [List.filter_filter]
          refine List.filter_congr (fun r _ => ?_)
          by_cases hr : r.key = key
          · have hc : r.configuration = configuration := by rw [← hkey, ← hr]; rfl
            simp [hr, hc]
          · simp [hr]
        obtain ⟨front, hfront⟩ := List.getLast?_eq_some_iff.1 hrecord
        rw [hsub, hfront, List.filter_append, List.filter_cons_of_pos (by simpa using hrecordKey), List.filter_nil,
          List.getLast?_concat] at hrow
        rw [Option.map_some, Option.some.inj hrow]

/-- **A lookup finds the latest matching registration, and a pass is judged by it, exactly when** the query names its
policy, or its calibration version is unknown, or the newest policy was registered last. -/
theorem lookup_latest_iff (history : List JudgeQualification) (q : Query) :
    ((registered history).lookup q = latest history q ∧
        ∀ str pass policy, judgeQuery str pass policy = some q →
          passGateEligibility str pass (registered history) policy = eligibilityOf (latest history q)) ↔
      (q.policySha256 = none → ∀ configuration, q.configuration = some configuration →
        NewestPolicyLast history configuration) := by
  have hpass (hlookup : (registered history).lookup q = latest history q) (str : Value → String) (pass : Document)
      (policy : Option String) (hq : judgeQuery str pass policy = some q) :
      passGateEligibility str pass (registered history) policy = eligibilityOf (latest history q) := by
    unfold passGateEligibility
    rw [hq]
    exact congrArg eligibilityOf hlookup
  constructor
  · rintro ⟨hlookup, _⟩ hpolicy configuration hconfiguration
    exact (lookup_any hconfiguration hpolicy).1 hlookup
  · intro hcondition
    refine (fun hlookup => ⟨hlookup, hpass hlookup⟩) ?_
    cases hconfiguration : q.configuration with
    | none =>
      have hnone : latest history q = none := by
        unfold latest
        rw [List.filter_eq_nil_iff.2 (fun record _ hasks => ?_)]
        · rfl
        · have h := (of_decide_eq_true hasks).1
          rw [hconfiguration] at h
          cases h
      rw [hnone]
      simp only [lookup, hconfiguration]
    | some configuration =>
      cases hpolicy : q.policySha256 with
      | none => exact (lookup_any hconfiguration hpolicy).2 (hcondition hpolicy configuration hconfiguration)
      | some policy => exact lookup_policy hconfiguration hpolicy

end

/-! ### A policy that comes back -/

/-- A qualification of one configuration under this policy. -/
def qualificationUnder (policy : String) (gateEligible : Bool) : JudgeQualification where
  qualificationId := policy
  judgeSpecSha256 := "spec"
  policySha256 := some policy
  rubricId := "rubric"
  rubricVersion := "1"
  model := "model"
  calibrationId := "calibration"
  calibrationVersion := "1"
  calibrationSha256 := "content"
  qualified := gateEligible
  experimental := !gateEligible
  gateEligible := gateEligible

/-- **A registration under an older policy is not found**: the gate goes on with the record it has superseded. -/
theorem lookup_finds_superseded :
    let history := [qualificationUnder "old" true, qualificationUnder "new" true, qualificationUnder "old" false]
    let q : Query := {
      judgeSpecSha256 := "spec"
      rubricId := "rubric"
      rubricVersion := "1"
      model := "model"
      calibrationVersion := some "1" }
    latest history q = some (qualificationUnder "old" false) ∧
      (registered history).lookup q = some (qualificationUnder "new" true) ∧
      ((registered history).eligible q).gateEligible = true := by
  decide +kernel

end Motte.Calibration
