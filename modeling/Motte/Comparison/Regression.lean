import Mathlib.Data.Finset.Card
import Motte.Foundation.Access
import Motte.Foundation.Table

/-! Regressions.

The cases of two runs are put into eight classes. A case that only one run has is added or
removed, whatever it came to; a case of both is classified by what its trials came to
together on either side. -/
namespace Motte.Comparison
open Foundation

/-- `AggregatedOutcome` -/
inductive Outcome where
  | pass
  | fail
  | unknown
  | instability
deriving DecidableEq

inductive RegressionClass where
  | newFailure
  | fixed
  | persistentFailure
  | persistentPass
  | changedUnknown
  | addedCase
  | removedCase
  | instability
deriving DecidableEq

def RegressionClass.name : RegressionClass → String
  | .newFailure => "new_failure"
  | .fixed => "fixed"
  | .persistentFailure => "persistent_failure"
  | .persistentPass => "persistent_pass"
  | .changedUnknown => "changed_unknown"
  | .addedCase => "added_case"
  | .removedCase => "removed_case"
  | .instability => "instability"

/-- `REGRESSION_CLASSES` -/
def regressionClasses : List RegressionClass :=
  [.newFailure, .fixed, .persistentFailure, .persistentPass, .changedUnknown, .addedCase, .removedCase, .instability]

/-- `_CHANGED_CLASSES` -/
def changedClasses : List RegressionClass := [.newFailure, .fixed, .changedUnknown]

/-- `_normalize_outcome` -/
def normalizeOutcome (value : Value) : Outcome :=
  if value = .str "pass" then .pass
  else if value = .str "fail" then .fail
  else .unknown

/-- `_aggregate_trials` -/
def aggregateTrials : Value → Outcome
  | .arr outcomes =>
    let hasPass := outcomes.any (· = .str "pass")
    let hasFail := outcomes.any (· = .str "fail")
    if outcomes = [] then .unknown
    else if hasPass && hasFail then .instability
    else if !hasPass && !hasFail then .unknown
    else
      let definitive := if hasPass then "pass" else "fail"
      if outcomes.all (· = .str definitive) then (if hasPass then .pass else .fail) else .unknown
  | _ => .unknown

/-- `_classify_pair` -/
def classifyPair (base cand : Outcome) : RegressionClass :=
  if base = .instability ∨ cand = .instability then .instability
  else if base = .unknown ∨ cand = .unknown then .changedUnknown
  else if base = cand then if base = .pass then .persistentPass else .persistentFailure
  else if base = .pass then .newFailure
  else .fixed

/-- What a classification gives. -/
structure Classified where
  classification : List (String × RegressionClass)
  counts : List (RegressionClass × ℕ)
  common : List String
  added : List String
  removed : List String
  changed : List String
  totalBaseline : ℕ
  totalCandidate : ℕ
deriving DecidableEq

def keys {α : Type} (cases : Table String α) : List String := cases.rows.map Prod.fst

/-- The outcome of a case that is there. -/
def outcomeOf (cases : Table String Outcome) (caseId : String) : Outcome := (cases.get caseId).getD .unknown

/-- `_classify_aligned` -/
def classifyAligned (baseline candidate : Table String Outcome) : Classified :=
  let common := sortedTexts ((keys baseline).filter (· ∈ keys candidate))
  let added := sortedTexts ((keys candidate).filter (· ∉ keys baseline))
  let removed := sortedTexts ((keys baseline).filter (· ∉ keys candidate))
  let classification :=
    common.map (fun caseId => (caseId, classifyPair (outcomeOf baseline caseId) (outcomeOf candidate caseId))) ++
      added.map (·, .addedCase) ++ removed.map (·, .removedCase)
  { classification
    counts := regressionClasses.map (fun name => (name, (classification.map Prod.snd).count name))
    common, added, removed
    changed := sortedTexts ((classification.filter (fun entry => entry.2 ∈ changedClasses)).map Prod.fst)
    totalBaseline := baseline.rows.length, totalCandidate := candidate.rows.length }

/-- `classify_cases` -/
def classifyCases (baseline candidate : Table String Value) : Classified :=
  classifyAligned (baseline.map normalizeOutcome) (candidate.map normalizeOutcome)

structure TrialsClassified extends Classified where
  unstableCases : List String
deriving DecidableEq

/-- `classify_with_trials` -/
def classifyWithTrials (baseline candidate : Table String Value) : TrialsClassified :=
  let aggregatedBaseline := baseline.map aggregateTrials
  let aggregatedCandidate := candidate.map aggregateTrials
  { classifyAligned aggregatedBaseline aggregatedCandidate with
    unstableCases := sortedTexts ((keys baseline ++ (keys candidate).filter (· ∉ keys baseline)).filter (fun caseId =>
      aggregatedBaseline.get caseId = some .instability || aggregatedCandidate.get caseId = some .instability)) }

def isList : Value → Bool
  | .arr _ => true
  | _ => false

/-- A single result as a list of one trial. -/
def asTrials (value : Value) : Value := if isList value then value else .arr [value]

structure RegressionReport extends Classified where
  unstableCases : Option (List String)
  hasRegressions : Bool
  hasImprovements : Bool
deriving DecidableEq

/-- `counts[name]` -/
def Classified.count (c : Classified) (name : RegressionClass) : ℕ := (c.counts.lookup name).getD 0

/-- The end of `regression_report` -/
def withFlags (c : Classified) (unstableCases : Option (List String)) : RegressionReport :=
  { c with
    unstableCases
    hasRegressions := 0 < c.count .newFailure || 0 < c.count .removedCase || 0 < c.count .instability
    hasImprovements := 0 < c.count .fixed }

/-- `regression_report` -/
def regressionReport (baseline candidate : Table String Value) : RegressionReport :=
  let trialsMode := (baseline.rows ++ candidate.rows).any (fun row => isList row.2)
  if trialsMode then
    let result := classifyWithTrials (baseline.map asTrials) (candidate.map asTrials)
    withFlags result.toClassified (some result.unstableCases)
  else withFlags (classifyCases baseline candidate) none

/-! ### Classes -/

/-- The class when the sides are swapped. -/
def RegressionClass.dual : RegressionClass → RegressionClass
  | .newFailure => .fixed
  | .fixed => .newFailure
  | .addedCase => .removedCase
  | .removedCase => .addedCase
  | name => name

theorem classifyPair_dual (base cand : Outcome) : classifyPair cand base = (classifyPair base cand).dual := by
  cases base <;> cases cand <;> rfl

/-- Only a candidate that passes is said to pass. -/
theorem classifyPair_pass {base cand : Outcome} (h : cand ≠ .pass) :
    classifyPair base cand ≠ .persistentPass ∧ classifyPair base cand ≠ .fixed := by
  cases cand with
  | pass => exact absurd rfl h
  | fail => cases base <;> decide
  | unknown => cases base <;> decide
  | instability => cases base <;> decide

/-- The class of a case, by what it came to where it is there. -/
def classAt : Option Outcome → Option Outcome → Option RegressionClass
  | some base, some cand => some (classifyPair base cand)
  | none, some _ => some .addedCase
  | some _, none => some .removedCase
  | none, none => none

theorem classAt_dual (base cand : Option Outcome) : classAt cand base = (classAt base cand).map RegressionClass.dual := by
  cases base with
  | none => cases cand <;> rfl
  | some b =>
    cases cand with
    | none => rfl
    | some c => exact congrArg some (classifyPair_dual b c)

/-! ### The classification -/

section
variable {baseline candidate : Table String Outcome}

theorem mem_keys {cases : Table String Outcome} {caseId : String} : caseId ∈ keys cases ↔ ∃ outcome, cases.get caseId = some outcome := by
  rw [← Option.ne_none_iff_exists', ne_eq, Table.get_eq_none_iff, not_not]
  rfl

theorem outcomeOf_eq {cases : Table String Outcome} {caseId : String} {outcome : Outcome} (h : cases.get caseId = some outcome) :
    outcomeOf cases caseId = outcome := by
  unfold outcomeOf
  rw [h, Option.getD_some]

theorem mem_map_pair {α β : Type} {f : α → β} {items : List α} {a : α} {b : β} :
    (a, b) ∈ items.map (fun item => (item, f item)) ↔ a ∈ items ∧ f a = b := by
  rw [List.mem_map]
  constructor
  · rintro ⟨item, hitem, heq⟩
    cases heq
    exact ⟨hitem, rfl⟩
  · rintro ⟨hmem, rfl⟩
    exact ⟨a, hmem, rfl⟩

/-- Each case that is there has its class. -/
theorem mem_classification {caseId : String} {name : RegressionClass} :
    (caseId, name) ∈ (classifyAligned baseline candidate).classification ↔
      classAt (baseline.get caseId) (candidate.get caseId) = some name := by
  have hmem : (caseId, name) ∈ (classifyAligned baseline candidate).classification ↔
      (((caseId ∈ keys baseline ∧ caseId ∈ keys candidate) ∧ classifyPair (outcomeOf baseline caseId) (outcomeOf candidate caseId) = name) ∨
        (caseId ∈ keys candidate ∧ caseId ∉ keys baseline) ∧ RegressionClass.addedCase = name) ∨
        (caseId ∈ keys baseline ∧ caseId ∉ keys candidate) ∧ RegressionClass.removedCase = name := by
    unfold classifyAligned
    simp only [List.mem_append, mem_map_pair, mem_sortedTexts, List.mem_filter, decide_eq_true_eq]
  rw [hmem, mem_keys, mem_keys]
  cases hbase : baseline.get caseId with
  | none => cases candidate.get caseId <;> simp [classAt]
  | some base =>
    cases hcand : candidate.get caseId with
    | none => simp [classAt]
    | some cand => simp [classAt, outcomeOf_eq hbase, outcomeOf_eq hcand]

/-- No case is classified twice. -/
theorem nodup_classification : ((classifyAligned baseline candidate).classification.map Prod.fst).Nodup := by
  have hsorted {ids : List String} (h : ids.Nodup) : (sortedTexts ids).Nodup := (List.perm_insertionSort _ ids).nodup_iff.2 h
  simp only [classifyAligned, List.map_append, List.map_map, Function.comp_def, List.map_id']
  have hbaseline : (keys baseline).Nodup := baseline.nodup
  have hcandidate : (keys candidate).Nodup := candidate.nodup
  refine List.nodup_append.2 ⟨List.nodup_append.2 ⟨hsorted (hbaseline.filter _), hsorted (hcandidate.filter _), ?_⟩,
    hsorted (hbaseline.filter _), ?_⟩
  · rintro id hcommon _ hadded rfl
    exact (of_decide_eq_true (List.mem_filter.1 (mem_sortedTexts.1 hadded)).2) (List.mem_filter.1 (mem_sortedTexts.1 hcommon)).1
  · rintro id hother _ hremoved rfl
    have hnot : id ∉ keys candidate := of_decide_eq_true (List.mem_filter.1 (mem_sortedTexts.1 hremoved)).2
    rcases List.mem_append.1 hother with hcommon | hadded
    · exact hnot (of_decide_eq_true (List.mem_filter.1 (mem_sortedTexts.1 hcommon)).2)
    · exact hnot (List.mem_filter.1 (mem_sortedTexts.1 hadded)).1

/-- Swapped sides give each case the dual class. -/
theorem classification_dual : (classifyAligned candidate baseline).classification.Perm
    ((classifyAligned baseline candidate).classification.map (fun entry => (entry.1, entry.2.dual))) := by
  have hnodup : ((classifyAligned baseline candidate).classification.map (fun entry => (entry.1, entry.2.dual))).Nodup := by
    refine List.Nodup.of_map Prod.fst ?_
    rw [List.map_map]
    exact nodup_classification
  refine (List.perm_ext_iff_of_nodup nodup_classification.of_map hnodup).2 ?_
  rintro ⟨caseId, name⟩
  rw [mem_classification, classAt_dual, Option.map_eq_some_iff, List.mem_map]
  constructor
  · rintro ⟨other, hclass, rfl⟩
    exact ⟨(caseId, other), mem_classification.2 hclass, rfl⟩
  · rintro ⟨⟨id, other⟩, hmem, heq⟩
    cases heq
    exact ⟨other, mem_classification.1 hmem, rfl⟩

end

/-- Every entry is counted in one class. -/
theorem sum_counts (names : List RegressionClass) : (regressionClasses.map (fun name => names.count name)).sum = names.length := by
  induction names with
  | nil => rfl
  | cons name rest ih =>
    have hstep : (regressionClasses.map (fun other => (name :: rest).count other)).sum =
        (regressionClasses.map (fun other => rest.count other)).sum + 1 := by
      simp only [regressionClasses, List.map_cons, List.map_nil, List.sum_cons, List.sum_nil, List.count_cons]
      cases name <;> simp only [beq_self_eq_true, if_true, reduceCtorEq, beq_iff_eq, if_false] <;> omega
    rw [hstep, ih, List.length_cons]

theorem count_eq (baseline candidate : Table String Outcome) (name : RegressionClass) :
    (classifyAligned baseline candidate).count name = ((classifyAligned baseline candidate).classification.map Prod.snd).count name := by
  unfold Classified.count
  cases name <;> rfl

/-! ### The laws -/

/-- The cases of either side. -/
def casesOfEither (baseline candidate : Table String Value) : Finset String := (keys baseline).toFinset ∪ (keys candidate).toFinset

/-- Some trial of the case failed. -/
def HasFailed (value : Value) : Prop := value = .str "fail" ∨ ∃ trials, value = .arr trials ∧ .str "fail" ∈ trials

/-- Each case is in one class, and the counts are those of the classes. -/
structure Partitioned (c : Classified) (cases : Finset String) : Prop where
  once : (c.classification.map Prod.fst).Nodup
  every : ∀ caseId, (∃ name, (caseId, name) ∈ c.classification) ↔ caseId ∈ cases
  counted : ∀ name, c.count name = (c.classification.map Prod.snd).count name
  total : (c.counts.map Prod.snd).sum = cases.card

structure RegressionLaws (classify : Table String Value → Table String Value → Classified) : Prop where
  partitioned : ∀ baseline candidate, Partitioned (classify baseline candidate) (casesOfEither baseline candidate)
  dual : ∀ baseline candidate, (classify candidate baseline).classification.Perm
    ((classify baseline candidate).classification.map (fun entry => (entry.1, entry.2.dual)))
  failed : ∀ baseline candidate caseId value name, candidate.get caseId = some value → HasFailed value →
    (caseId, name) ∈ (classify baseline candidate).classification → name ≠ .persistentPass ∧ name ≠ .fixed

/-- A single result as a list of one trial gives the same. -/
structure SinglePathAgrees (baseline candidate : Table String Value) : Prop where
  trials : classifyWithTrials (baseline.map (fun value => .arr [value])) (candidate.map (fun value => .arr [value])) =
    { classifyCases baseline candidate with unstableCases := [] }
  report : (regressionReport (baseline.map (fun value => .arr [value])) (candidate.map (fun value => .arr [value]))).toClassified =
    classifyCases baseline candidate

section
variable {baseline candidate : Table String Value} {f : Value → Outcome}

theorem keys_map (cases : Table String Value) : keys (cases.map f) = keys cases := by
  unfold keys
  rw [Table.map_rows, List.map_map]
  rfl

theorem partitioned_aligned : Partitioned (classifyAligned (baseline.map f) (candidate.map f)) (casesOfEither baseline candidate) := by
  have hevery (caseId : String) : (∃ name, (caseId, name) ∈ (classifyAligned (baseline.map f) (candidate.map f)).classification) ↔
      caseId ∈ casesOfEither baseline candidate := by
    unfold casesOfEither
    rw [Finset.mem_union, List.mem_toFinset, List.mem_toFinset, ← @keys_map f baseline, ← @keys_map f candidate, mem_keys, mem_keys]
    simp only [mem_classification]
    cases (baseline.map f).get caseId <;> cases (candidate.map f).get caseId <;> simp [classAt]
  refine ⟨nodup_classification, hevery, count_eq _ _, ?_⟩
  have hids : ((classifyAligned (baseline.map f) (candidate.map f)).classification.map Prod.fst).toFinset = casesOfEither baseline candidate := by
    ext caseId
    rw [List.mem_toFinset, ← hevery, List.mem_map]
    constructor
    · rintro ⟨⟨id, name⟩, hmem, rfl⟩
      exact ⟨name, hmem⟩
    · rintro ⟨name, hmem⟩
      exact ⟨(caseId, name), hmem, rfl⟩
  have hcounts : ((classifyAligned (baseline.map f) (candidate.map f)).counts.map Prod.snd).sum = (regressionClasses.map (fun name =>
      ((classifyAligned (baseline.map f) (candidate.map f)).classification.map Prod.snd).count name)).sum := rfl
  rw [hcounts, sum_counts, List.length_map, ← hids, List.toFinset_card_of_nodup nodup_classification, List.length_map]

/-- The laws hold of whatever never reads a case with a failed trial as one that passes. -/
theorem laws_aligned (hf : ∀ value, HasFailed value → f value ≠ .pass) :
    RegressionLaws (fun baseline candidate => classifyAligned (baseline.map f) (candidate.map f)) where
  partitioned baseline candidate := partitioned_aligned
  dual baseline candidate := classification_dual
  failed baseline candidate caseId value name hget hfailed hmem := by
    have hclass := mem_classification.1 hmem
    rw [Table.get_map, Table.get_map, hget, Option.map_some] at hclass
    cases hbase : baseline.get caseId with
    | none =>
      rw [hbase] at hclass
      cases hclass
      decide
    | some base =>
      rw [hbase] at hclass
      cases hclass
      exact classifyPair_pass (hf value hfailed)

end

theorem normalizeOutcome_failed {value : Value} (h : HasFailed value) : normalizeOutcome value ≠ .pass := by
  rcases h with rfl | ⟨trials, rfl, _⟩
  · decide
  · exact nofun

theorem aggregateTrials_failed {value : Value} (h : HasFailed value) : aggregateTrials value ≠ .pass := by
  rcases h with rfl | ⟨trials, rfl, hmem⟩
  · exact nofun
  · have hfail : trials.any (· = .str "fail") = true := List.any_eq_true.2 ⟨_, hmem, decide_eq_true rfl⟩
    unfold aggregateTrials
    simp only [hfail, Bool.and_true, Bool.not_true, Bool.and_false]
    cases trials.any (· = .str "pass") <;> simp only [if_true, if_false, Bool.false_eq_true] <;> split <;> try split
    all_goals exact nofun

/-- What a case of a report comes to, whether it is a list of trials or a single result. -/
def reportedOutcome (value : Value) : Outcome := aggregateTrials (asTrials value)

/-- One trial comes to what it is. -/
theorem aggregateTrials_single (value : Value) : aggregateTrials (.arr [value]) = normalizeOutcome value := by
  unfold aggregateTrials normalizeOutcome
  by_cases hpass : value = .str "pass"
  · subst hpass
    rfl
  · by_cases hfail : value = .str "fail"
    · subst hfail
      rfl
    · simp [hpass, hfail]

theorem reportedOutcome_failed {value : Value} (h : HasFailed value) : reportedOutcome value ≠ .pass := by
  refine aggregateTrials_failed ?_
  rcases h with rfl | ⟨trials, rfl, hmem⟩
  · exact .inr ⟨_, rfl, List.mem_singleton_self _⟩
  · exact .inr ⟨trials, rfl, hmem⟩

theorem reportedOutcome_single {value : Value} (h : isList value = false) : reportedOutcome value = normalizeOutcome value := by
  unfold reportedOutcome asTrials
  rw [h, if_neg Bool.false_ne_true, aggregateTrials_single]

/-- Either path of the report classifies what the cases come to. -/
theorem regressionReport_eq (baseline candidate : Table String Value) :
    (regressionReport baseline candidate).toClassified = classifyAligned (baseline.map reportedOutcome) (candidate.map reportedOutcome) := by
  unfold regressionReport
  simp only
  split
  · have hmap (cases : Table String Value) : (cases.map asTrials).map aggregateTrials = cases.map reportedOutcome := by
      refine Table.ext_rows ?_
      rw [Table.map_rows, Table.map_rows, Table.map_rows, List.map_map]
      rfl
    rw [← hmap, ← hmap]
    rfl
  · rename_i hsingle
    have hread (cases : Table String Value) (h : ∀ row ∈ cases.rows, isList row.2 = false) :
        cases.map normalizeOutcome = cases.map reportedOutcome := by
      refine Table.ext_rows (List.map_congr_left (fun row hrow => ?_))
      rw [reportedOutcome_single (h row hrow)]
    have hnone : ∀ row ∈ baseline.rows ++ candidate.rows, isList row.2 = false := by
      intro row hrow
      by_contra hlist
      exact hsingle (List.any_eq_true.2 ⟨row, hrow, by simpa using hlist⟩)
    rw [← hread baseline (fun row hrow => hnone row (List.mem_append_left _ hrow)),
      ← hread candidate (fun row hrow => hnone row (List.mem_append_right _ hrow))]
    rfl

theorem singlePathAgrees (baseline candidate : Table String Value) : SinglePathAgrees baseline candidate := by
  have hread {f : Value → Outcome} (hf : ∀ value, f (.arr [value]) = normalizeOutcome value) (cases : Table String Value) :
      (cases.map (fun value => Value.arr [value])).map f = cases.map normalizeOutcome := by
    refine Table.ext_rows ?_
    rw [Table.map_rows, Table.map_rows, Table.map_rows, List.map_map]
    refine List.map_congr_left (fun row _ => ?_)
    rw [Function.comp_apply, hf]
  have hmap := hread aggregateTrials_single
  have hreported := hread (f := reportedOutcome) aggregateTrials_single
  refine ⟨?_, ?_⟩
  · have hstable (cases : Table String Value) (caseId : String) : ¬(cases.map normalizeOutcome).get caseId = some .instability := by
      rw [Table.get_map, Option.map_eq_some_iff]
      rintro ⟨value, _, hvalue⟩
      unfold normalizeOutcome at hvalue
      split at hvalue
      · cases hvalue
      · split at hvalue <;> cases hvalue
    unfold classifyWithTrials classifyCases
    simp only [hmap, hstable, decide_false, Bool.or_self, List.filter_false]
    rfl
  · rw [regressionReport_eq, hreported, hreported]
    rfl

theorem regression_laws : RegressionLaws classifyCases ∧ RegressionLaws (fun baseline candidate => (classifyWithTrials baseline candidate).toClassified) ∧
    RegressionLaws (fun baseline candidate => (regressionReport baseline candidate).toClassified) ∧
    ∀ baseline candidate, SinglePathAgrees baseline candidate := by
  refine ⟨laws_aligned (fun _ => normalizeOutcome_failed), laws_aligned (fun _ => aggregateTrials_failed), ?_, singlePathAgrees⟩
  simp only [regressionReport_eq]
  exact laws_aligned (fun _ => reportedOutcome_failed)

end Motte.Comparison
