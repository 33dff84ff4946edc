import Mathlib.Data.List.Basic
import Motte.Foundation.Op
import Motte.Gate.Judgement

/-! How the decision comes from the results.

A decision is preferred when it stands earlier in the order of priority. The
aggregate is the preferred one of the contributions, so it depends on which
contributions there are and not on their order; a policy passes when nothing
contributes and nothing was skipped. -/
namespace Motte.Gate
open Foundation

/-! ### Searching in an order -/

/-- What a search finds does not come after anything else that it could have found. -/
theorem find?_idxOf_le {α : Type} [DecidableEq α] {q : α → Bool} {order : List α} {c : α} (hc : c ∈ order)
    (hq : q c = true) : ∃ d, order.find? q = some d ∧ q d = true ∧ order.idxOf d ≤ order.idxOf c := by
  induction order with
  | nil => cases hc
  | cons a rest ih =>
    by_cases ha : q a = true
    · exact ⟨a, by rw [List.find?_cons, ha], ha, by simp⟩
    · have hne : ∀ d, q d = true → a ≠ d := by
        intro d hd heq
        exact ha (heq ▸ hd)
      have hrest : c ∈ rest := (List.mem_cons.1 hc).resolve_left (fun h => hne c hq h.symm)
      obtain ⟨d, hd, hqd, hle⟩ := ih hrest
      refine ⟨d, ?_, hqd, ?_⟩
      · rw [List.find?_cons, Bool.eq_false_iff.2 ha, hd]
      · rw [List.idxOf_cons_ne _ (hne d hqd), List.idxOf_cons_ne _ (hne c hq)]
        omega

/-! ### The aggregate -/

/-- The place in the order of priority; the highest priority stands first. -/
def rank (d : GateDecision) : Nat := decisionPriority.idxOf d

theorem mem_decisionPriority (d : GateDecision) : d ∈ decisionPriority := by cases d <;> decide

theorem rank_injective {d e : GateDecision} (h : rank d = rank e) : d = e := by
  cases d <;> cases e <;> first | rfl | (exact absurd h (by decide))

theorem rank_le_pass (d : GateDecision) : rank d ≤ rank .pass := by cases d <;> decide

section Aggregate
variable {results results' : List RuleResult} {d : GateDecision}

theorem mem_contributions : d ∈ contributions results ↔ ∃ r ∈ results, r.severity = .block ∧ r.decision = some d := by
  simp [contributions, and_assoc]

/-- The aggregate comes before every contribution. -/
theorem rank_aggregate_le (h : d ∈ contributions results) : rank (aggregate results) ≤ rank d := by
  obtain ⟨e, he, -, hle⟩ := find?_idxOf_le (q := fun c => (c ∈ contributions results : Bool)) (mem_decisionPriority d)
    (by simpa using h)
  rw [aggregate, he]
  exact hle

theorem aggregate_mem : aggregate results ∈ contributions results ∨ aggregate results = .pass := by
  unfold aggregate
  cases hfind : decisionPriority.find? (fun c => (c ∈ contributions results : Bool)) with
  | none => exact .inr rfl
  | some e =>
    have hmem := List.find?_some hfind
    exact .inl (by simpa using hmem)

theorem aggregate_eq_pass_iff : aggregate results = .pass ↔ ∀ d ∈ contributions results, d = .pass := by
  constructor
  · intro h d hd
    have hle := rank_aggregate_le hd
    rw [h] at hle
    exact rank_injective (le_antisymm (rank_le_pass d) hle)
  · intro h
    rcases @aggregate_mem results with hmem | hpass
    · exact h _ hmem
    · exact hpass

/-- More contributions do not lower the priority. -/
theorem rank_aggregate_mono (h : ∀ d ∈ contributions results, d ∈ contributions results') :
    rank (aggregate results') ≤ rank (aggregate results) := by
  rcases @aggregate_mem results with hmem | hpass
  · exact rank_aggregate_le (h _ hmem)
  · rw [hpass]
    exact rank_le_pass _

theorem aggregate_congr (h : ∀ d, d ∈ contributions results ↔ d ∈ contributions results') :
    aggregate results = aggregate results' :=
  rank_injective (le_antisymm (rank_aggregate_mono (fun d hd => (h d).2 hd)) (rank_aggregate_mono (fun d hd => (h d).1 hd)))

theorem decisionOf_eq_pass_iff : decisionOf results = .pass ↔
    (∀ d ∈ contributions results, d = .pass) ∧ ∀ r ∈ results, r.diagnosticSkipped = false := by
  rw [← aggregate_eq_pass_iff]
  unfold decisionOf
  by_cases hpass : aggregate results = .pass
  · by_cases hskip : results.any (·.diagnosticSkipped) = true
    · simp only [hpass, hskip, decide_true, Bool.and_self, if_true]
      simpa using hskip
    · simp only [hpass, hskip, Bool.and_false, Bool.false_eq_true, if_false, true_and, true_iff]
      simpa using hskip
  · simp [hpass]

/-- The results alone count, not their order. -/
theorem decisionOf_perm (h : results.Perm results') : decisionOf results = decisionOf results' := by
  have haggregate : aggregate results = aggregate results' := by
    apply aggregate_congr
    intro d
    simp only [mem_contributions, h.mem_iff]
  have hskipped : results.any (·.diagnosticSkipped) = results'.any (·.diagnosticSkipped) := by
    rw [Bool.eq_iff_iff]
    simp only [List.any_eq_true, h.mem_iff]
  rw [decisionOf, decisionOf, haggregate, hskipped]

end Aggregate

/-! ### The whole evaluation -/

section Evaluation
variable {δ : Type} {b : Builtins} {C : PairwiseContracts} {H : Digests δ} {p : GatePolicyVersion} {x : Evaluation}
  {a : GateResult δ}

/-- The results of the rules come first, in their order. -/
structure Evaluated (b : Builtins) (C : PairwiseContracts) (p : GatePolicyVersion) (x : Evaluation)
    (results : List RuleResult) : Prop where
  checked : checkPairwise p x = .ok ()
  rules : ∃ ruled, List.Forall₂ (fun r result => evaluateRule b C p x r = .ok result) p.rules ruled ∧
    results = ruled ++ (qualificationResults b C p x ++ pairwiseUnavailable p x)

theorem evaluateGatePolicy_ok (h : evaluateGatePolicy b C H p x = .ok a) :
    Evaluated b C p x a.ruleResults ∧ a.decision = decisionOf a.ruleResults ∧
      a.evaluationInputHash = H.hash (evaluationInput H p x) ∧
      a.resultSemanticsHash = H.hash (resultSemantics H p x) := by
  simp only [evaluateGatePolicy, except_bind_ok_iff, except_pure_ok_iff] at h
  obtain ⟨_, hchecked, results, hresults, rfl⟩ := h
  simp only [ruleResults, except_bind_ok_iff, except_pure_ok_iff] at hresults
  obtain ⟨ruled, hruled, rfl⟩ := hresults
  exact ⟨⟨hchecked, ruled, mapM_ok hruled, rfl⟩, rfl, rfl, rfl⟩

theorem decisionAt_of_evaluated (h : evaluateGatePolicy b C H p x = .ok a) : decisionAt b C p x = some a.decision := by
  simp only [evaluateGatePolicy, except_bind_ok_iff, except_pure_ok_iff] at h
  obtain ⟨_, hchecked, results, hresults, rfl⟩ := h
  simp only [decisionAt, hchecked, hresults]

theorem evaluated_of_decisionAt (H : Digests δ) {d : GateDecision} (h : decisionAt b C p x = some d) :
    ∃ a, evaluateGatePolicy b C H p x = .ok a ∧ a.decision = d := by
  cases heval : evaluateGatePolicy b C H p x with
  | ok a =>
    rw [decisionAt_of_evaluated heval] at h
    exact ⟨a, rfl, Option.some.inj h⟩
  | error e =>
    unfold decisionAt at h
    split at h
    · rename_i results hchecked hresults
      simp only [evaluateGatePolicy, hchecked, hresults, bind, Except.bind, pure, Except.pure, reduceCtorEq] at heval
    · cases h

/-- What a result for the qualification of a judge says. -/
theorem qualificationResult_eq_some {role : String} {qualification : Value} {result : RuleResult}
    (h : qualificationResult b role qualification = some result) :
    result.severity = .block ∧ result.diagnosticSkipped = false ∧ result.decision ≠ some .pass ∧
      (result.status = .pass ↔ Qualified qualification) ∧ (result.decision = none ↔ Qualified qualification) := by
  unfold qualificationResult at h
  split at h
  · rename_i hrequired
    cases h
    have hiff : (qualification.get? "gate_eligible" = some (.bool true)) ↔ Qualified qualification :=
      ⟨fun he _ => he, fun hq => hq hrequired⟩
    by_cases he : qualification.get? "gate_eligible" = some (.bool true)
    · simp [he, hiff.1 he]
    · have hnot : ¬Qualified qualification := fun hq => he (hiff.2 hq)
      simp [he, hnot]
  · cases h

theorem qualificationResult_eq_none {role : String} {qualification : Value} :
    qualificationResult b role qualification = none → Qualified qualification := by
  unfold qualificationResult
  split
  · intro h
    cases h
  · rename_i hrequired
    intro _ h
    exact absurd h hrequired

/-- The results beside the rules are blocking, none is skipped, and they pass just when the judges are qualified. -/
theorem beside_rules (result : RuleResult) (h : result ∈ qualificationResults b C p x ++ pairwiseUnavailable p x) :
    result.severity = .block ∧ result.diagnosticSkipped = false ∧ result.decision ≠ some .pass ∧
      (result.status = .pass ↔ result.decision = none) := by
  have hitem : ∀ {role : String} {qualification : Value}, qualificationResult b role qualification = some result →
      result.severity = .block ∧ result.diagnosticSkipped = false ∧ result.decision ≠ some .pass ∧
        (result.status = .pass ↔ result.decision = none) := by
    intro role qualification hresult
    obtain ⟨hseverity, hskipped, hpass, hstatus, hdecision⟩ := qualificationResult_eq_some hresult
    exact ⟨hseverity, hskipped, hpass, hstatus.trans hdecision.symm⟩
  rcases List.mem_append.1 h with hq | hu
  · unfold qualificationResults at hq
    split at hq
    · rcases List.mem_cons.1 hq with rfl | hq
      · unfold pairwiseQualificationResult
        cases (pairwiseQualification C ((x.evidence.judgeQualification.get "candidate").getD .null) x.candidate).1 <;>
          simp
      · obtain ⟨item, -, hresult⟩ := List.mem_filterMap.1 hq
        exact hitem hresult
    · obtain ⟨item, -, hresult⟩ := List.mem_filterMap.1 hq
      exact hitem hresult
  · unfold pairwiseUnavailable at hu
    split at hu
    · rw [List.mem_singleton] at hu
      rw [hu]
      simp
    · cases hu

theorem judges_iff : (∀ result ∈ qualificationResults b C p x ++ pairwiseUnavailable p x, result.decision = none) ↔
    JudgesQualified C p x := by
  have hitems : ∀ items : List (String × Value),
      (∀ result ∈ items.filterMap (fun item => qualificationResult b item.1 item.2), result.decision = none) ↔
        ∀ item ∈ items, Qualified item.2 := by
    intro items
    constructor
    · intro h item hitem
      cases hresult : qualificationResult b item.1 item.2 with
      | none => exact qualificationResult_eq_none hresult
      | some result =>
        have hnone := h result (List.mem_filterMap.2 ⟨item, hitem, hresult⟩)
        exact (qualificationResult_eq_some hresult).2.2.2.2.1 hnone
    · intro h result hresult
      obtain ⟨item, hitem, hresult⟩ := List.mem_filterMap.1 hresult
      exact (qualificationResult_eq_some hresult).2.2.2.2.2 (h item hitem)
  have hunavailable : (∀ result ∈ pairwiseUnavailable p x, result.decision = none) ↔
      ((∃ item ∈ x.evidence.judgeQualification.rows, pairwiseMode item.2 = true) →
        ∀ r ∈ p.rules, r.booleanQuality = false) := by
    unfold pairwiseUnavailable
    split
    · rename_i hmode
      simp only [Bool.and_eq_true, List.any_eq_true] at hmode
      obtain ⟨hmode, r, hr, hquality⟩ := hmode
      simp only [List.mem_singleton, forall_eq, reduceCtorEq, false_iff]
      intro h
      have hfalse := h hmode r hr
      rw [hquality] at hfalse
      cases hfalse
    · rename_i hmode
      simp only [List.not_mem_nil, false_implies, implies_true, true_iff]
      intro hpair r hr
      by_contra hquality
      apply hmode
      simp only [Bool.and_eq_true, List.any_eq_true]
      exact ⟨hpair, r, hr, by simpa using hquality⟩
  have hqualified : (∀ result ∈ qualificationResults b C p x, result.decision = none) ↔
      (referencesPairwiseQuality p = true →
        (pairwiseQualification C ((x.evidence.judgeQualification.get "candidate").getD .null) x.candidate).1 = true) ∧
      ∀ item ∈ x.evidence.judgeQualification.rows,
        (referencesPairwiseQuality p = true → item.1 ≠ "candidate") → Qualified item.2 := by
    unfold qualificationResults
    split
    · rename_i hpairwise
      rw [List.forall_mem_cons, hitems]
      simp only [hpairwise, true_implies, List.mem_filter, decide_eq_true_eq, and_imp]
      have hfirst : (pairwiseQualificationResult C x).decision = none ↔
          (pairwiseQualification C ((x.evidence.judgeQualification.get "candidate").getD .null) x.candidate).1 = true := by
        unfold pairwiseQualificationResult
        dsimp only
        split
        · rename_i hchecked
          simp [hchecked]
        · rename_i hchecked
          simp [hchecked]
      rw [hfirst]
    · rename_i hpairwise
      rw [hitems]
      simp [hpairwise]
  rw [List.forall_mem_append, hqualified, hunavailable]
  constructor
  · rintro ⟨⟨hpairwise, heach⟩, hquality⟩
    exact ⟨hpairwise, heach, hquality⟩
  · intro h
    exact ⟨⟨h.pairwise, h.each⟩, h.quality⟩

/-- The decision is a pass just when the policy lets the candidate pass. -/
theorem decision_pass_iff (h : evaluateGatePolicy b C H p x = .ok a) : a.decision = .pass ↔ Cleared b C p x := by
  obtain ⟨⟨-, ruled, hruled, hresults⟩, hdecision, -, -⟩ := evaluateGatePolicy_ok h
  have hbeside : (∀ result ∈ qualificationResults b C p x ++ pairwiseUnavailable p x,
      (∀ d ∈ contributions [result], d = .pass) ∧ result.diagnosticSkipped = false) ↔ JudgesQualified C p x := by
    rw [← judges_iff (b := b)]
    refine forall₂_congr (fun result hresult => ?_)
    obtain ⟨hseverity, hskipped, hpass, -⟩ := beside_rules result hresult
    cases hd : result.decision with
    | none => simp [mem_contributions, hskipped, hd]
    | some d =>
      rw [hd] at hpass
      simpa [mem_contributions, hskipped, hd, hseverity] using hpass
  have hrules : (∀ result ∈ ruled, (∀ d ∈ contributions [result], d = .pass) ∧ result.diagnosticSkipped = false) ↔
      ∀ r ∈ p.rules, Clears b C p x r := by
    have hone : ∀ {r : GateRule} {result : RuleResult}, evaluateRule b C p x r = .ok result →
        (((∀ d ∈ contributions [result], d = .pass) ∧ result.diagnosticSkipped = false) ↔ Clears b C p x r) := by
      intro r result hresult
      have hjudged := judged_rule hresult
      have hskipped : result.diagnosticSkipped = false ↔ ¬Skipped b C p x r := by
        rw [← hjudged.skipped]
        simp
      unfold Clears
      rw [hskipped, ← hjudged.decision, ← hjudged.severity]
      have hnotPass := hjudged.notPass
      cases hd : result.decision with
      | none => simp [mem_contributions, hd]
      | some d =>
        rw [hd] at hnotPass
        have hne : d ≠ .pass := fun heq => hnotPass (by rw [heq])
        simp [mem_contributions, hd, hne]
    constructor
    · intro hall r hr
      obtain ⟨result, hmem, hresult⟩ := exists_of_forall₂ hruled hr
      exact (hone hresult).1 (hall result hmem)
    · intro hall result hmem
      obtain ⟨r, hr, hresult⟩ := exists_of_forall₂ hruled.flip hmem
      exact (hone hresult).2 (hall r hr)
  have hsplit : ∀ results : List RuleResult,
      ((∀ d ∈ contributions results, d = .pass) ∧ ∀ r ∈ results, r.diagnosticSkipped = false) ↔
        ∀ r ∈ results, (∀ d ∈ contributions [r], d = .pass) ∧ r.diagnosticSkipped = false := by
    intro results
    simp only [mem_contributions, List.mem_singleton, exists_eq_left]
    constructor
    · intro hall r hr
      exact ⟨fun d hd => hall.1 d ⟨r, hr, hd⟩, hall.2 r hr⟩
    · intro hall
      refine ⟨?_, fun r hr => (hall r hr).2⟩
      rintro d ⟨r, hr, hd⟩
      exact (hall r hr).1 d hd
  rw [hdecision, decisionOf_eq_pass_iff, hsplit, hresults, List.forall_mem_append, hrules, hbeside]
  exact ⟨fun hc => ⟨hc.1, hc.2⟩, fun hc => ⟨hc.rules, hc.judges⟩⟩

/-- A result carries a decision just when it does not pass, and never that of a pass. -/
theorem Evaluated.decision {results : List RuleResult} (h : Evaluated b C p x results) {result : RuleResult}
    (hmem : result ∈ results) : (result.status = .pass ↔ result.decision = none) ∧ result.decision ≠ some .pass := by
  obtain ⟨ruled, hruled, rfl⟩ := h.rules
  rcases List.mem_append.1 hmem with hr | hr
  · obtain ⟨r, -, hresult⟩ := exists_of_forall₂ hruled.flip hr
    have hjudged := judged_rule hresult
    exact ⟨hjudged.status.trans hjudged.decision.symm, hjudged.notPass⟩
  · obtain ⟨-, -, hne, hiff⟩ := beside_rules result hr
    exact ⟨hiff, hne⟩

/-- A pass leaves no blocking result that does not pass. -/
theorem blocking_of_pass (h : evaluateGatePolicy b C H p x = .ok a) (hpass : a.decision = .pass) :
    ∀ result ∈ a.ruleResults, result.severity = .block → result.status = .pass := by
  obtain ⟨hevaluated, hdecision, -, -⟩ := evaluateGatePolicy_ok h
  rw [hdecision, decisionOf_eq_pass_iff] at hpass
  intro result hmem hblock
  obtain ⟨hiff, hne⟩ := hevaluated.decision hmem
  cases hd : result.decision with
  | none => exact hiff.2 hd
  | some d =>
    have heq : d = .pass := hpass.1 d (mem_contributions.2 ⟨result, hmem, hblock, hd⟩)
    rw [hd, heq] at hne
    exact absurd rfl hne

end Evaluation

end Motte.Gate
