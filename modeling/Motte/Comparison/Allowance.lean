import Motte.Comparison.Symmetry

/-! More allowed factors do not make a comparison worse. -/
namespace Motte.Comparison
open Foundation Gate

section Allowance
variable {b : Builtins} {P Q : ComparisonPolicy} {base cand : Document} {s t : Side} {x y : RunReport} {r : RunComparison}

/-- Whatever may differ under the first policy may differ under the second. -/
def Widens (P Q : ComparisonPolicy) : Prop := ∀ factor ∈ P.allowedFactors, factor ∈ Q.allowedFactors

theorem Widens.allows (h : Widens P Q) {factor : String} (hP : P.allows factor = true) : Q.allows factor = true := by
  simp only [ComparisonPolicy.allows, List.contains_iff_mem] at hP ⊢
  exact h factor hP

theorem BudgetsMatch.mono (hsub : Widens P Q) (h : BudgetsMatch P base cand) : BudgetsMatch Q base cand := by
  unfold BudgetsMatch at h ⊢
  split
  · rename_i hpolicy
    rwa [if_pos hpolicy] at h
  · rename_i hpolicy
    rw [if_neg hpolicy] at h
    exact hsub.allows h

theorem Shared.mono (hsub : Widens P Q) (h : Shared P base cand s t) : Shared Q base cand s t := by
  obtain ⟨hinvariants, harms, hscenario, hprovenance, hcases⟩ := h
  refine ⟨?_, ?_, fun f hf => (hscenario f hf).mono hsub.allows, ?_, hcases⟩
  · exact {
      interventions := hinvariants.interventions.imp_left hsub.allows
      model := hinvariants.model.imp_left hsub.allows
      runtime := hinvariants.runtime.mono hsub.allows
      profile := fun c hc => (hinvariants.profile c hc).mono hsub.allows
      agent := hinvariants.agent.mono (fun hagent => by
        rw [Bool.or_eq_true] at hagent ⊢
        exact hagent.imp hsub.allows hsub.allows)
      agentConfig := hinvariants.agentConfig
      evaluation := hinvariants.evaluation }
  · exact {
      workflow := harms.workflow.mono hsub.allows
      fixture := fun hs ht => (harms.fixture hs ht).imp_left hsub.allows
      skill := harms.skill.mono hsub.allows
      budget := harms.budget.mono hsub }
  · refine ⟨hprovenance.present, hprovenance.fields.imp_right (fun hfields c hc => ?_)⟩
    exact ⟨(hfields c hc).1.imp_right hsub.allows, (hfields c hc).2⟩

/-- The attribution check does not depend on the factors, and it is reached with fewer of them too. -/
theorem Unblocked.mono (hsub : Widens P Q) (h : Unblocked P base cand s t) : Unblocked Q base cand s t :=
  ⟨h.shared.mono hsub, h.attribution⟩

/-- The levels, the better the higher. -/
def strength : ComparabilityLevel → Nat
  | .notComparable => 0
  | .partiallyComparable => 1
  | .comparable => 2

theorem verdictOf_mono {e e' : Bool} (h : e = true → e' = true) :
    strength (verdictOf x y e).1 ≤ strength (verdictOf x y e').1 := by
  cases e with
  | false => simp [verdictOf, strength]
  | true => rw [h rfl]

/-- With more allowed factors an eligible comparison stays eligible, and the level does not fall. -/
theorem comparison_mono (hsub : Widens P Q) (h : compareRunReports b P x y = .ok r) :
    ∃ r', compareRunReports b Q x y = .ok r' ∧ (r.result.eligible = true → r'.result.eligible = true) ∧
      strength r.result.level ≤ strength r'.result.level := by
  obtain ⟨s, t, hs, ht, hread⟩ := reads_of_ok h
  obtain ⟨q, hq, reasons, hresult, hreasons⟩ := compareRunReports_ok (P := P) hs ht hread
  obtain ⟨r', hr', reasons', hresult', hreasons'⟩ := compareRunReports_ok (P := Q) hs ht hread
  rw [h] at hq
  cases hq
  have hmono : reasons = [] → reasons' = [] := fun hnil => hreasons'.2 ((hreasons.1 hnil).mono hsub)
  refine ⟨r', hr', ?_, ?_⟩
  · intro heligible
    rw [hresult] at heligible
    rw [hresult']
    simpa [Gate.compareRunReports] using hmono (by simpa [Gate.compareRunReports] using heligible)
  · have hlevel : ∀ found : List String,
        (Gate.compareRunReports found x.cost y.cost (pairwiseReport x y)).level = (verdictOf x y (found = [])).1 :=
      fun found => congrArg Prod.fst verdictOf_result
    rw [hresult, hresult', hlevel, hlevel]
    exact verdictOf_mono (by simpa using hmono)

end Allowance

theorem more_factors_eligible : ∃ r, compareRunReports plainBuiltins
    { allowedFactors := ["skill", "intervention", "model"] } untouchedReport touchedReport = .ok r ∧
    r.result.eligible = true := by
  obtain ⟨r, hr, heligible⟩ := untouched_first_ok
  obtain ⟨r', hr', hmono, -⟩ := comparison_mono (Q := { allowedFactors := ["skill", "intervention", "model"] })
    (by unfold Widens; decide) hr
  exact ⟨r', hr', hmono heligible⟩

end Motte.Comparison
