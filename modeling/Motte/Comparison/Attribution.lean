import Motte.Comparison.Symmetry

/-! What stands behind a difference that is put down to the skill. -/
namespace Motte.Comparison
open Foundation Gate

section Attribution
variable {b : Builtins} {P : ComparisonPolicy} {x y : RunReport} {s t : Side} {r : RunComparison}

/-- Nothing is recorded in what does not count as true. -/
theorem untouched_of_falsy {v w : Value} (h : v.dict = .ok w) (hfalsy : v.truthy = false) : Untouched w := by
  simp only [Value.dict, hfalsy, Bool.not_false, if_true, Except.ok.injEq] at h
  rw [← h]
  exact ⟨rfl, rfl⟩

/-- Neither side records an intervention, and both budget policies are comparable. -/
structure Guarded (base cand : Document) (s t : Side) : Prop where
  baseUntouched : Untouched s.interventions
  candUntouched : Untouched t.interventions
  basePolicy : comparableBudget (budgetPolicy base) = true
  candPolicy : comparableBudget (budgetPolicy cand) = true

/-- A difference of skills that is let through is guarded on both sides just when nothing of the candidate is hidden:
its interventions behind those that the baseline records, or its budget policy behind that of the baseline. -/
theorem attribution_guarded_iff (h : compareRunReports b P x y = .ok r) (heligible : r.result.eligible = true)
    (hs : Reads b x.manifest s) (ht : Reads b y.manifest t) (hdiffers : s.skill.equals t.skill = false) :
    Guarded x.manifest y.manifest s t ↔
      (P.allows "intervention" = true → (x.manifest.getOrNull "interventions").truthy = true →
        Untouched t.interventions) ∧
      (P.allows "budget_policy" = true → (budgetPolicy x.manifest).equals (budgetPolicy y.manifest) = false →
        comparableBudget (budgetPolicy y.manifest) = true) := by
  obtain ⟨hshared, hattribution⟩ := (eligible_iff h hs ht).1 heligible
  obtain ⟨hbudget, huntouched⟩ := hattribution hdiffers
  constructor
  · intro hguarded
    exact ⟨fun _ _ => hguarded.candUntouched, fun _ _ => hguarded.candPolicy⟩
  · rintro ⟨hinterventions, hpolicy⟩
    have hcandPolicy : comparableBudget (budgetPolicy y.manifest) = true := by
      cases hequal : (budgetPolicy x.manifest).equals (budgetPolicy y.manifest) with
      | true => rwa [← comparableBudget_congr hequal]
      | false =>
        have hmatch := hshared.arms.budget
        simp only [BudgetsMatch, hequal, Bool.false_eq_true, if_false] at hmatch
        exact hpolicy hmatch hequal
    cases hrecorded : (x.manifest.getOrNull "interventions").truthy with
    | false =>
      simp only [firstInterventions, hrecorded, Bool.false_eq_true, if_false] at huntouched
      exact ⟨untouched_of_falsy hs.interventions hrecorded, huntouched, hbudget, hcandPolicy⟩
    | true =>
      simp only [firstInterventions, hrecorded, if_true] at huntouched
      refine ⟨huntouched, ?_, hbudget, hcandPolicy⟩
      rcases hshared.invariants.interventions with hallowed | hmatch
      · exact hinterventions hallowed hrecorded
      · exact ⟨hmatch.cand, by rw [← Value.equals_truthy hmatch.hash]; exact huntouched.2⟩

end Attribution

/-! ### The candidate's intervention passes behind the record of the baseline -/

def untouchedSide : Side where
  interventions := .obj [("count", .int 0), ("possible", .bool false), ("condition_hash", .null)]
  model := .null
  runtime := .null
  workflow := .null
  skill := .obj [("arm", .str "no-skill"), ("refs", .arr []), ("snapshot", .null)]
  cases := []

def touchedSide : Side := { untouchedSide with
  interventions := .obj [("count", .int 1), ("possible", .bool true), ("condition_hash", .str "sha256:a")]
  skill := .obj [("arm", .str "skill-v2"), ("refs", .arr []), ("snapshot", .null)] }

theorem reads_untouched : Reads plainBuiltins untouchedReport.manifest untouchedSide := by constructor <;> rfl

theorem reads_touched : Reads plainBuiltins touchedReport.manifest touchedSide := by constructor <;> rfl

theorem attribution_unguarded : ¬∀ (b : Builtins) (P : ComparisonPolicy) (x y : RunReport) (s t : Side) (r : RunComparison),
    compareRunReports b P x y = .ok r → r.result.eligible = true → Reads b x.manifest s → Reads b y.manifest t →
    s.skill.equals t.skill = false → Guarded x.manifest y.manifest s t := by
  intro h
  obtain ⟨r, hr, heligible⟩ := untouched_first_ok
  have hguarded := h _ _ _ _ _ _ r hr heligible reads_untouched reads_touched (by decide +kernel)
  have hfalse : ((touchedSide.interventions.member "possible").truthy) = false := hguarded.candUntouched.1
  exact absurd hfalse (by decide +kernel)

/-- The baseline records its interventions, the policy lets them differ, and the candidate is not untouched. -/
theorem touched_hidden : ¬((skillFactors.allows "intervention" = true →
      (untouchedReport.manifest.getOrNull "interventions").truthy = true → Untouched touchedSide.interventions) ∧
    (skillFactors.allows "budget_policy" = true →
      (budgetPolicy untouchedReport.manifest).equals (budgetPolicy touchedReport.manifest) = false →
      comparableBudget (budgetPolicy touchedReport.manifest) = true)) := by
  obtain ⟨r, hr, heligible⟩ := untouched_first_ok
  rw [← attribution_guarded_iff hr heligible reads_untouched reads_touched (by decide +kernel)]
  intro hguarded
  have hfalse : ((touchedSide.interventions.member "possible").truthy) = false := hguarded.candUntouched.1
  exact absurd hfalse (by decide +kernel)

end Motte.Comparison
