import Motte.Scenario.Finish

/-! Every condition that a run looks at has been compiled before.

The compiler goes through the steps with a stack and the engine by recursion, but both
meet the same steps. So a condition that cannot be compiled is found when the workflow
is compiled, and what a run can still meet is a path that is not there. -/
namespace Motte.Scenario
open Foundation

section
variable {W : Type} {E : Setup W} {steps : List Step} {p q : Phase} {s t : Engine W}

/-- The deed looks at nothing but these conditions. -/
def Deed.Within (P : Condition → Prop) : Deed W → Prop
  | .compiled c => P c
  | .asserted c _ => P c
  | _ => True

/-- The condition is one of these steps. -/
def StepCondition (steps : List Step) (c : Condition) : Prop := ∃ step ∈ steps, c ∈ step.conditions.map Prod.snd

theorem within_move (hmove : Move E steps p s q t) (h : ∀ d ∈ s.deeds, d.Within (StepCondition steps)) :
    ∀ d ∈ t.deeds, d.Within (StepCondition steps) := by
  have recorded {evidence : StepEvidence} : ∀ d ∈ (s.recorded evidence).deeds, d.Within (StepCondition steps) := by
    intro d hd
    rcases List.mem_append.1 hd with hd | hd
    · exact h d hd
    · rw [List.mem_singleton.1 hd]
      trivial
  cases hmove with
  | taken hstep open_ effect turn hend =>
    rename_i step _
    obtain ⟨spent, added, hend⟩ := hend
    rw [hend.deeds]
    intro d hd
    rcases List.mem_append.1 hd with hd | hd
    · exact h d hd
    · have permitted := hend.permitted d hd
      cases d <;> first | exact ⟨step, hstep, permitted⟩ | trivial
  | looked hstep hc looked =>
    rename_i step _
    rw [looked.deeds]
    intro d hd
    rcases List.mem_append.1 hd with hd | hd
    · exact h d hd
    · rw [List.mem_singleton.1 hd]
      exact ⟨step, hstep, hc⟩
  | skipped => exact recorded
  | succeeded => exact recorded
  | failed evidence failed handled =>
    obtain ⟨_, _, _, rfl, -⟩ := handled
    exact recorded
  | escaped => exact recorded
  | lostRecord => exact recorded
  | _ => exact h

/-- A run looks at conditions of its steps, and of its completion. -/
theorem run_within (E : Setup W) (w : W) : ∀ d ∈ (run E { world := w }).2.deeds, d.Within (fun c =>
    StepCondition (preorder E.workflow.topLevelSteps) c ∨ c ∈ E.workflow.completionAssertions) := by
  have ending : Ending E w (run E { world := w }).2 :=
    Op.wp_state (Op.wp_mono (wp_run (E := E) w) (fun _ _ h => h.ending) (fun _ _ h => h))
  obtain ⟨p, t, more, moves, counting, final⟩ := ending
  have within := moves.keeps (I := fun _ s => ∀ d ∈ s.deeds, d.Within (StepCondition _)) within_move
    (fun _ hd => by cases hd)
  rw [counting.deeds]
  intro d hd
  rcases List.mem_append.1 hd with hd | hd
  · have := within d hd
    cases d <;> first | exact .inl this | trivial
  · have := final d hd
    cases d <;> first | exact .inr this | trivial

end

/-! ### What compiling accepts -/

/-- `iter_conditions` has every condition of a step and of the completion. -/
theorem mem_iterConditions {workflow : WorkflowVersion} {c : Condition}
    (h : StepCondition (preorder workflow.steps) c ∨ c ∈ workflow.completionAssertions) :
    ∃ entry ∈ iterConditions workflow, entry.2.2 = c := by
  unfold iterConditions
  rw [iterSteps_eq]
  rcases h with ⟨step, hstep, hc⟩ | hc
  · obtain ⟨entry, hentry, rfl⟩ := List.mem_map.1 hc
    exact ⟨_, List.mem_append_right _ (List.mem_flatMap.2 ⟨step, hstep, List.mem_map.2 ⟨entry, hentry, rfl⟩⟩), rfl⟩
  · have hmap : workflow.completionAssertions.zipIdx.map Prod.fst = workflow.completionAssertions := List.zipIdx_map_fst ..
    rw [← hmap] at hc
    obtain ⟨entry, hentry, rfl⟩ := List.mem_map.1 hc
    exact ⟨_, List.mem_append_left _ (List.mem_map.2 ⟨entry, hentry, rfl⟩), rfl⟩

theorem compileForWorkflow_ok {condition : Condition} {compiled : CompiledCondition}
    (h : compileForWorkflow condition = .ok compiled) : compileCondition condition = .ok compiled := by
  unfold compileForWorkflow at h
  split at h
  · cases h
  · rename_i hcompiled
    rw [hcompiled, Except.ok.inj h]

/-- A workflow that is accepted is compiled as it is, with all of its conditions. -/
theorem compileWorkflow_ok {contentHash : WorkflowVersion → String} {fixtures : Option (String → Nat → Option FixtureRecord)}
    {allowDraft : Bool} {workflow : WorkflowVersion} {compiled : CompiledWorkflow}
    (h : compileWorkflow contentHash fixtures allowDraft workflow = .ok compiled) :
    compiled.topLevelSteps = workflow.steps ∧ compiled.steps = iterSteps workflow.steps ∧
    compiled.completionAssertions = workflow.completionAssertions ∧
    List.Forall₂ (fun entry c => compileCondition entry.2.2 = .ok c) (iterConditions workflow) compiled.conditions := by
  unfold compileWorkflow at h
  simp only [except_bind_ok_iff, ensure_ok_iff] at h
  obtain ⟨_, _, _, _, conditions, hconditions, h⟩ := h
  have all := (mapM_ok hconditions).imp (fun _ _ => compileForWorkflow_ok)
  cases fixtures with
  | none =>
    cases h
    exact ⟨rfl, rfl, rfl, all⟩
  | some fixtures =>
    simp only [except_bind_ok_iff] at h
    obtain ⟨_, _, h⟩ := h
    cases h
    exact ⟨rfl, rfl, rfl, all⟩

section
variable (repr : Value → String)

theorem evaluateComparison_error {compiled : CompiledCondition} {op : ConditionOp} {path : List String} {value : Value}
    {found : Option Value} {e : ConditionError}
    (h : evaluateComparison repr compiled op path value found = .error (.condition e)) : ∃ dotted, e = .pathMissing dotted := by
  unfold evaluateComparison at h
  split at h
  · cases h
  · cases h
    exact ⟨_, rfl⟩
  · cases h
  · cases h
  · rcases except_bind_error_iff.1 h with h | ⟨_, _, h⟩
    · unfold allowedValues at h
      split at h <;> cases h
    · cases h

mutual
/-- A compiled condition meets a path that is not there, or no error of its own. -/
theorem evaluateCondition_error : ∀ (compiled : CompiledCondition) (context : Value) (e : ConditionError),
    evaluateCondition repr compiled context = .error (.condition e) → ∃ dotted, e = .pathMissing dotted
  | .node op path value children, context, e, h => by
    have all := evaluateAll_error children context e
    unfold evaluateCondition at h
    split at h
    · rcases except_bind_error_iff.1 h with h | ⟨_, _, h⟩
      · exact all h
      · cases h
    · rcases except_bind_error_iff.1 h with h | ⟨_, _, h⟩
      · exact all h
      · cases h
    · split at h
      · cases h
      · rename_i child rest
        rcases except_bind_error_iff.1 h with h | ⟨_, _, h⟩
        · exact evaluateCondition_error child context e h
        · cases h
    · split at h
      · cases h
      · exact evaluateComparison_error repr h

theorem evaluateAll_error : ∀ (children : List CompiledCondition) (context : Value) (e : ConditionError),
    evaluateAll repr children context = .error (.condition e) → ∃ dotted, e = .pathMissing dotted
  | [], _, _, h => by
    unfold evaluateAll at h
    cases h
  | child :: rest, context, e, h => by
    unfold evaluateAll at h
    rcases except_bind_error_iff.1 h with h | ⟨_, _, h⟩
    · exact evaluateCondition_error child context e h
    · rcases except_bind_error_iff.1 h with h | ⟨_, _, h⟩
      · exact evaluateAll_error rest context e h
      · cases h
end

end

end Motte.Scenario
