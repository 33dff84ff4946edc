import Motte.Scenario.Move

/-! How a run ends.

The session is closed however the steps ended. A run that returns judges what the
steps and the closing have left (`Judged`): the first verdict stands, and a run without one
is completed if its assertions hold, no step has failed and nothing is left to review. -/
namespace Motte.Scenario
open Foundation

section
variable {W : Type} (E : Setup W)

/-- What an outcome says of the state that was judged. -/
structure Judged (terminal : Option Verdict) (t : Engine W) (o : WorkflowOutcome) (u : Engine W) : Prop where
  steps : o.steps = t.stepsEvidence
  stepCount : o.stepCount = t.stepCount
  turns : o.turns = t.turns
  ending : ∃ more, Counting t 0 more u ∧ (∀ d ∈ more, d.LooksAt E.workflow.completionAssertions) ∧
    ((∀ v ∈ terminal, v.1 ≠ .completed) → o.status = .completed →
      terminal = none ∧ (∀ d ∈ more, Sound E d) ∧
        ∀ c ∈ E.workflow.completionAssertions, ∃ context, .asserted c context ∈ more)
  completed : o.status = .completed → t.evidenceOnly = false ∧ t.needsReview = false
  review : ∀ reason, terminal = some (.needsReview, reason) → o.status = .needsReview ∧ o.needsReview = true

/-- What is done after the steps: the session is closed, and the completion is looked at. -/
def Deed.Final : Deed W → Prop
  | .closed _ => True
  | d => d.LooksAt E.workflow.completionAssertions

theorem Deed.Final.of_looksAt {d : Deed W} (h : d.LooksAt E.workflow.completionAssertions) : d.Final E := by
  cases d <;> first | exact h | trivial

/-- The session is closed. -/
def Engine.closing (t : Engine W) (w : W) (succeeded : Bool) (reason : Option String) : Engine W :=
  { t with
    world := w
    needsReview := t.needsReview || !succeeded
    terminal := if succeeded then t.terminal else t.terminal.or (some (.needsReview, reason))
    deeds := t.deeds ++ [.closed succeeded] }

/-- How a run has gone that returns. -/
inductive Returned (w : W) (o : WorkflowOutcome) (u : Engine W) : Prop where
  | unbegun (w' : W) (reason : Option String) (judged : Judged E (some (.failed, reason)) { world := w' } o u)
  | ran (t : Engine W) (w' : W) (succeeded : Bool) (reason : Option String)
    (moves : Moves E (preorder E.workflow.topLevelSteps) (.going []) { world := w } (.going []) t)
    (judged : Judged E (t.closing w' succeeded reason).terminal (t.closing w' succeeded reason) o u)

/-- However a run ends, it ends after a number of moves. -/
def Ending (w : W) (u : Engine W) : Prop :=
  ∃ p t more, Moves E (preorder E.workflow.topLevelSteps) (.going []) { world := w } p t ∧
    Counting t 0 more u ∧ ∀ d ∈ more, d.Final E

variable {E}

theorem Counting.trans {s t u : Engine W} {added more : List (Deed W)} (h : Counting s 0 added t)
    (h' : Counting t 0 more u) : Counting s 0 (added ++ more) u where
  stepsEvidence := h'.stepsEvidence.trans h.stepsEvidence
  stepCount := h'.stepCount.trans h.stepCount
  seq := h'.seq.trans h.seq
  evidenceOnly := h'.evidenceOnly.trans h.evidenceOnly
  turns := h'.turns.trans h.turns
  deeds := by rw [h'.deeds, h.deeds, List.append_assoc]

theorem Engine.closing_true (t : Engine W) (w : W) (reason : Option String) :
    t.closing w true reason = { t with world := w, deeds := t.deeds ++ [.closed true] } := by
  simp [Engine.closing]

/-- Closing leaves the verdict that there is. -/
theorem Engine.closing_false (t : Engine W) (w : W) (reason : Option String) (s : Engine W)
    (hs : s = { t with world := w, deeds := t.deeds ++ [.closed false], needsReview := true }) :
    (if s.terminal.isSome then s else { s with terminal := some (.needsReview, reason) }) = t.closing w false reason := by
  subst hs
  cases hterminal : t.terminal <;> simp [Engine.closing, hterminal]

theorem Engine.counting_closing (t : Engine W) (w : W) (succeeded : Bool) (reason : Option String) :
    Counting t 0 [.closed succeeded] (t.closing w succeeded reason) := ⟨rfl, rfl, rfl, rfl, rfl, rfl⟩

theorem Returned.ending {w : W} {o : WorkflowOutcome} {u : Engine W} (h : Returned E w o u) : Ending E w u := by
  cases h with
  | unbegun w' reason judged =>
    obtain ⟨more, counting, looks, -⟩ := judged.ending
    exact ⟨.going [], _, more, Moves.none.call w', counting, fun d hd => .of_looksAt E (looks d hd)⟩
  | ran t w' succeeded reason moves judged =>
    obtain ⟨more, counting, looks, -⟩ := judged.ending
    refine ⟨.going [], t, _, moves, (t.counting_closing w' succeeded reason).trans counting, fun d hd => ?_⟩
    rcases List.mem_append.1 hd with hd | hd
    · rw [List.mem_singleton.1 hd]
      trivial
    · exact .of_looksAt E (looks d hd)

/-- The completion of a run that has no verdict yet. -/
theorem wp_finalVerdict {terminal : Option Verdict} {t : Engine W} :
    (finalVerdict E terminal).wp t
      (fun v u => ∃ more, Doing t 0 more u ∧ (∀ d ∈ more, d.LooksAt E.workflow.completionAssertions) ∧
        (∀ v' ∈ terminal, v = v') ∧ (v.1 = .completed → terminal = none →
          (∀ d ∈ more, Sound E d) ∧ ∀ c ∈ E.workflow.completionAssertions, ∃ context, .asserted c context ∈ more))
      (fun _ u => ∃ more, Doing t 0 more u ∧ ∀ d ∈ more, d.LooksAt E.workflow.completionAssertions) := by
  cases terminal with
  | some verdict =>
    refine ⟨[], Doing.begin t, fun _ hd => ?_, fun v' hv => ?_, fun _ hnone => ?_⟩
    · cases hd
    · cases hv
      rfl
    · cases hnone
  | none =>
    unfold finalVerdict completionVerdict
    rw [Op.wp_bind]
    refine Op.wp_mono (wp_evaluate E.workflow.completionAssertions (Doing.begin t)) (fun r u hr => ?_) (fun e u hr => ?_)
    · obtain ⟨⟨more, hu, looks, sound⟩, nothing⟩ := hr
      -- the verdict is a success only if every assertion is satisfied
      have judged (v : Verdict) (hv : v.1 = .completed → r.2 = true) {u' : Engine W} (hu' : Doing t 0 more u') :
          ∃ more, Doing t 0 more u' ∧ (∀ d ∈ more, d.LooksAt E.workflow.completionAssertions) ∧
            (∀ v' ∈ (none : Option Verdict), v = v') ∧ (v.1 = .completed → (none : Option Verdict) = none →
              (∀ d ∈ more, Sound E d) ∧
                ∀ c ∈ E.workflow.completionAssertions, ∃ context, .asserted c context ∈ more) := by
        refine ⟨more, hu', looks, fun v' hv' => ?_, fun hcompleted _ => sound (hv hcompleted)⟩
        cases hv'
      refine Op.wp_ite (fun hempty => judged _ (fun _ => nothing hempty) hu) (fun _ => ?_)
      rw [Op.wp_bind]
      refine wp_emit (fun w _ => ?_) (fun e w _ => ⟨more, hu.world w, looks⟩)
      refine Op.wp_ite (fun hsatisfied => judged _ (fun _ => hsatisfied) (hu.world w)) (fun _ => ?_)
      exact judged _ (fun heq => by cases heq) (hu.world w)
    · obtain ⟨more, hu, looks, -⟩ := hr
      exact ⟨more, hu, looks⟩

/-- A verdict that is not a success stays, and a success stays if nothing speaks against it. -/
theorem completed_of_amended {evidenceOnly needsReview : Bool} {verdict : Verdict} {only review : Option String}
    (h : (if needsReview ∧ (if evidenceOnly ∧ verdict.1 = .completed then (.failed, only) else verdict).1 = .completed then
        (.needsReview, review) else if evidenceOnly ∧ verdict.1 = .completed then (.failed, only) else verdict).1 =
      Status.completed) : verdict.1 = .completed ∧ evidenceOnly = false ∧ needsReview = false := by
  cases evidenceOnly <;> cases needsReview <;> by_cases hverdict : verdict.1 = .completed <;> simp_all

theorem wp_outcome {terminal : Option Verdict} {t : Engine W} :
    (outcome E terminal).wp t (fun o u => Judged E terminal t o u)
      (fun _ u => ∃ more, Counting t 0 more u ∧ ∀ d ∈ more, d.Final E) := by
  unfold outcome
  rw [Op.wp_bind]
  refine Op.wp_mono wp_finalVerdict (fun verdict u hv => ?_) (fun e u he => ?_)
  · obtain ⟨more, hu, looks, stands, sound⟩ := hv
    rw [Op.wp_bind, Op.wp_gets, Op.wp_bind]
    refine wp_onWorld (fun state _ => ?_) (fun e _ => ⟨more, (hu.world _).toCounting, fun d hd => .of_looksAt E (looks d hd)⟩)
    rw [Op.wp_pure]
    refine {
      steps := hu.stepsEvidence
      stepCount := hu.stepCount
      turns := hu.turns
      ending := ⟨more, (hu.world _).toCounting, looks, fun standing hcompleted => ?_⟩
      completed := fun hcompleted => ?_
      review := fun reason hterminal => ?_ }
    · have completed := (completed_of_amended hcompleted).1
      have open_ : terminal = none := by
        cases terminal with
        | none => rfl
        | some v => exact (standing v rfl ((stands v rfl) ▸ completed)).elim
      exact ⟨open_, sound completed open_⟩
    · obtain ⟨-, only, review⟩ := completed_of_amended hcompleted
      exact ⟨hu.evidenceOnly.symm.trans only, hu.needsReview.symm.trans review⟩
    · have hverdict := stands _ hterminal
      subst hverdict
      simp
  · obtain ⟨more, hu, looks⟩ := he
    exact ⟨more, hu.toCounting, fun d hd => .of_looksAt E (looks d hd)⟩

theorem wp_closeTarget {t : Engine W} {ok : Option Verdict → Engine W → Prop} {err : Exn → Engine W → Prop}
    (hclosed : ∀ w, ok none { t with world := w, deeds := t.deeds ++ [.closed true] })
    (hfailed : ∀ w reason, ok (some (.needsReview, reason))
      { t with world := w, deeds := t.deeds ++ [.closed false], needsReview := true })
    (herr : ∀ e w, err e { t with world := w, deeds := t.deeds ++ [.closed false], needsReview := true }) :
    (closeTarget E).wp t ok err := by
  unfold closeTarget
  rw [Op.wp_bind, Op.wp_result_iff]
  refine wp_perform (fun _ w _ => hclosed w) (fun e w _ => ?_)
  rw [Op.wp_bind, Op.wp_modify, Op.wp_bind]
  exact wp_emit (fun w _ => hfailed w _) (fun e w _ => herr e w)

/-- The run of an engine, from its begin to its outcome. -/
theorem wp_run (w : W) :
    (run E).wp { world := w } (fun o u => Returned E w o u) (fun _ u => Ending E w u) := by
  have start : Moves E (preorder E.workflow.topLevelSteps) (.going []) { world := w } (.going []) { world := w } := Moves.none
  unfold run beginTarget
  rw [Op.wp_bind, Op.wp_bind, Op.wp_result_iff]
  refine wp_onWorld (fun _ _ => ?_) (fun e _ => ?_)
  · rw [Op.wp_pure, Op.wp_bind, Op.wp_result_iff]
    have begun := start.call (E.ports.begin w).2
    -- the steps may have raised, and the session is closed all the same
    have raised {p : Phase} {t : Engine W} {e : Exn}
        (moves : Moves E (preorder E.workflow.topLevelSteps) (.going []) { world := w } p t) :
        (do
          let close ← closeTarget E
          Op.lift (.error e : Except Exn Unit)
          closeVerdict close
          outcome E (← Op.gets (·.terminal)) : Task W WorkflowOutcome).wp t
        (fun o u => Returned E w o u) (fun _ u => Ending E w u) := by
      have closing (succeeded : Bool) (w' : W) (u : Engine W) (hu : Counting t 0 [.closed succeeded] u) : Ending E w u := by
        refine ⟨p, t, _, moves, hu, fun d hd => ?_⟩
        rw [List.mem_singleton.1 hd]
        trivial
      rw [Op.wp_bind]
      refine wp_closeTarget (fun w' => ?_) (fun w' reason => ?_) (fun e w' => ?_)
      · exact closing true w' _ ⟨rfl, rfl, rfl, rfl, rfl, rfl⟩
      · exact closing false w' _ ⟨rfl, rfl, rfl, rfl, rfl, rfl⟩
      · exact closing false w' _ ⟨rfl, rfl, rfl, rfl, rfl, rfl⟩
    refine Op.wp_mono (runs_runSequence [] E.workflow.topLevelSteps 1 _ (fun _ h => h)) (fun _ t moves => ?_)
      (fun e t hraised => ?_)
    · have moves := begun.trans moves
      have judging (succeeded : Bool) (w' : W) (reason : Option String) :
          (outcome E (t.closing w' succeeded reason).terminal).wp (t.closing w' succeeded reason)
            (fun o u => Returned E w o u) (fun _ u => Ending E w u) := by
        refine Op.wp_mono wp_outcome (fun o u judged => .ran t w' succeeded reason moves judged) (fun e u he => ?_)
        obtain ⟨more, counting, final⟩ := he
        refine ⟨.going [], t, _, moves, (t.counting_closing w' succeeded reason).trans counting, fun d hd => ?_⟩
        rcases List.mem_append.1 hd with hd | hd
        · rw [List.mem_singleton.1 hd]
          trivial
        · exact final d hd
      rw [Op.wp_bind]
      refine wp_closeTarget (fun w' => ?_) (fun w' reason => ?_) (fun e w' => ?_)
      · have judged := judging true w' none
        rw [Engine.closing_true] at judged
        exact judged
      · have judged := judging false w' reason
        rw [← Engine.closing_false t w' reason _ rfl] at judged
        exact judged
      · refine ⟨.going [], t, [.closed false], moves, ⟨rfl, rfl, rfl, rfl, rfl, rfl⟩, fun d hd => ?_⟩
        rw [List.mem_singleton.1 hd]
        trivial
    · unfold Raised at hraised
      split at hraised
      · exact raised (begun.trans hraised)
      · exact raised (begun.trans hraised.2)
  · rw [Op.wp_bind]
    refine wp_emit (fun w' _ => ?_) (fun e w' _ => ?_)
    · rw [Op.wp_pure]
      refine Op.wp_mono wp_outcome (fun o u judged => .unbegun w' _ judged) (fun e u he => ?_)
      obtain ⟨more, counting, final⟩ := he
      exact ⟨.going [], _, more, start.call w', counting, final⟩
    · exact ⟨.going [], _, [], start.call w', (Doing.begin _).toCounting, fun _ hd => by cases hd⟩

end

/-! ### One step in a still world -/

/-- A world in which no time passes and nothing fails. -/
def Ports.still : Ports Unit where
  begin := return ()
  send := fun _ _ => return .obj []
  interrupt := fun _ => return .null
  close := return ()
  state := return ∅
  snapshot := return (.null, "")
  invokeTool := fun _ _ _ => return .null
  applyEvent := fun _ _ => return .null
  now := fun w => (0, w)
  cancelCheck := none
  eventSink := none

theorem Ports.still_monotone : Ports.still.Monotone (fun _ => 0) :=
  ⟨fun _ => le_rfl, fun _ hsink => by cases hsink⟩

/-- A workflow of this step alone. -/
def WorkflowVersion.single (step : Step) (completion : List Condition) (h : WellStructured [step]) : WorkflowVersion where
  workflowId := "workflow"
  version := "1"
  steps := [step]
  completionAssertions := completion
  limits := { maxTotalSteps := 8, maxTurns := 8, wallTimeSec := 60 }
  wellStructured := h

/-- A run of this workflow. -/
def WorkflowVersion.setup {W : Type} (workflow : WorkflowVersion) (ports : Ports W) : Setup W where
  ports := ports
  workflow := {
    workflow := workflow
    contentHash := ""
    topLevelSteps := workflow.steps
    steps := iterSteps workflow.steps
    conditions := []
    completionAssertions := workflow.completionAssertions }
  started := 0
  repr := fun _ => ""
  str := fun _ => ""
  showFloat := fun _ => ""

end Motte.Scenario
