import Motte.Scenario.Finish

/-! What a verdict says of the run behind it.

A run that is completed has done nothing that was not in order: the one path to that
verdict is that no step failed, since a failure leaves a verdict or that only evidence is
gathered. An interrupt that is not confirmed leaves its verdict at once, and the first
verdict stands. -/
namespace Motte.Scenario
open Foundation

section
variable {W : Type} {E : Setup W} {steps : List Step} {p q : Phase} {s t : Engine W}

/-! ### Completed runs -/

/-- An engine that goes on without a verdict has done nothing wrong. -/
structure Clean (E : Setup W) (p : Phase) (s : Engine W) : Prop where
  terminal : ∀ v ∈ s.terminal, v.1 ≠ .completed
  clean : (∃ opened, p = .going opened) → s.terminal = none → s.evidenceOnly = false →
    (∀ r ∈ s.stepsEvidence, r.status = .succeeded) ∧ ∀ d ∈ s.deeds, Sound E d

theorem Clean.fresh (w : W) : Clean E (.going []) { world := w } where
  terminal := fun _ hv => by cases hv
  clean := fun _ _ _ => ⟨fun _ hr => (by cases hr), fun _ hd => (by cases hd)⟩

theorem clean_move (hmove : Move E steps p s q t) (h : Clean E p s) : Clean E q t := by
  have notGoing {opened : List Nat} {P : Prop} (heq : ∃ opened', Phase.failing opened = .going opened') : P := by
    obtain ⟨_, heq⟩ := heq
    cases heq
  have stopped {P : Prop} (heq : ∃ opened', Phase.stopped = .going opened') : P := by
    obtain ⟨_, heq⟩ := heq
    cases heq
  cases hmove with
  | called w => exact ⟨h.terminal, fun _ => h.clean ⟨_, rfl⟩⟩
  | calledFailing w => exact ⟨h.terminal, notGoing⟩
  | blocked v hv open_ =>
    refine ⟨?_, fun _ hnone => by cases hnone⟩
    rintro _ ⟨⟩
    exact hv
  | begun budget => exact ⟨h.terminal, fun _ => h.clean ⟨_, rfl⟩⟩
  | skipped evidence skipped only =>
    refine ⟨h.terminal, fun _ _ hnot => ?_⟩
    rw [show (s.recorded evidence).evidenceOnly = true from only] at hnot
    cases hnot
  | taken hstep open_ effect turn hend =>
    rename_i ended
    obtain ⟨spent, added, hend⟩ := hend
    refine ⟨hend.terminal, fun hgoing hnone honly => ?_⟩
    -- only a step that succeeded lets the engine go on
    cases ended with
    | error e =>
      rw [Phase.after] at hgoing
      split at hgoing
      · exact stopped hgoing
      · exact notGoing hgoing
    | ok result =>
      rw [Phase.after] at hgoing
      split at hgoing
      · rename_i hsucceeded
        obtain ⟨-, -, sound⟩ := hend.succeeded result rfl hsucceeded
        obtain ⟨records, deeds⟩ := h.clean ⟨_, rfl⟩ open_ (hend.evidenceOnly.symm.trans honly)
        rw [hend.stepsEvidence, hend.deeds]
        exact ⟨records, fun d hd => (List.mem_append.1 hd).elim (deeds d) (sound d)⟩
      · exact notGoing hgoing
  | looked hstep hc looked =>
    refine ⟨?_, fun _ hnone honly => ?_⟩
    · rw [looked.terminal]
      exact h.terminal
    · obtain ⟨records, deeds⟩ :=
        h.clean ⟨_, rfl⟩ (looked.terminal.symm.trans hnone) (looked.evidenceOnly.symm.trans honly)
      rw [looked.stepsEvidence, looked.deeds]
      refine ⟨records, fun d hd => (List.mem_append.1 hd).elim (deeds d) (fun hd => ?_)⟩
      rw [List.mem_singleton.1 hd]
      trivial
  | faltered => exact ⟨h.terminal, notGoing⟩
  | succeeded evidence succeeded =>
    refine ⟨h.terminal, fun _ hnone honly => ?_⟩
    obtain ⟨records, deeds⟩ := h.clean ⟨_, rfl⟩ hnone honly
    refine ⟨fun r hr => (List.mem_append.1 hr).elim (records r) (fun hr => ?_),
      fun d hd => (List.mem_append.1 hd).elim (deeds d) (fun hd => ?_)⟩
    · rw [List.mem_singleton.1 hr]
      exact succeeded
    · rw [List.mem_singleton.1 hd]
      exact succeeded
  | failed evidence failed handled =>
    obtain ⟨terminal, only, reason, rfl, stands, verdict, -, handled⟩ := handled
    refine ⟨fun v hv => ?_, fun _ hnone honly => ?_⟩
    · cases hterminal : s.terminal with
      | none =>
        rw [verdict hterminal v hv]
        decide
      | some v' =>
        cases (stands v' hterminal).symm.trans hv
        exact h.terminal _ hterminal
    · rcases handled with handled | handled
      · rw [show terminal = none from hnone] at handled
        cases handled
      · cases handled.symm.trans honly
  | escaped evidence failed unguarded => exact ⟨h.terminal, notGoing⟩
  | dropped unguarded => exact ⟨h.terminal, notGoing⟩
  | lost => exact ⟨h.terminal, stopped⟩
  | lostRecord evidence failed => exact ⟨h.terminal, stopped⟩

/-- The call came back before its deadline. -/
def Deed.Timely (time : W → ℚ) : Deed W → Prop
  | .sent deadline after => time after ≤ deadline
  | .invoked _ deadline after => time after ≤ deadline
  | .applied deadline after => time after ≤ deadline
  | _ => True

theorem Sound.timely {d : Deed W} (h : Sound E d) {time : W → ℚ} (mono : E.ports.Monotone time) : d.Timely time := by
  cases d with
  | sent deadline after => exact Ports.InTime.le h mono
  | invoked mode deadline after => exact Ports.InTime.le h mono
  | applied deadline after => exact Ports.InTime.le h mono
  | _ => trivial

/-- A completed run is sound: every step succeeded, every assertion held, every call came back in time, every interrupt
was confirmed and the session was closed. -/
theorem completed_sound (E : Setup W) (w : W) (o : WorkflowOutcome) (returned : (run E { world := w }).1 = .ok o)
    (completed : o.status = .completed) :
    (∀ r ∈ o.steps, r.status = .succeeded) ∧
    (∀ d ∈ (run E { world := w }).2.deeds, Sound E d) ∧
    .closed true ∈ (run E { world := w }).2.deeds ∧
    (∀ c ∈ E.workflow.completionAssertions, ∃ context, .asserted c context ∈ (run E { world := w }).2.deeds) ∧
    ∀ time, E.ports.Monotone time → ∀ d ∈ (run E { world := w }).2.deeds, d.Timely time := by
  have spec := Op.wp_returned (wp_run (E := E) w) returned
  generalize (run E { world := w }).2 = u at spec
  cases spec with
  | unbegun w' reason judged =>
    obtain ⟨more, -, -, success⟩ := judged.ending
    obtain ⟨hnone, -⟩ := success (fun v hv => by cases hv; exact fun heq => by cases heq) completed
    cases hnone
  | ran t w' succeeded reason moves judged =>
    have clean := moves.keeps clean_move (Clean.fresh w)
    obtain ⟨only, reviewed⟩ := judged.completed completed
    have closed : succeeded = true := by
      cases succeeded with
      | true => rfl
      | false =>
        rw [Engine.closing, Bool.not_false, Bool.or_true] at reviewed
        cases reviewed
    subst closed
    rw [Engine.closing_true] at judged only
    obtain ⟨more, counting, looks, success⟩ := judged.ending
    obtain ⟨hnone, soundMore, covered⟩ := success clean.terminal completed
    obtain ⟨records, deeds⟩ := clean.clean ⟨_, rfl⟩ hnone only
    have sound : ∀ d ∈ u.deeds, Sound E d := by
      intro d hd
      rw [counting.deeds] at hd
      rcases List.mem_append.1 hd with hd | hd
      · rcases List.mem_append.1 hd with hd | hd
        · exact deeds d hd
        · rw [List.mem_singleton.1 hd]
          rfl
      · exact soundMore d hd
    refine ⟨?_, sound, ?_, fun c hc => ?_, fun time mono d hd => (sound d hd).timely mono⟩
    · rw [judged.steps]
      exact records
    · rw [counting.deeds]
      exact List.mem_append_left _ (List.mem_append_right _ (List.mem_singleton.2 rfl))
    · obtain ⟨context, hmem⟩ := covered c hc
      refine ⟨context, ?_⟩
      rw [counting.deeds]
      exact List.mem_append_right _ hmem

/-- A run that sends one message. -/
def quietRun : Setup Unit :=
  (WorkflowVersion.single (.sendMessage { stepId := "send" } "hello" none) []
    (wellStructured_single rfl rfl)).setup Ports.still

theorem quietRun_completed : (run quietRun { world := () }).1.toOption.map (·.status) = some .completed := by
  decide +kernel

theorem quietRun_sound : ∃ o, (run quietRun { world := () }).1 = .ok o ∧ o.status = .completed ∧
    (∀ r ∈ o.steps, r.status = .succeeded) ∧ .closed true ∈ (run quietRun { world := () }).2.deeds := by
  have completed := quietRun_completed
  cases hrun : (run quietRun { world := () }).1 with
  | error e =>
    rw [hrun] at completed
    cases completed
  | ok o =>
    rw [hrun] at completed
    have status : o.status = .completed := Option.some.inj completed
    obtain ⟨records, -, closed, -⟩ := completed_sound quietRun () o hrun status
    exact ⟨o, rfl, status, records, closed⟩

/-! ### Interrupts that are not confirmed -/

/-- An engine that has not been stopped has not lost sight of such an interrupt. -/
def Reviewed (p : Phase) (s : Engine W) : Prop :=
  p ≠ .stopped → .interrupted false ∈ s.deeds → s.needsReview = true ∧ ∃ reason, s.terminal = some (.needsReview, reason)

theorem reviewed_move (guarded : E.Guarded) (hmove : Move E steps p s q t) (h : Reviewed p s) : Reviewed q t := by
  intro going hmem
  -- a record is no interrupt
  have before {evidence : StepEvidence} (hmem : .interrupted false ∈ (s.recorded evidence).deeds) :
      .interrupted false ∈ s.deeds := by
    rcases List.mem_append.1 hmem with hmem | hmem
    · exact hmem
    · cases List.mem_singleton.1 hmem
  -- there was none while there is no verdict
  have none_ (open_ : s.terminal = none) (hp : p ≠ .stopped) (hmem : .interrupted false ∈ s.deeds) : False := by
    obtain ⟨-, reason, hsome⟩ := h hp hmem
    rw [open_] at hsome
    cases hsome
  cases hmove with
  | called w => exact h (fun heq => by cases heq) hmem
  | calledFailing w => exact h (fun heq => by cases heq) hmem
  | blocked v hv open_ => exact (none_ open_ (fun heq => by cases heq) hmem).elim
  | begun budget => exact h (fun heq => by cases heq) hmem
  | skipped evidence skipped only => exact h (fun heq => by cases heq) (before hmem)
  | taken hstep open_ effect turn hend =>
    rename_i ended
    obtain ⟨spent, added, hend⟩ := hend
    rw [hend.deeds] at hmem
    rcases List.mem_append.1 hmem with hmem | hmem
    · exact (none_ open_ (fun heq => by cases heq) hmem).elim
    · refine hend.review guarded ?_ hmem
      cases ended with
      | ok result => rfl
      | error e =>
        rw [Phase.after] at going
        split at going
        · exact (going rfl).elim
        · rename_i inside
          exact Bool.eq_false_iff.2 inside
  | looked hstep hc looked =>
    rw [looked.deeds] at hmem
    rw [looked.needsReview, looked.terminal]
    rcases List.mem_append.1 hmem with hmem | hmem
    · exact h (fun heq => by cases heq) hmem
    · cases List.mem_singleton.1 hmem
  | faltered => exact h (fun heq => by cases heq) hmem
  | succeeded evidence succeeded => exact h (fun heq => by cases heq) (before hmem)
  | failed evidence failed handled =>
    obtain ⟨terminal, only, reason, rfl, stands, -⟩ := handled
    obtain ⟨needsReview, reason, hsome⟩ := h (fun heq => by cases heq) (before hmem)
    exact ⟨needsReview, reason, stands _ hsome⟩
  | escaped evidence failed unguarded => exact (unguarded guarded).elim
  | dropped unguarded => exact (unguarded guarded).elim
  | lost => exact (going rfl).elim
  | lostRecord evidence failed => exact (going rfl).elim

/-- If some interrupt was not confirmed, a run that returns is one to review. -/
theorem unconfirmed_reviewed (E : Setup W) (guarded : E.Guarded) (w : W) (o : WorkflowOutcome)
    (returned : (run E { world := w }).1 = .ok o) (unconfirmed : .interrupted false ∈ (run E { world := w }).2.deeds) :
    o.status = .needsReview ∧ o.needsReview = true := by
  have spec := Op.wp_returned (wp_run (E := E) w) returned
  generalize (run E { world := w }).2 = u at spec unconfirmed
  have looking {more : List (Deed W)} (looks : ∀ d ∈ more, d.LooksAt E.workflow.completionAssertions) :
      .interrupted false ∉ more := fun hmem => looks _ hmem
  cases spec with
  | unbegun w' reason judged =>
    obtain ⟨more, counting, looks, -⟩ := judged.ending
    rw [counting.deeds] at unconfirmed
    exact (looking looks unconfirmed).elim
  | ran t w' succeeded reason moves judged =>
    have reviewed := moves.keeps (I := Reviewed) (reviewed_move guarded) (fun _ hmem => by cases hmem)
    obtain ⟨more, counting, looks, -⟩ := judged.ending
    have before : .interrupted false ∈ t.deeds := by
      rw [counting.deeds] at unconfirmed
      rcases List.mem_append.1 unconfirmed with hmem | hmem
      · rcases List.mem_append.1 hmem with hmem | hmem
        · exact hmem
        · cases List.mem_singleton.1 hmem
      · exact (looking looks hmem).elim
    obtain ⟨-, why, hsome⟩ := reviewed (fun heq => by cases heq) before
    refine judged.review why ?_
    cases succeeded with
    | true => exact hsome
    | false =>
      rw [Engine.closing, hsome]
      rfl

/-- A run whose target times out and does not say that it has stopped. -/
def stuckRun : Setup Unit :=
  (WorkflowVersion.single (.sendMessage { stepId := "send" } "hello" none) []
    (wellStructured_single rfl rfl)).setup
      { Ports.still with send := fun _ _ => return .obj [("timeout", .bool true)] }

theorem stuckRun_returned : (run stuckRun { world := () }).1.isOk = true ∧
    ((run stuckRun { world := () }).2.deeds.any fun | .interrupted confirmed => !confirmed | _ => false) = true := by
  decide +kernel

theorem stuckRun_reviewed : ∃ o, (run stuckRun { world := () }).1 = .ok o ∧ o.status = .needsReview ∧
    o.needsReview = true := by
  obtain ⟨returned, interrupted⟩ := stuckRun_returned
  have unconfirmed : .interrupted false ∈ (run stuckRun { world := () }).2.deeds := by
    obtain ⟨d, hd, hfalse⟩ := List.any_eq_true.1 interrupted
    cases d with
    | interrupted confirmed =>
      cases confirmed with
      | true => cases hfalse
      | false => exact hd
    | _ => cases hfalse
  cases hrun : (run stuckRun { world := () }).1 with
  | error e =>
    rw [hrun] at returned
    cases returned
  | ok o =>
    have guarded : stuckRun.Guarded := fun _ hsink => by cases hsink
    obtain ⟨status, needsReview⟩ := unconfirmed_reviewed stuckRun guarded () o hrun unconfirmed
    exact ⟨o, rfl, status, needsReview⟩

end

end Motte.Scenario
