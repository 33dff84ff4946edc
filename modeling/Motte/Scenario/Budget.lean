import Mathlib.Data.List.Perm.Subperm
import Motte.Scenario.Finish

/-! The budget of a run, and the evidence of its steps.

Steps are numbered as they are counted. Every number belongs to a record or to a step
that is still open, so that a run which returns has recorded each step once: the engine
never hands out a number twice, at any depth. -/
namespace Motte.Scenario
open Foundation

section
variable {W : Type} {E : Setup W}

/-- The numbers of the steps that have yet to be recorded. -/
def Phase.opened : Phase → List Nat
  | .going opened => opened
  | .failing opened => opened
  | .stopped => []

/-- The numbers of the steps that a machine has recorded or has open. -/
def numbers (p : Phase) (s : Engine W) : List Nat := s.stepsEvidence.map (·.seq) ++ p.opened

/-- The budget is kept, and no number is used twice. -/
structure Budgeted (E : Setup W) (p : Phase) (s : Engine W) : Prop where
  steps : s.stepCount ≤ E.maxTotalSteps
  turns : s.turns ≤ E.maxTurns
  sent : sends s.deeds ≤ s.turns
  numbered : s.seq = s.stepCount
  once : (numbers p s).Subperm (List.range' 1 s.stepCount)
  exact_ : E.Guarded → p ≠ .stopped → (numbers p s).Perm (List.range' 1 s.stepCount)

theorem Budgeted.fresh (w : W) : Budgeted E (.going []) { world := w } where
  steps := Nat.zero_le _
  turns := Nat.zero_le _
  sent := le_rfl
  numbered := rfl
  once := List.Subperm.refl _
  exact_ := fun _ _ => .refl _

theorem sends_append (deeds added : List (Deed W)) : sends (deeds ++ added) = sends deeds + sends added :=
  List.countP_append

theorem sends_recorded (s : Engine W) (evidence : StepEvidence) : sends (s.recorded evidence).deeds = sends s.deeds :=
  sends_append s.deeds [.recorded evidence.status]

/-- The number of a recorded step is no longer open. -/
theorem numbers_recorded (s : Engine W) (evidence : StepEvidence) (opened : List Nat) :
    (s.recorded evidence).stepsEvidence.map (·.seq) ++ opened = s.stepsEvidence.map (·.seq) ++ evidence.seq :: opened := by
  rw [Engine.recorded, List.map_append, List.append_assoc]
  rfl

section
variable {p q : Phase} {s t : Engine W}

/-- What leaves the counters as they are may only give up numbers, and none if the sink is guarded. -/
theorem Budgeted.keep (h : Budgeted E p s) (count : t.stepCount = s.stepCount) (seq : t.seq = s.seq)
    (turns : t.turns = s.turns) (sent : sends t.deeds = sends s.deeds) (once : (numbers q t).Subperm (numbers p s))
    (exact_ : E.Guarded → q ≠ .stopped → numbers q t = numbers p s ∧ p ≠ .stopped) : Budgeted E q t where
  steps := count ▸ h.steps
  turns := turns ▸ h.turns
  sent := by
    rw [sent, turns]
    exact h.sent
  numbered := by rw [seq, count, h.numbered]
  once := by
    rw [count]
    exact once.trans h.once
  exact_ := by
    intro guarded going
    obtain ⟨heq, hp⟩ := exact_ guarded going
    rw [heq, count]
    exact h.exact_ guarded hp

theorem Budgeted.record {evidence : StepEvidence} {opened : List Nat} (h : Budgeted E p s)
    (hp : p.opened = evidence.seq :: opened) (hq : q.opened = opened) :
    Budgeted E q (s.recorded evidence) := by
  have same : numbers q (s.recorded evidence) = numbers p s := by
    rw [numbers, hq, numbers, hp]
    exact numbers_recorded s evidence opened
  have hopen : p ≠ .stopped := by
    rintro rfl
    cases hp
  exact h.keep rfl rfl rfl (sends_recorded s evidence) (same ▸ .refl _) (fun _ _ => ⟨same, hopen⟩)

/-- A new step takes the next number. -/
theorem Budgeted.begun {opened : List Nat} (h : Budgeted E (.going opened) s) (budget : s.stepCount < E.maxTotalSteps) :
    Budgeted E (.going ((s.seq + 1) :: opened)) { s with stepCount := s.stepCount + 1, seq := s.seq + 1 } := by
  have next : List.range' 1 (s.stepCount + 1) = List.range' 1 s.stepCount ++ [s.seq + 1] := by
    rw [List.range'_1_concat, h.numbered, Nat.add_comm 1]
  have moved : (numbers (.going ((s.seq + 1) :: opened)) s).Perm (numbers (.going opened) s ++ [s.seq + 1]) :=
    List.perm_middle.trans (List.perm_append_singleton _ _).symm
  refine { h with steps := budget, numbered := congrArg (· + 1) h.numbered, once := ?_, exact_ := fun guarded _ => ?_ }
  · rw [next]
    exact moved.subperm.trans ((List.subperm_append_right _).2 h.once)
  · rw [next]
    exact moved.trans ((h.exact_ guarded (fun heq => by cases heq)).append_right _)

/-- A step takes one turn at most, and sends at most one message in it. -/
theorem Budgeted.taken {opened : List Nat} {step : Step} {ended : Except Exn Dispatch} (h : Budgeted E (.going opened) s)
    (turn : step.kind = .sendMessage → s.turns < E.maxTurns) (hend : LeafEnd E step s ended t) :
    Budgeted E (.after opened ended) t := by
  obtain ⟨spent, added, hend⟩ := hend
  have within : s.turns + spent ≤ E.maxTurns := by
    have hspent := hend.turn
    unfold allowance at hspent
    split at hspent
    · have := turn ‹_›
      omega
    · have := h.turns
      omega
  have opened_ : numbers (.after opened ended) t = numbers (.going opened) s ∨
      (.after opened ended = Phase.stopped ∧ numbers (.after opened ended) t = s.stepsEvidence.map (·.seq)) := by
    unfold numbers
    rw [hend.stepsEvidence]
    cases ended with
    | ok result =>
      rw [Phase.after]
      split <;> exact .inl rfl
    | error e =>
      rw [Phase.after]
      split
      · exact .inr ⟨rfl, List.append_nil _⟩
      · exact .inl rfl
  refine { steps := ?_, turns := ?_, sent := ?_, numbered := ?_, once := ?_, exact_ := fun guarded going => ?_ }
  · rw [hend.stepCount]
    exact h.steps
  · rw [hend.turns]
    exact within
  · rw [hend.deeds, sends_append, hend.turns]
    exact Nat.add_le_add h.sent hend.sent
  · rw [hend.seq, hend.stepCount, h.numbered]
  · rw [hend.stepCount]
    refine List.Subperm.trans ?_ h.once
    rcases opened_ with heq | ⟨-, heq⟩
    · rw [heq]
    · rw [heq]
      exact (List.sublist_append_left _ _).subperm
  · rcases opened_ with heq | ⟨hstopped, -⟩
    · rw [heq, hend.stepCount]
      exact h.exact_ guarded (fun heq => by cases heq)
    · exact (going hstopped).elim

theorem budgeted_move {steps : List Step} (hmove : Move E steps p s q t) (h : Budgeted E p s) : Budgeted E q t := by
  cases hmove with
  | called w => exact h.keep rfl rfl rfl rfl (.refl _) (fun _ _ => ⟨rfl, fun heq => by cases heq⟩)
  | calledFailing w => exact h.keep rfl rfl rfl rfl (.refl _) (fun _ _ => ⟨rfl, fun heq => by cases heq⟩)
  | blocked v hv open_ => exact h.keep rfl rfl rfl rfl (.refl _) (fun _ _ => ⟨rfl, fun heq => by cases heq⟩)
  | begun budget => exact h.begun budget
  | skipped evidence skipped only =>
    exact h.record rfl rfl
  | taken hstep open_ effect turn hend => exact h.taken turn hend
  | looked hstep hc looked =>
    refine h.keep looked.stepCount looked.seq looked.turns ?_ ?_ (fun _ _ => ⟨?_, fun heq => by cases heq⟩)
    · rw [looked.deeds, sends_append]
      rfl
    · rw [numbers, looked.stepsEvidence]
      exact .refl _
    · rw [numbers, looked.stepsEvidence]
      rfl
  | faltered => exact h.keep rfl rfl rfl rfl (.refl _) (fun _ _ => ⟨rfl, fun heq => by cases heq⟩)
  | succeeded evidence succeeded => exact h.record rfl rfl
  | failed evidence failed handled =>
    obtain ⟨_, _, _, rfl, -⟩ := handled
    have recorded : Budgeted E (.going _) (s.recorded evidence) := h.record rfl rfl
    exact recorded.keep rfl rfl rfl rfl (.refl _) (fun _ _ => ⟨rfl, fun heq => by cases heq⟩)
  | escaped evidence failed unguarded => exact h.record rfl rfl
  | dropped unguarded =>
    refine h.keep rfl rfl rfl rfl ?_ (fun guarded => (unguarded guarded).elim)
    exact ((List.sublist_cons_self _ _).append_left _).subperm
  | lost => exact h.keep rfl rfl rfl rfl (List.nil_sublist _ |>.append_left _).subperm (fun _ going => (going rfl).elim)
  | lostRecord evidence failed =>
    refine h.keep rfl rfl rfl (sends_recorded s evidence) ?_ (fun _ going => (going rfl).elim)
    rw [numbers, numbers_recorded]
    exact (((List.nil_sublist _).cons_cons _).append_left _).subperm

end

theorem budgeted_moves {steps : List Step} {p : Phase} {w : W} {t : Engine W}
    (h : Moves E steps (.going []) { world := w } p t) : Budgeted E p t :=
  h.keeps budgeted_move (.fresh w)

theorem sends_final {more : List (Deed W)} (h : ∀ d ∈ more, d.Final E) : sends more = 0 := by
  refine List.countP_eq_zero.2 (fun d hd => ?_)
  have := h d hd
  cases d <;> first | exact this.elim | exact Bool.false_ne_true

variable (E)

/-- A run ends, within its budget, and records every step that it counts at most once. If it returns, it has recorded
every one, unless the event sink raises something else than that evidence cannot be kept. -/
theorem run_budget (w : W) :
    (run E { world := w }).2.stepCount ≤ E.maxTotalSteps ∧
    sends (run E { world := w }).2.deeds ≤ E.maxTurns ∧
    ((run E { world := w }).2.stepsEvidence.map (·.seq)).Subperm (List.range' 1 (run E { world := w }).2.stepCount) ∧
    ∀ o, (run E { world := w }).1 = .ok o →
      o.steps = (run E { world := w }).2.stepsEvidence ∧ o.stepCount = (run E { world := w }).2.stepCount ∧
      (E.Guarded → (o.steps.map (·.seq)).Perm (List.range' 1 o.stepCount)) := by
  have spec := wp_run (E := E) w
  have ending : Ending E w (run E { world := w }).2 :=
    Op.wp_state (Op.wp_mono spec (fun _ _ h => h.ending) (fun _ _ h => h))
  obtain ⟨p, t, more, moves, counting, final⟩ := ending
  have budgeted := budgeted_moves moves
  refine ⟨?_, ?_, ?_, fun o ho => ?_⟩
  · rw [counting.stepCount]
    exact budgeted.steps
  · rw [counting.deeds, sends_append, sends_final final]
    exact budgeted.sent.trans budgeted.turns
  · rw [counting.stepCount, counting.stepsEvidence]
    exact (List.sublist_append_left _ _).subperm.trans budgeted.once
  · have returned := Op.wp_returned spec ho
    have counted {terminal : Option Verdict} {t : Engine W} (judged : Judged E terminal t o (run E { world := w }).2) :
        o.steps = (run E { world := w }).2.stepsEvidence ∧ o.stepCount = (run E { world := w }).2.stepCount := by
      obtain ⟨_, counting, -⟩ := judged.ending
      exact ⟨judged.steps.trans counting.stepsEvidence.symm, judged.stepCount.trans counting.stepCount.symm⟩
    cases returned with
    | unbegun w' reason judged =>
      refine ⟨(counted judged).1, (counted judged).2, fun _ => ?_⟩
      rw [judged.steps, judged.stepCount]
      exact .refl _
    | ran t w' succeeded reason moves judged =>
      refine ⟨(counted judged).1, (counted judged).2, fun guarded => ?_⟩
      have exact_ := (budgeted_moves moves).exact_ guarded (fun heq => by cases heq)
      rw [numbers, Phase.opened, List.append_nil] at exact_
      rw [judged.steps, judged.stepCount]
      exact exact_

end

/-- A step is counted and not recorded when its tool says that evidence cannot be kept. -/
theorem unrecorded_step : ¬∀ (E : Setup Unit) (time : Unit → ℚ), E.ports.Monotone time → E.Guarded →
    (run E { world := () }).2.stepsEvidence.length = (run E { world := () }).2.stepCount := by
  intro h
  have unkept := h ((WorkflowVersion.single (.invokeFixtureTool { stepId := "tool" } "tool" .null .real) []
      (wellStructured_single rfl rfl)).setup
    { Ports.still with invokeTool := fun _ _ _ => Op.raise (.evidenceBoundary "EVIDENCE" "evidence cannot be kept") })
    (fun _ => 0) ⟨fun _ => le_rfl, fun _ hsink => by cases hsink⟩ (fun _ hsink => by cases hsink)
  exact absurd unkept (by decide +kernel)

end Motte.Scenario
