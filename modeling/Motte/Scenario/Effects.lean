import Motte.Scenario.Finish

/-! After a failure nothing more is done outside.

A step that has failed leaves a verdict, after which no step is taken, or leaves only
evidence to be gathered, in which case a step that changes something is skipped. Before
that is settled the engine only passes the failure on to the steps around it. -/
namespace Motte.Scenario
open Foundation

section
variable {W : Type} {E : Setup W} {steps : List Step} {p q : Phase} {s t : Engine W}

/-- What is done later changes nothing outside, if what is done earlier is to record a failure. -/
def Calm (earlier later : Deed W) : Prop := earlier = .recorded .failed → later.sideEffect = false

/-- Nothing was changed after a failure, and nothing is going to be. -/
structure Quiet (p : Phase) (s : Engine W) : Prop where
  calm : s.deeds.Pairwise Calm
  closed : (∃ opened, p = .going opened) → .recorded .failed ∈ s.deeds → s.terminal.isSome ∨ s.evidenceOnly = true

/-- Deeds that change nothing and record nothing may follow anything. -/
theorem calm_append {deeds added : List (Deed W)} (h : deeds.Pairwise Calm) (unrecorded : .recorded .failed ∉ added)
    (calm : .recorded .failed ∈ deeds → ∀ d ∈ added, d.sideEffect = false) : (deeds ++ added).Pairwise Calm := by
  refine List.pairwise_append.2 ⟨h, ?_, fun a ha b hb hfailed => calm (hfailed ▸ ha) b hb⟩
  refine List.pairwise_of_forall_mem_list (fun a ha b hb hfailed => ?_)
  exact (unrecorded (hfailed ▸ ha)).elim

theorem calm_recorded {evidence : StepEvidence} (h : s.deeds.Pairwise Calm) : (s.recorded evidence).deeds.Pairwise Calm := by
  refine List.pairwise_append.2 ⟨h, List.pairwise_singleton _ _, fun a ha b hb _ => ?_⟩
  rw [List.mem_singleton.1 hb]
  rfl

theorem quiet_move (hmove : Move E steps p s q t) (h : Quiet p s) : Quiet q t := by
  have notFailing {opened : List Nat} {P : Prop} (heq : ∃ opened', Phase.failing opened = .going opened') : P := by
    obtain ⟨_, heq⟩ := heq
    cases heq
  have notStopped {P : Prop} (heq : ∃ opened', Phase.stopped = .going opened') : P := by
    obtain ⟨_, heq⟩ := heq
    cases heq
  -- recording a step that did not fail
  have earlier {evidence : StepEvidence} (hstatus : evidence.status ≠ .failed)
      (hmem : .recorded .failed ∈ (s.recorded evidence).deeds) : .recorded .failed ∈ s.deeds := by
    rcases List.mem_append.1 hmem with hmem | hmem
    · exact hmem
    · injection List.mem_singleton.1 hmem with heq
      exact (hstatus heq.symm).elim
  cases hmove with
  | called w => exact ⟨h.calm, fun _ => h.closed ⟨_, rfl⟩⟩
  | calledFailing w => exact ⟨h.calm, notFailing⟩
  | blocked v hv open_ => exact ⟨h.calm, fun _ _ => .inl rfl⟩
  | begun budget => exact ⟨h.calm, fun _ => h.closed ⟨_, rfl⟩⟩
  | skipped evidence skipped only => exact ⟨calm_recorded h.calm, fun _ _ => .inr only⟩
  | taken hstep open_ effect turn hend =>
    obtain ⟨spent, added, hend⟩ := hend
    have unrecorded : .recorded .failed ∉ added := fun hmem => hend.permitted _ hmem
    have only : .recorded .failed ∈ s.deeds → s.evidenceOnly = true := by
      intro hmem
      refine (h.closed ⟨_, rfl⟩ hmem).resolve_left (fun hsome => ?_)
      rw [open_] at hsome
      cases hsome
    refine ⟨?_, fun _ hmem => .inr ?_⟩
    · rw [hend.deeds]
      refine calm_append h.calm unrecorded (fun hmem d hd => ?_)
      -- a step that is taken in spite of a failure has no side effect
      by_contra heffect
      have allowed := hend.permitted d hd
      have blocked := only hmem
      cases d <;> first | exact heffect rfl | cases (effect (allowed (Bool.not_eq_false _ ▸ heffect))).symm.trans blocked
    · rw [hend.deeds] at hmem
      rw [hend.evidenceOnly]
      exact only ((List.mem_append.1 hmem).resolve_right unrecorded)
  | looked hstep hc looked =>
    have unrecorded {c : Condition} : (.recorded .failed : Deed W) ∉ [.compiled c] := by
      intro hmem
      cases List.mem_singleton.1 hmem
    refine ⟨?_, fun _ hmem => ?_⟩
    · rw [looked.deeds]
      refine calm_append h.calm unrecorded (fun _ d hd => ?_)
      rw [List.mem_singleton.1 hd]
      rfl
    · rw [looked.deeds] at hmem
      rw [looked.terminal, looked.evidenceOnly]
      exact h.closed ⟨_, rfl⟩ ((List.mem_append.1 hmem).resolve_right unrecorded)
  | faltered => exact ⟨h.calm, notFailing⟩
  | succeeded evidence succeeded =>
    exact ⟨calm_recorded h.calm, fun _ hmem => h.closed ⟨_, rfl⟩ (earlier (by rw [succeeded]; decide) hmem)⟩
  | failed evidence failed handled =>
    obtain ⟨_, _, _, rfl, _, _, _, closed⟩ := handled
    exact ⟨calm_recorded h.calm, fun _ _ => closed⟩
  | escaped evidence failed unguarded => exact ⟨calm_recorded h.calm, notFailing⟩
  | dropped unguarded => exact ⟨h.calm, notFailing⟩
  | lost => exact ⟨h.calm, notStopped⟩
  | lostRecord evidence failed => exact ⟨calm_recorded h.calm, notStopped⟩

/-- Once a step has failed, no later step sends to the target, applies an event or calls a tool that is not denied. -/
theorem quiet_after_failure (E : Setup W) (w : W) :
    (run E { world := w }).2.deeds.Pairwise (fun earlier later => earlier = .recorded .failed → later.sideEffect = false) := by
  have ending : Ending E w (run E { world := w }).2 :=
    Op.wp_state (Op.wp_mono (wp_run (E := E) w) (fun _ _ h => h.ending) (fun _ _ h => h))
  obtain ⟨p, t, more, moves, counting, final⟩ := ending
  have quiet := moves.keeps (I := Quiet) quiet_move ⟨.nil, fun _ hmem => by cases hmem⟩
  rw [counting.deeds]
  refine calm_append quiet.calm (fun hmem => final _ hmem) (fun _ d hd => ?_)
  have := final d hd
  cases d <;> first | rfl | exact this.elim

end

end Motte.Scenario
