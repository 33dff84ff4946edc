import Mathlib.Logic.Relation
import Motte.Scenario.Leaf

/-! The engine as a machine.

A move is one thing that the engine can do between two points where a step begins, ends
or is recorded. Every run of steps is a sequence of moves (`moves_runSequence`), however
deep they are nested, so what every move keeps is kept by the run.

A machine knows which steps it has begun and not recorded. It is going on, or a step has
failed or raised and is about to be recorded, or it is stopped since evidence cannot be
kept. -/
namespace Motte.Scenario
open Foundation

section
variable {W : Type}

/-- Where an engine stands, with the numbers of the steps that are open, innermost first. -/
inductive Phase where
  | going (opened : List Nat)
  | failing (opened : List Nat)
  | stopped

/-- Evidence is recorded. -/
def Engine.recorded (s : Engine W) (evidence : StepEvidence) : Engine W :=
  { s with
    stepsEvidence := s.stepsEvidence ++ [evidence]
    deeds := s.deeds ++ [.recorded evidence.status] }

/-- The phase after a step with nothing below it. -/
def Phase.after (opened : List Nat) : Except Exn Dispatch → Phase
  | .ok result => if result.status = .succeeded then .going opened else .failing opened
  | .error e => if e.isBoundary then .stopped else .failing opened

/-- What a failed step leaves: a verdict, or that only evidence is gathered. -/
def Handled (s t : Engine W) : Prop :=
  ∃ terminal evidenceOnly reason,
    t = { s with terminal := terminal, evidenceOnly := evidenceOnly, evidenceOnlyReason := reason } ∧
    (∀ v ∈ s.terminal, terminal = some v) ∧ (s.terminal = none → ∀ v ∈ terminal, v.1 = .failed) ∧
    (s.evidenceOnly = true → evidenceOnly = true) ∧ (terminal.isSome ∨ evidenceOnly = true)

/-- One thing that an engine can do with these steps. -/
inductive Move (E : Setup W) (steps : List Step) : Phase → Engine W → Phase → Engine W → Prop where
  | called {opened s} (w : W) : Move E steps (.going opened) s (.going opened) { s with world := w }
  | calledFailing {opened s} (w : W) : Move E steps (.failing opened) s (.failing opened) { s with world := w }
  | blocked {opened s} (v : Verdict) (hv : v.1 ≠ .completed) (open_ : s.terminal = none) :
    Move E steps (.going opened) s (.going opened) { s with terminal := some v }
  | begun {opened s} (budget : s.stepCount < E.maxTotalSteps) :
    Move E steps (.going opened) s (.going ((s.seq + 1) :: opened))
      { s with stepCount := s.stepCount + 1, seq := s.seq + 1 }
  | skipped {opened s} (evidence : StepEvidence) (skipped : evidence.status = .skipped) (only : s.evidenceOnly = true) :
    Move E steps (.going (evidence.seq :: opened)) s (.going opened) (s.recorded evidence)
  | taken {opened s t step ended} (hstep : step ∈ steps) (open_ : s.terminal = none)
    (effect : hasSideEffect step = true → s.evidenceOnly = false)
    (turn : step.kind = .sendMessage → s.turns < E.maxTurns) (hend : LeafEnd E step s ended t) :
    Move E steps (.going opened) s (.after opened ended) t
  | looked {opened s t step c} (hstep : step ∈ steps) (hc : c ∈ step.conditions.map Prod.snd)
    (looked : Doing s 0 [.compiled c] t) : Move E steps (.going opened) s (.going opened) t
  | faltered {opened s} : Move E steps (.going opened) s (.failing opened) s
  | succeeded {opened s} (evidence : StepEvidence) (succeeded : evidence.status = .succeeded) :
    Move E steps (.going (evidence.seq :: opened)) s (.going opened) (s.recorded evidence)
  | failed {opened s t} (evidence : StepEvidence) (failed : evidence.status = .failed)
    (handled : Handled (s.recorded evidence) t) : Move E steps (.failing (evidence.seq :: opened)) s (.going opened) t
  /-- the sink raised before the failure was handled -/
  | escaped {opened s} (evidence : StepEvidence) (failed : evidence.status = .failed) (unguarded : ¬E.Guarded) :
    Move E steps (.failing (evidence.seq :: opened)) s (.failing opened) (s.recorded evidence)
  /-- the sink raised before the step was recorded -/
  | dropped {n opened s} (unguarded : ¬E.Guarded) : Move E steps (.failing (n :: opened)) s (.failing opened) s
  | lost {opened s} : Move E steps (.failing opened) s .stopped s
  /-- what evidence is recorded when it cannot be kept that the step failed -/
  | lostRecord {opened s} (evidence : StepEvidence) (failed : evidence.status = .failed) :
    Move E steps (.failing (evidence.seq :: opened)) s .stopped (s.recorded evidence)

/-- Any number of moves. -/
def Moves (E : Setup W) (steps : List Step) (p : Phase) (s : Engine W) (q : Phase) (t : Engine W) : Prop :=
  Relation.ReflTransGen (fun x y => Move E steps x.1 x.2 y.1 y.2) (p, s) (q, t)

variable {E : Setup W} {steps : List Step}

/-- What every move keeps is kept by any number of them. -/
theorem Moves.keeps {I : Phase → Engine W → Prop} (keep : ∀ {p s q t}, Move E steps p s q t → I p s → I q t)
    {p q : Phase} {s t : Engine W} (h : Moves E steps p s q t) (hi : I p s) : I q t :=
  Relation.ReflTransGen.head_induction_on (motive := fun x _ => I x.1 x.2 → I q t) h id
    (fun hmove _ ih hi => ih (keep hmove hi)) hi

namespace Moves
variable {p q r : Phase} {s t u : Engine W}

theorem none : Moves E steps p s p s := .refl

theorem call {opened : List Nat} (h : Moves E steps p s (.going opened) t) (w : W) :
    Moves E steps p s (.going opened) { t with world := w } := .tail h (.called w)

theorem callFailing {opened : List Nat} (h : Moves E steps p s (.failing opened) t) (w : W) :
    Moves E steps p s (.failing opened) { t with world := w } := .tail h (.calledFailing w)

theorem then_ (h : Moves E steps p s q t) (hm : Move E steps q t r u) : Moves E steps p s r u := .tail h hm

theorem trans (h : Moves E steps p s q t) (h' : Moves E steps q t r u) : Moves E steps p s r u :=
  Relation.ReflTransGen.trans h h'

end Moves

/-- How an exception leaves a run of steps. -/
def Raised (E : Setup W) (steps : List Step) (opened : List Nat) (s : Engine W) (e : Exn) (t : Engine W) : Prop :=
  if e.isBoundary then Moves E steps (.going opened) s .stopped t
  else ¬E.Guarded ∧ Moves E steps (.going opened) s (.failing opened) t

/-- A run of steps is a sequence of moves. -/
def Runs (E : Setup W) (steps : List Step) (opened : List Nat) (x : Task W Unit) (s : Engine W) : Prop :=
  x.wp s (fun _ t => Moves E steps (.going opened) s (.going opened) t) (Raised E steps opened s)

/-- The dispatch of an open step is a sequence of moves. -/
def Dispatched (E : Setup W) (steps : List Step) (opened : List Nat) (x : Task W Dispatch) (s : Engine W) : Prop :=
  x.wp s
    (fun result t =>
      (result.status = .succeeded ∧ Moves E steps (.going opened) s (.going opened) t) ∨
      (result.status = .failed ∧ Moves E steps (.going opened) s (.failing opened) t))
    (fun e t => Moves E steps (.going opened) s (if e.isBoundary then .stopped else .failing opened) t)

/-- What the sink raises leaves a run of steps if it is guarded only when evidence cannot be kept. -/
theorem raised_of_guarded {opened : List Nat} {s t : Engine W} {e : Exn} (guarded : E.Guarded → e.isBoundary = true)
    (h : Moves E steps (.going opened) s (.failing opened) t) : Raised E steps opened s e t := by
  unfold Raised
  split
  · exact h.then_ .lost
  · rename_i inside
    exact ⟨fun hguarded => inside (guarded hguarded), h⟩

/-! ### Taking a step -/

section Steps
variable {s : Engine W} {opened : List Nat} {step : Step} {depth : Nat}

theorem wp_cancelled {ok : Bool → Engine W → Prop} {err : Exn → Engine W → Prop}
    (hok : ∀ answer w, ok answer { s with world := w }) : (cancelled E).wp s ok err := by
  unfold cancelled
  cases E.ports.cancelCheck with
  | none => exact hok false s.world
  | some check =>
    show Op.wp (Op.result (onWorld check) >>= _) s ok err
    rw [Op.wp_bind, Op.wp_result_iff]
    exact wp_onWorld (fun answer _ => hok answer _) (fun _ _ => hok false _)

/-- The budget is looked at before a step is taken. -/
theorem wp_budgetStop {kind : StepKind} {ok : Option Verdict → Engine W → Prop} {err : Exn → Engine W → Prop}
    (hstop : ∀ v w, v.1 ≠ .completed → ok (some v) { s with world := w })
    (hgo : ∀ w, s.stepCount < E.maxTotalSteps → (kind = .sendMessage → s.turns < E.maxTurns) →
      ok none { s with world := w }) : (budgetStop E kind).wp s ok err := by
  have stop (status : Status) (reason : Option String) (w : W) (h : status ≠ .completed) :=
    hstop (status, reason) w h
  unfold budgetStop
  rw [Op.wp_bind]
  refine wp_cancelled (fun answer w => Op.wp_ite (fun _ => stop _ _ w (by decide)) (fun _ => ?_))
  rw [Op.wp_bind, Op.wp_gets]
  refine Op.wp_ite (fun _ => stop _ _ w (by decide)) (fun steps => ?_)
  rw [Op.wp_bind, Op.wp_gets]
  refine Op.wp_ite (fun _ => stop _ _ w (by decide)) (fun turns => ?_)
  rw [Op.wp_bind, wp_remainingSeconds]
  refine Op.wp_ite (fun _ => stop _ _ _ (by decide)) (fun _ => ?_)
  exact hgo _ (not_le.1 steps) (fun hkind => not_le.1 (fun hle => turns ⟨hkind, hle⟩))

/-- Whatever the clock shows. -/
theorem wp_clock {ok : ℚ → Engine W → Prop} {err : Exn → Engine W → Prop}
    (hok : ∀ time w, ok time { s with world := w }) : (now E).wp s ok err := hok _ _

theorem wp_stepDeadline {ok : ℚ → Engine W → Prop} {err : Exn → Engine W → Prop}
    (hok : ∀ deadline w, ok deadline { s with world := w }) : (stepDeadline E step).wp s ok err := by
  unfold stepDeadline
  cases step.base.timeoutSec with
  | none => exact hok _ s.world
  | some timeout => exact hok _ _

/-- A failure is handled once it is recorded. -/
theorem wp_handleFailure {detail : Option String} {ok : Unit → Engine W → Prop} {err : Exn → Engine W → Prop}
    (hok : ∀ t, Handled s t → ok () t) : (handleFailure E step detail).wp s ok err := by
  unfold handleFailure
  rw [Op.wp_modify]
  refine hok _ ?_
  split
  · rename_i verdict
    refine ⟨s.terminal, s.evidenceOnly, s.evidenceOnlyReason, rfl, fun _ hv => hv, fun hnone => ?_, id, .inl verdict⟩
    rw [hnone] at verdict
    cases verdict
  · rename_i verdict
    have open_ : s.terminal = none := Option.not_isSome_iff_eq_none.1 verdict
    split
    · split
      · rename_i only
        refine ⟨s.terminal, s.evidenceOnly, s.evidenceOnlyReason, rfl, fun _ hv => hv, ?_, id, .inr only⟩
        intro _ v hv
        rw [open_] at hv
        cases hv
      · refine ⟨s.terminal, true, _, rfl, fun _ hv => hv, ?_, fun _ => rfl, .inr rfl⟩
        intro _ v hv
        rw [open_] at hv
        cases hv
    · refine ⟨some _, s.evidenceOnly, s.evidenceOnlyReason, rfl, ?_, ?_, id, .inl rfl⟩
      · intro v hv
        rw [open_] at hv
        cases hv
      · rintro _ v ⟨⟩
        rfl

theorem wp_recordSkipped {n : Nat} {u : Engine W} {evidence : StepEvidence} {err : Exn → Engine W → Prop}
    (h : Moves E steps (.going opened) s (.going (n :: opened)) u) (numbered : evidence.seq = n)
    (skipped : evidence.status = .skipped) (only : u.evidenceOnly = true) :
    (record evidence).wp u (fun _ t => Moves E steps (.going opened) s (.going opened) t) err := by
  subst numbered
  exact h.then_ (.skipped evidence skipped only)

/-- An open step is recorded with what it came to, and a failure is handled. -/
theorem wp_recordResult {n : Nat} {u : Engine W} {result : Dispatch} {evidence : ℚ → StepEvidence} {event : ℚ → EngineEvent}
    (hseq : ∀ time, (evidence time).seq = n) (hstatus : ∀ time, (evidence time).status = result.status)
    (h : (result.status = .succeeded ∧ Moves E steps (.going opened) s (.going (n :: opened)) u) ∨
      (result.status = .failed ∧ Moves E steps (.going opened) s (.failing (n :: opened)) u)) :
    (do
      let time ← now E
      record (evidence time)
      emit E (event time)
      if result.status = .failed then handleFailure E step result.detail else return () : Task W Unit).wp u
        (fun _ t => Moves E steps (.going opened) s (.going opened) t) (Raised E steps opened s) := by
  rw [Op.wp_bind, wp_now]
  have numbered := hseq (E.ports.now u.world).1
  have status := hstatus (E.ports.now u.world).1
  generalize evidence (E.ports.now u.world).1 = evidence at numbered status
  subst numbered
  show Op.wp (Op.modify (fun v => Engine.recorded v evidence) >>= fun _ => emit E _ >>= _) _ _ _
  rw [Op.wp_bind, Op.wp_modify, Op.wp_bind]
  rcases h with ⟨hresult, h⟩ | ⟨hresult, h⟩
  · have recorded (w : W) := (h.call w).then_ (.succeeded evidence (status.trans hresult))
    refine wp_emit (fun w _ => ?_) (fun e w guarded => raised_of_guarded guarded ((recorded w).then_ .faltered))
    rw [if_neg (by rw [hresult]; decide)]
    exact recorded w
  · have failed : evidence.status = .failed := status.trans hresult
    refine wp_emit (fun w _ => ?_) (fun e w guarded => ?_)
    · rw [if_pos hresult]
      exact wp_handleFailure (fun t handled => (h.callFailing w).then_ (.failed evidence failed handled))
    · unfold Raised
      split
      · exact (h.callFailing w).then_ (.lostRecord evidence failed)
      · rename_i inside
        have unguarded : ¬E.Guarded := fun hguarded => inside (guarded hguarded)
        exact ⟨unguarded, (h.callFailing w).then_ (.escaped evidence failed unguarded)⟩

/-- A step that is open is recorded. -/
theorem runs_takeStep {dispatch : ℚ → Task W Dispatch} (open_ : s.terminal = none)
    (hdispatch : ∀ n deadline t, t.terminal = none → (hasSideEffect step = true → t.evidenceOnly = false) →
      (step.kind = .sendMessage → t.turns < E.maxTurns) → Dispatched E steps (n :: opened) (dispatch deadline) t) :
    Runs E steps opened (takeStep E step depth dispatch) s := by
  unfold takeStep Runs
  rw [Op.wp_bind]
  refine wp_budgetStop (fun v w hv => ?_) (fun w budget turns => ?_)
  · have called : Moves E steps (.going opened) s _ { s with world := w } := Moves.none.call w
    have blocked := called.then_ (.blocked v hv open_)
    show Op.wp (setTerminal v >>= fun _ => emit E _) _ _ _
    rw [Op.wp_bind, wp_setTerminal]
    exact wp_emit (fun w' _ => blocked.call w')
      (fun e w' guarded => raised_of_guarded guarded ((blocked.call w').then_ .faltered))
  · have begun : Moves E steps (.going opened) s (.going ((s.seq + 1) :: opened))
        { s with stepCount := s.stepCount + 1, seq := s.seq + 1 } := Moves.none.then_ (.begun budget)
    rw [Op.wp_bind, Op.wp_modify, Op.wp_bind, Op.wp_gets, Op.wp_bind]
    refine wp_clock (fun started w => ?_)
    rw [Op.wp_bind]
    refine wp_stepDeadline (fun deadline w => ?_)
    rw [Op.wp_bind, wp_remainingSeconds, Op.wp_bind]
    refine wp_emit (fun w _ => ?_) (fun e w guarded => ?_)
    · show Op.wp (Op.gets (·.evidenceOnly) >>= _)
        { s with world := w, stepCount := s.stepCount + 1, seq := s.seq + 1 } _ _
      rw [Op.wp_bind, Op.wp_gets]
      refine Op.wp_ite (fun blocked => wp_recordSkipped (begun.call w) rfl rfl blocked.1) (fun free => ?_)
      have effect : hasSideEffect step = true → s.evidenceOnly = false :=
        fun heffect => Bool.eq_false_iff.2 (fun only => free ⟨only, heffect⟩)
      rw [Op.wp_bind, Op.wp_result_iff]
      refine Op.wp_mono (hdispatch (s.seq + 1) deadline _ open_ effect turns) (fun result u hr => ?_) (fun e u he => ?_)
      · rw [Op.wp_bind]
        show Op.wp (now E >>= _) u _ _
        refine wp_recordResult (n := s.seq + 1) (fun _ => ?_) (fun _ => ?_)
          (hr.imp (fun hr => ⟨hr.1, (begun.call w).trans hr.2⟩) (fun hr => ⟨hr.1, (begun.call w).trans hr.2⟩))
        · rfl
        · rfl
      · rw [Op.wp_bind]
        unfold settled
        refine Op.wp_ite (fun boundary => ?_) (fun inside => ?_)
        · rw [if_pos boundary] at he
          rw [Op.wp_raise, Raised, if_pos boundary]
          exact (begun.call w).trans he
        · rw [if_neg inside] at he
          rw [Op.wp_pure]
          refine wp_recordResult (n := s.seq + 1) (fun _ => ?_) (fun _ => ?_) (.inr ⟨rfl, (begun.call w).trans he⟩)
          · rfl
          · rfl
    · have failing := (begun.call w).then_ .faltered
      unfold Raised
      split
      · exact failing.then_ .lost
      · rename_i inside
        have unguarded : ¬E.Guarded := fun hguarded => inside (guarded hguarded)
        exact ⟨unguarded, failing.then_ (.dropped unguarded)⟩

/-! ### Dispatching -/

theorem dispatched_of_ends {x : Task W Dispatch} (hstep : step ∈ steps) (open_ : s.terminal = none)
    (effect : hasSideEffect step = true → s.evidenceOnly = false)
    (turn : step.kind = .sendMessage → s.turns < E.maxTurns) (h : Ends E step s x s) : Dispatched E steps opened x s := by
  have taken {ended : Except Exn Dispatch} {u : Engine W} (hend : LeafEnd E step s ended u) :
      Moves E steps (.going opened) s (.after opened ended) u :=
    Moves.none.then_ (.taken hstep open_ effect turn hend)
  refine Op.wp_mono h (fun result u hend => ?_) (fun e u hend => taken hend)
  have moves := taken hend
  obtain ⟨_, _, hend⟩ := hend
  cases hresult : result.status with
  | succeeded =>
    rw [Phase.after, if_pos hresult] at moves
    exact .inl ⟨rfl, moves⟩
  | failed =>
    rw [Phase.after, if_neg (by rw [hresult]; decide)] at moves
    exact .inr ⟨rfl, moves⟩
  | skipped => exact (hend.dispatched result rfl hresult).elim

/-- An exception in a step that has steps below it. -/
theorem moves_raising {u : Engine W} {e : Exn} (h : Moves E steps (.going opened) s (.failing opened) u) :
    Moves E steps (.going opened) s (if e.isBoundary then .stopped else .failing opened) u := by
  split
  · exact h.then_ .lost
  · exact h

theorem moves_raised {u v : Engine W} {e : Exn} (h : Moves E steps (.going opened) s (.going opened) u)
    (raised : Raised E steps opened u e v) :
    Moves E steps (.going opened) s (if e.isBoundary then .stopped else .failing opened) v := by
  unfold Raised at raised
  split at raised
  · rename_i boundary
    rw [if_pos boundary]
    exact h.trans raised
  · rename_i inside
    rw [if_neg inside]
    exact h.trans raised.2

theorem wp_containerResult {u : Engine W} (h : Moves E steps (.going opened) s (.going opened) u)
    (assertions : List AssertionItem) : (containerResult assertions : Task W Dispatch).wp u
      (fun result t =>
        (result.status = .succeeded ∧ Moves E steps (.going opened) s (.going opened) t) ∨
        (result.status = .failed ∧ Moves E steps (.going opened) s (.failing opened) t))
      (fun e t => Moves E steps (.going opened) s (if e.isBoundary then .stopped else .failing opened) t) := by
  unfold containerResult
  rw [Op.wp_bind, Op.wp_gets]
  cases u.terminal with
  | none => exact .inl ⟨rfl, h⟩
  | some verdict => exact .inr ⟨rfl, h.then_ .faltered⟩

/-- The condition of a branch or loop is looked at. -/
theorem wp_decideMoves {u : Engine W} {condition : Condition} {ok : ConditionOutcome → Engine W → Prop} (hstep : step ∈ steps)
    (hc : condition ∈ step.conditions.map Prod.snd) (h : Moves E steps (.going opened) s (.going opened) u)
    (hok : ∀ outcome v, Moves E steps (.going opened) s (.going opened) v → ok outcome v) :
    (decide_ E condition).wp u ok
      (fun e t => Moves E steps (.going opened) s (if e.isBoundary then .stopped else .failing opened) t) := by
  refine wp_decide (Doing.begin u) (fun outcome v looked => ?_) (fun e v looked => ?_)
  · exact hok outcome v (h.then_ (.looked hstep hc looked))
  · exact moves_raising ((h.then_ (.looked hstep hc looked)).then_ .faltered)

theorem wp_emitMoves {u : Engine W} {event : EngineEvent} {ok : Unit → Engine W → Prop}
    (h : Moves E steps (.going opened) s (.going opened) u)
    (hok : ∀ v, Moves E steps (.going opened) s (.going opened) v → ok () v) :
    (emit E event).wp u ok
      (fun e t => Moves E steps (.going opened) s (if e.isBoundary then .stopped else .failing opened) t) :=
  wp_emit (fun w _ => hok _ (h.call w)) (fun _ w _ => moves_raising ((h.call w).then_ .faltered))

theorem dispatched_branch {when_ : Condition} {thenSteps elseSteps : Task W Unit} (hstep : step ∈ steps)
    (hc : when_ ∈ step.conditions.map Prod.snd) (hthen : ∀ t, Runs E steps opened thenSteps t)
    (helse : ∀ t, Runs E steps opened elseSteps t) :
    Dispatched E steps opened (dispatchBranch E step when_ thenSteps elseSteps) s := by
  unfold dispatchBranch Dispatched
  rw [Op.wp_bind]
  refine wp_decideMoves hstep hc Moves.none (fun decision u h => ?_)
  rw [Op.wp_bind]
  refine wp_emitMoves h (fun u h => ?_)
  have below {x : Task W Unit} (hx : Runs E steps opened x u) : x.wp u
      (fun _ t => Moves E steps (.going opened) s (.going opened) t)
      (fun e t => Moves E steps (.going opened) s (if e.isBoundary then .stopped else .failing opened) t) :=
    Op.wp_mono hx (fun _ t ht => h.trans ht) (fun e t ht => moves_raised h ht)
  split
  · rw [Op.wp_bind]
    exact Op.wp_mono (below (hthen u)) (fun _ t ht => wp_containerResult ht _) (fun _ _ ht => ht)
  · rw [Op.wp_bind]
    exact Op.wp_mono (below (helse u)) (fun _ t ht => wp_containerResult ht _) (fun _ _ ht => ht)

/-- However many iterations are left. -/
theorem wp_iterations {until_ : Option Condition} {body : Task W Unit} (hstep : step ∈ steps)
    (hc : ∀ c ∈ until_, c ∈ step.conditions.map Prod.snd) (hbody : ∀ t, Runs E steps opened body t)
    (left index : Nat) (records : List AssertionItem) {u : Engine W}
    (h : Moves E steps (.going opened) s (.going opened) u) :
    (iterations E step until_ body left index records).wp u
      (fun _ t => Moves E steps (.going opened) s (.going opened) t)
      (fun e t => Moves E steps (.going opened) s (if e.isBoundary then .stopped else .failing opened) t) := by
  induction left generalizing index records u with
  | zero => exact h
  | succ left ih =>
    have round (v : Engine W) (hv : Moves E steps (.going opened) s (.going opened) v) (open_ : v.terminal = none) :
        (do
          if E.maxTotalSteps ≤ (← Op.gets (·.stepCount)) then do
            setTerminal (.budgetExceeded, some ("max_total_steps=" ++ toString E.maxTotalSteps ++ " exhausted inside loop " ++
              E.quoted step.stepId))
            return records
          else do
            emit E (.loopIteration step.stepId (index + 1))
            body
            iterations E step until_ body left (index + 1) (records ++ [.iteration (index + 1) none]) :
          Task W (List AssertionItem)).wp v
        (fun _ t => Moves E steps (.going opened) s (.going opened) t)
        (fun e t => Moves E steps (.going opened) s (if e.isBoundary then .stopped else .failing opened) t) := by
      rw [Op.wp_bind, Op.wp_gets]
      split
      · rw [Op.wp_bind, wp_setTerminal]
        exact hv.then_ (.blocked _ (fun heq => by cases heq) open_)
      · rw [Op.wp_bind]
        refine wp_emitMoves hv (fun w hw => ?_)
        rw [Op.wp_bind]
        exact Op.wp_mono (hbody w) (fun _ t ht => ih _ _ (hw.trans ht)) (fun e t ht => moves_raised hw ht)
    unfold iterations
    rw [Op.wp_bind, Op.wp_gets]
    split
    · exact h
    · rename_i verdict
      have open_ : u.terminal = none := Option.not_isSome_iff_eq_none.1 verdict
      rw [Op.wp_bind]
      unfold converged
      cases until_ with
      | none => exact round u h open_
      | some condition =>
        rw [Op.wp_bind]
        have own := hc condition rfl
        refine wp_decide (Doing.begin u) (fun outcome v looked => ?_) (fun e v looked => ?_)
        · have hv := h.then_ (.looked hstep own looked)
          cases outcome.satisfied with
          | true => exact hv
          | false => exact round v hv (looked.terminal.trans open_)
        · exact moves_raising ((h.then_ (.looked hstep own looked)).then_ .faltered)

theorem dispatched_loop {maxIterations : Nat} {until_ : Option Condition} {body : Task W Unit} (hstep : step ∈ steps)
    (hc : ∀ c ∈ until_, c ∈ step.conditions.map Prod.snd) (hbody : ∀ t, Runs E steps opened body t) :
    Dispatched E steps opened (dispatchLoop E step maxIterations until_ body) s := by
  unfold dispatchLoop Dispatched
  rw [Op.wp_bind]
  exact Op.wp_mono (wp_iterations hstep hc hbody maxIterations 0 [] Moves.none)
    (fun _ t ht => wp_containerResult ht _) (fun _ _ ht => ht)

end Steps

/-! ### Every run of steps -/

mutual
/-- One step, with everything below it. -/
theorem runs_runStep (opened : List Nat) : ∀ (step : Step) (depth : Nat) (s : Engine W),
    (∀ below ∈ step.preorder, below ∈ steps) → s.terminal = none → Runs E steps opened (runStep E step depth) s
  | .sendMessage base message inputRef, depth, s, hall, open_ => by
    have hstep := hall _ (List.mem_singleton.2 rfl)
    exact runs_takeStep open_ (fun n deadline t ht effect turn =>
      dispatched_of_ends hstep ht effect turn (ends_dispatchSend ht rfl message inputRef))
  | .invokeFixtureTool base tool arguments toolMode, depth, s, hall, open_ => by
    have hstep := hall _ (List.mem_singleton.2 rfl)
    exact runs_takeStep open_ (fun n deadline t ht effect turn =>
      dispatched_of_ends hstep ht effect turn (ends_dispatchTool ht (fun h => by exact decide_eq_true h) tool arguments))
  | .assert base, depth, s, hall, open_ => by
    have hstep := hall _ (List.mem_singleton.2 rfl)
    exact runs_takeStep open_ (fun n deadline t ht effect turn =>
      dispatched_of_ends hstep ht effect turn
        (ends_checkAssertions (Acting.begin _ t) ht (fun d hd => by cases hd) "assertion failed"))
  | .checkpoint base label, depth, s, hall, open_ => by
    have hstep := hall _ (List.mem_singleton.2 rfl)
    exact runs_takeStep open_ (fun n deadline t ht effect turn =>
      dispatched_of_ends hstep ht effect turn (ends_dispatchCheckpoint ht label))
  | .branch base when_ thenSteps elseSteps, depth, s, hall, open_ => by
    have hstep := hall _ (List.mem_cons_self ..)
    have hc : when_ ∈ (Step.branch base when_ thenSteps elseSteps).conditions.map Prod.snd := by
      unfold Step.conditions
      rw [List.map_append]
      exact List.mem_append_right _ (List.mem_singleton.2 rfl)
    have hthen : ∀ below ∈ preorder thenSteps, below ∈ steps :=
      fun below hb => hall below (List.mem_cons_of_mem _ (List.mem_append_left _ hb))
    have helse : ∀ below ∈ preorder elseSteps, below ∈ steps :=
      fun below hb => hall below (List.mem_cons_of_mem _ (List.mem_append_right _ hb))
    exact runs_takeStep open_ (fun n deadline t _ _ _ => dispatched_branch hstep hc
      (fun u => runs_runSequence (n :: opened) thenSteps (depth + 1) u hthen)
      (fun u => runs_runSequence (n :: opened) elseSteps (depth + 1) u helse))
  | .loop base maxIterations body until_, depth, s, hall, open_ => by
    have hstep := hall _ (List.mem_cons_self ..)
    have hc : ∀ c ∈ until_, c ∈ (Step.loop base maxIterations body until_).conditions.map Prod.snd := by
      rintro c ⟨⟩
      unfold Step.conditions
      rw [List.map_append]
      exact List.mem_append_right _ (List.mem_singleton.2 rfl)
    have hbody : ∀ below ∈ preorder body, below ∈ steps := fun below hb => hall below (List.mem_cons_of_mem _ hb)
    exact runs_takeStep open_ (fun n deadline t _ _ _ => dispatched_loop hstep hc
      (fun u => runs_runSequence (n :: opened) body (depth + 1) u hbody))
  | .triggerFixtureEvent base event payload, depth, s, hall, open_ => by
    have hstep := hall _ (List.mem_singleton.2 rfl)
    exact runs_takeStep open_ (fun n deadline t ht effect turn =>
      dispatched_of_ends hstep ht effect turn (ends_dispatchEvent ht rfl event payload))

/-- The steps of a sequence are taken until there is a verdict. -/
theorem runs_runSequence (opened : List Nat) : ∀ (sequence : List Step) (depth : Nat) (s : Engine W),
    (∀ below ∈ preorder sequence, below ∈ steps) → Runs E steps opened (runSequence E sequence depth) s
  | [], depth, s, hall => Moves.none
  | step :: rest, depth, s, hall => by
    unfold runSequence Runs
    rw [Op.wp_bind, Op.wp_gets]
    split
    · exact Moves.none
    · rename_i verdict
      have open_ : s.terminal = none := Option.not_isSome_iff_eq_none.1 verdict
      have first := runs_runStep opened step depth s (fun below hb => hall below (List.mem_append_left _ hb)) open_
      rw [Op.wp_bind]
      refine Op.wp_mono first (fun _ t ht => ?_) (fun _ _ ht => ht)
      refine Op.wp_mono (runs_runSequence opened rest depth t (fun below hb => hall below (List.mem_append_right _ hb)))
        (fun _ u hu => ht.trans hu) (fun e u hu => ?_)
      unfold Raised at hu ⊢
      split at hu
      · rename_i boundary
        rw [if_pos boundary]
        exact ht.trans hu
      · rename_i inside
        rw [if_neg inside]
        exact ⟨hu.1, ht.trans hu.2⟩
end

end

end Motte.Scenario
