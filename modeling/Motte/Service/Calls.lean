import Motte.Service.ExternalJob

/-! What the methods of the service ask of the store.

Whatever they are answered, the methods make only lawful requests: a transition
carries an edge of the table, an update keeps the status, no request but the first
selection of cases touches the frozen members of a run, and a pass that brings case
rows names the revision it expects and requires that no attempt be open. The methods that move a run through its
states are quiet besides: they call no backend and leave attempts and case rows to
those requests. -/
namespace Motte.Service
open Foundation Storage Script

/-- The changes leave the selected cases and the manifest of a run alone. -/
def KeepsSelection (changes : Fields) : Prop :=
  changes.lookup "case_ids" = none ∧ changes.lookup "manifest" = none

/-- The requests that methods make. -/
def Lawful : Request → Prop
  | .run (.transition r) =>
    (∃ a b : RunState, r.expectedStatus = a.name ∧ r.status = b.name ∧ b ∈ a.transitions) ∧ KeepsSelection r.changes
  | .run (.update r) => r.expectedStatus = r.run.status ∨ r.expectedStatus = none
  | .append r => (∀ f ∈ r.finalStatus, ∃ final : RunState, f = final.name) ∧ KeepsSelection r.runChanges ∧
    (r.caseRows ≠ [] → r.requireNoOpenAttempts = true ∧ r.expectedRunRevision ≠ none)
  | .attempt (.quarantine r) => KeepsSelection r.changes
  | .attempt _ => True
  | _ => False

/-- The calls of every method. -/
def Called : Ask → Prop
  | .store r => Lawful r
  | _ => True

/-- The calls of a method that only moves a run through its states, and does not complete it. -/
def Quiet : Ask → Prop
  | .store (.attempt (.quarantine r)) => Lawful (.attempt (.quarantine r))
  | .store (.attempt _) => False
  | .store (.append r) => Lawful (.append r) ∧ r.finalStatus ≠ some RunState.completed.name
  | .store r => Lawful r
  | .upsert _ | .invoke _ | .classify _ | .jobEntry _ => False
  | _ => True

/-- The calls of a method that brings no run to an end by a pass and rewrites no run as a whole. -/
def Steady : Ask → Prop
  | .store (.run (.transition r)) => Lawful (.run (.transition r))
  | .store (.attempt (.quarantine r)) => Lawful (.attempt (.quarantine r))
  | .store (.append r) => Lawful (.append r) ∧ r.finalStatus = none
  | .store _ => False
  | .upsert _ | .invoke _ | .classify _ | .jobEntry _ => False
  | _ => True

theorem Steady.quiet {q : Ask} (h : Steady q) : Quiet q := by
  cases q with
  | store r => cases r with
    | run c => cases c with
      | transition r => exact h
      | _ => exact h.elim
    | attempt c => cases c <;> exact h
    | append r => exact ⟨h.1, fun hfinal => nomatch h.2.symm.trans hfinal⟩
    | _ => exact h.elim
  | _ => exact h

theorem Quiet.called {q : Ask} (h : Quiet q) : Called q := by
  cases q with
  | store r => cases r with
    | attempt c => cases c <;> first | exact h | exact h.elim
    | append r => exact h.1
    | _ => exact h
  | _ => trivial

end Motte.Service

namespace Motte.Foundation.Script
open Service

theorem Asks.quiet {α : Type} {x : Method α} (h : x.Asks Steady) : x.Asks Quiet := h.mono (fun _ => Steady.quiet)

theorem Asks.called {α : Type} {x : Method α} (h : x.Asks Quiet) : x.Asks Called := h.mono (fun _ => Quiet.called)

end Motte.Foundation.Script

namespace Motte.Service
open Foundation Storage Script

/-! ### Members that stay -/

theorem keepsSelection_empty : KeepsSelection ∅ := ⟨rfl, rfl⟩

theorem KeepsSelection.insert {changes : Fields} (h : KeepsSelection changes) (key : String) (value : Json)
    (hcases : "case_ids" ≠ key) (hmanifest : "manifest" ≠ key) : KeepsSelection (changes.insert key value) :=
  ⟨by rw [Finmap.lookup_insert_of_ne changes hcases]; exact h.1,
    by rw [Finmap.lookup_insert_of_ne changes hmanifest]; exact h.2⟩

theorem KeepsSelection.merge {a b : Fields} (ha : KeepsSelection a) (hb : KeepsSelection b) :
    KeepsSelection (a.merge b) := by
  have general : ∀ key, a.lookup key = none → b.lookup key = none → (a.merge b).lookup key = none := by
    intro key ha hb
    rw [Fields.merge, Finmap.lookup_union_right (Finmap.lookup_eq_none.1 hb), ha]
  exact ⟨general _ ha.1 hb.1, general _ ha.2 hb.2⟩

theorem keepsSelection_withError {fields : Fields} (h : KeepsSelection fields) (error : Json) :
    KeepsSelection (withError fields error) := by
  unfold withError
  split
  · exact h
  · exact h.insert _ _ (by decide) (by decide)

theorem keepsSelection_transitionPatch {changes : Fields} (h : KeepsSelection changes) (run : Run) (next : RunState)
    (now : Timestamp) : KeepsSelection (transitionPatch run next changes now) := by
  have hupdated : KeepsSelection (changes.insert "updated_at" (.str now)) :=
    h.insert _ _ (by decide) (by decide)
  unfold transitionPatch
  simp only
  split <;> split <;> simp only [hupdated, KeepsSelection.insert, ne_eq, String.reduceEq, not_false_eq_true]

/-! ### Small calls -/

section Small
variable {P : Ask → Prop} {α β : Type}

theorem asks_ensureThat {p : Prop} [Decidable p] {e : Exn} {f : Unit → Method β} (h : p → (f ()).Asks P) :
    (ensureThat p e >>= f).Asks P := asks_lift_bind (fun _ hp => h (ensure_ok_iff.1 hp))

theorem statusOf_ok {run : Run} {found : String} (h : statusOf run = .ok found) : run.status = some found := by
  unfold statusOf at h
  split at h
  · cases h
  · rename_i hs
    cases h
    exact hs

theorem asks_status {run : Run} {f : String → Method β} (h : ∀ found, run.status = some found → (f found).Asks P) :
    (status run >>= f).Asks P := asks_lift_bind (fun _ hs => h _ (statusOf_ok hs))

theorem asks_load (runId : String) (h : P (.getRun runId)) : (load runId).Asks P := by
  refine asks_bind (asks_call h) (fun run => ?_)
  cases run <;> trivial

theorem asks_change {r : Request} (h : P (.store r)) : (change r).Asks P := asks_bind (asks_call h) (fun _ => trivial)

end Small

theorem steady_load (runId : String) : (load runId).Asks Steady := asks_load runId trivial

theorem steady_caseRowsOf (runId : String) : (caseRowsOf runId).Asks Steady := asks_call trivial

theorem steady_attemptsOfRun (runId : String) : (attemptsOfRun runId).Asks Steady := asks_call trivial

theorem steady_openAttempts (runId : String) : (openAttempts runId).Asks Steady :=
  asks_bind (steady_attemptsOfRun runId) (fun _ => trivial)

theorem steady_now : now.Asks Steady := asks_call trivial

theorem steady_fresh : fresh.Asks Steady := asks_call trivial

theorem steady_view (runId : String) : (view runId).Asks Steady :=
  asks_bind (steady_load runId) (fun _ => asks_bind (steady_caseRowsOf runId) (fun _ => trivial))

theorem steady_emitRunEvent (runId type : String) (payload : Fields) : (emitRunEvent runId type payload).Asks Steady :=
  asks_handle (asks_bind (asks_call trivial) (fun _ => trivial)) (fun _ => trivial)

/-! ### Moving a run through its states -/

theorem steady_transition (runId : String) (next : RunState) {changes : Fields} (payload : Option Fields)
    (h : KeepsSelection changes) : (transition runId next changes payload).Asks Steady := by
  refine asks_bind (steady_load runId) (fun run => asks_status (fun previous _ => asks_ensureThat (fun hedge => ?_)))
  refine asks_bind steady_now (fun now => asks_bind (asks_change ?_) (fun _ => steady_view runId))
  obtain ⟨a, ha, hnext⟩ := mem_transitionsFrom.1 hedge
  exact ⟨⟨a, next, ha, rfl, hnext⟩, keepsSelection_transitionPatch h run next now⟩

theorem steady_scoreResults (runId : String) (rows : List CaseRow) : (scoreResults runId rows).Asks Steady := by
  refine asks_bind (steady_load runId) (fun run => asks_ite (fun _ => asks_call trivial) (fun _ => ?_))
  exact asks_ite (fun _ => asks_call trivial) (fun _ => trivial)

section Pass
variable {P : Ask → Prop}

theorem asks_aggregateError (run : Run) (scores : List Score) (args : PassArgs) (h : P (.aggregate run scores)) :
    (aggregateError run scores args).Asks P := by
  unfold aggregateError
  split
  · refine asks_handle (asks_bind (asks_call h) (fun _ => trivial)) (fun e => ?_)
    split <;> trivial
  · trivial

theorem asks_scorableCases (runId : String) (run : Run) (h : P (.caseRows runId)) :
    (scorableCases runId run).Asks P := by
  unfold scorableCases
  split
  · exact asks_bind (asks_call h) (fun _ => trivial)
  · trivial

/-- Calls that only ask. -/
def Reads : Ask → Prop
  | .store _ | .upsert _ | .emit _ | .invoke _ | .classify _ | .jobEntry _ | .interrupt _ => False
  | _ => True

/-- Besides what it reads, the append of a pass is one request. -/
theorem asks_appendScoringPass {runId : String} {scores : List Score} {args : PassArgs} (reads : ∀ q, Reads q → P q)
    (append : ∀ run found error passId fields now,
      P (.store (.append (passRequest runId run found scores args error passId fields now)))) :
    (appendScoringPass runId scores args).Asks P := by
  refine asks_bind (asks_load runId (reads _ trivial)) (fun run => asks_bind (asks_lift _) (fun _ => ?_))
  refine asks_bind (asks_scorableCases runId run (reads _ trivial)) (fun selected => ?_)
  refine asks_ensureThat (fun _ => asks_ensureThat (fun _ => asks_ensureThat (fun _ => ?_)))
  refine asks_bind (asks_call (reads _ trivial)) (fun fields => ?_)
  refine asks_bind (asks_aggregateError run scores args (reads _ trivial)) (fun e => ?_)
  refine asks_bind (asks_call (reads _ trivial)) (fun unique => asks_bind (asks_call (reads _ trivial)) (fun now => ?_))
  exact asks_status (fun found _ => asks_change (append run found e _ fields now))

end Pass

theorem Reads.steady {q : Ask} (h : Reads q) : Steady q := by
  cases q <;> trivial

theorem Reads.quiet {q : Ask} (h : Reads q) : Quiet q := h.steady.quiet

/-- What a caller of `appendScoringPass` has to see to. -/
structure PassArgs.Lawful (args : PassArgs) : Prop where
  changes : KeepsSelection args.finalChanges
  closed : args.caseRows ≠ [] → args.requireNoOpenAttempts = true

theorem lawful_passRequest {runId : String} {run : Run} {found : String} {scores : List Score} {args : PassArgs}
    {finalError : Json} {passId : String} {fields : Fields} {now : Timestamp} (h : args.Lawful) :
    Lawful (.append (passRequest runId run found scores args finalError passId fields now)) := by
  refine ⟨?_, ?_, fun hrows => ⟨h.closed hrows, nofun⟩⟩
  · intro f hf
    obtain ⟨final, _, rfl⟩ := Option.map_eq_some_iff.1 hf
    exact ⟨final, rfl⟩
  · have hupdated : KeepsSelection ((∅ : Fields).insert "updated_at" (.str now)) :=
      keepsSelection_empty.insert _ _ (by decide) (by decide)
    apply keepsSelection_withError
    refine KeepsSelection.merge ?_ h.changes
    split
    · exact hupdated.insert _ _ (by decide) (by decide)
    · exact hupdated

theorem finalStatus_passRequest_ne {args : PassArgs} (h : args.finalStatus ≠ some .completed) :
    args.finalStatus.map RunState.name ≠ some RunState.completed.name := by
  intro hmap
  obtain ⟨final, hfinal, hname⟩ := Option.map_eq_some_iff.1 hmap
  rw [RunState.name_injective hname] at hfinal
  exact h hfinal

theorem steady_appendScoringPass (runId : String) (scores : List Score) {args : PassArgs} (h : args.Lawful)
    (final : args.finalStatus = none) : (appendScoringPass runId scores args).Asks Steady := by
  refine asks_appendScoringPass (fun _ hq => hq.steady) (fun _ _ _ _ _ _ => ⟨lawful_passRequest h, ?_⟩)
  show args.finalStatus.map RunState.name = none
  rw [final]
  rfl

theorem quiet_appendScoringPass (runId : String) (scores : List Score) {args : PassArgs} (h : args.Lawful)
    (final : args.finalStatus ≠ some .completed) : (appendScoringPass runId scores args).Asks Quiet :=
  asks_appendScoringPass (fun _ hq => hq.quiet)
    (fun _ _ _ _ _ _ => ⟨lawful_passRequest h, finalStatus_passRequest_ne final⟩)

theorem quiet_finishUnattempted (runId : String) {final : RunState} (error : Json) {changes : Fields}
    (payload : Fields) (h : KeepsSelection changes) (hfinal : final ≠ .completed) :
    (finishUnattempted runId final error changes payload).Asks Quiet := by
  refine asks_bind (steady_load runId).quiet (fun run => asks_bind (steady_caseRowsOf runId).quiet (fun existing => ?_))
  refine asks_bind (steady_openAttempts runId).quiet (fun attempts => asks_bind (asks_call trivial) (fun _ => ?_))
  refine asks_bind ?_ (fun scored => ?_)
  · refine asks_bind (asks_result (steady_scoreResults runId _).quiet) (fun outcome => ?_)
    cases outcome <;> trivial
  · obtain ⟨scores, effective⟩ := scored
    have hsome : some final ≠ some .completed := fun h => hfinal (Option.some.inj h)
    refine asks_handle (quiet_appendScoringPass runId _ ⟨h, fun _ => rfl⟩ hsome) (fun e => ?_)
    split
    · trivial
    · exact quiet_appendScoringPass runId _ ⟨h, fun _ => rfl⟩ hsome

theorem quiet_fail (runId : String) (e : Exn) : (fail runId e).Asks Quiet := by
  refine asks_bind (steady_load runId).quiet (fun run => asks_status (fun found _ => ?_))
  split
  · exact (steady_view runId).quiet
  · split
    · exact asks_bind (quiet_finishUnattempted runId _ _ keepsSelection_empty (by decide)) (fun _ => (steady_view runId).quiet)
    · exact (steady_transition runId .failed _ (keepsSelection_empty.insert _ _ (by decide) (by decide))).quiet

theorem keepsSelection_quarantineRequest {runId : String} {run : Run} {found : String} {uncertain : List Attempt}
    {e : Exn} {now : Timestamp} : KeepsSelection (quarantineRequest runId run found uncertain e now).changes := by
  simp only [quarantineRequest]
  exact ((keepsSelection_empty.insert _ _ (by decide) (by decide)).insert _ _ (by decide) (by decide)).insert
    _ _ (by decide) (by decide)

theorem quiet_failOrQuarantine (runId : String) (e : Exn) : (failOrQuarantine runId e).Asks Quiet := by
  refine asks_bind (steady_attemptsOfRun runId).quiet (fun attempts => ?_)
  simp only
  split
  · exact quiet_fail runId e
  · refine asks_bind (steady_load runId).quiet (fun run => asks_bind steady_now.quiet (fun now => asks_status (fun found _ => ?_)))
    exact asks_bind (asks_change keepsSelection_quarantineRequest) (fun _ => (steady_view runId).quiet)

/-! ### Cancellation, rescoring, refusal -/

theorem quiet_requestCancellation {runId : String} {run : Run} {found : String} {cancellation reason : Json}
    {now : Timestamp} (h : run.status = some found) :
    (requestCancellation runId run found cancellation reason now).Asks Quiet := asks_change (.inl h.symm)

theorem quiet_finishCancelled (runId : String) (run : Run) (cancellation reason : Json) :
    (finishCancelled runId run cancellation reason).Asks Quiet := by
  have hchanges : KeepsSelection (if cancellation.truthy then (∅ : Fields).insert "cancellation" cancellation else ∅) := by
    split
    · exact keepsSelection_empty.insert _ _ (by decide) (by decide)
    · exact keepsSelection_empty
  unfold finishCancelled
  simp only
  split
  · refine asks_bind (asks_handle (quiet_finishUnattempted runId _ _ hchanges (by decide)) (fun e => ?_))
      (fun _ => (steady_view runId).quiet)
    split
    · refine asks_bind (steady_load runId).quiet (fun current => asks_status (fun found hfound => ?_))
      split
      · trivial
      · exact asks_bind steady_now.quiet (fun now => quiet_requestCancellation hfound)
    · trivial
  · exact asks_bind (steady_transition runId .cancelled _ hchanges).quiet (fun _ => (steady_view runId).quiet)

theorem quiet_cancel (runId : String) (reason : Json) (settle : Bool) : (cancel runId reason settle).Asks Quiet := by
  refine asks_bind (steady_load runId).quiet (fun run => asks_status (fun found hfound => ?_))
  split
  · exact (steady_view runId).quiet
  · refine asks_bind (steady_openAttempts runId).quiet (fun waiting => asks_bind (asks_call trivial) (fun interrupter => ?_))
    simp only
    split
    · exact asks_bind steady_now.quiet (fun now => asks_bind (quiet_requestCancellation hfound) (fun _ => (steady_view runId).quiet))
    · split
      · refine asks_bind steady_now.quiet (fun now => asks_bind (quiet_requestCancellation hfound) (fun _ => ?_))
        refine asks_bind (asks_handle (asks_call trivial) (fun e => (steady_emitRunEvent _ _ _).quiet)) (fun _ => ?_)
        refine asks_bind (steady_load runId).quiet (fun refreshed => asks_status (fun found _ => ?_))
        split
        · exact (steady_view runId).quiet
        · exact quiet_finishCancelled runId refreshed _ reason
      · exact quiet_finishCancelled runId run _ reason

theorem quiet_honorCancellation (runId : String) : (honorCancellation runId).Asks Quiet := by
  refine asks_bind (steady_load runId).quiet (fun run => asks_status (fun found _ => ?_))
  split
  · split
    · exact asks_bind (steady_view runId).quiet (fun _ => trivial)
    · trivial
  · exact asks_bind (quiet_cancel runId _ true) (fun _ => trivial)

theorem steady_rescore (runId : String) : (rescore runId).Asks Steady := by
  refine asks_bind (steady_load runId) (fun run => asks_ensureThat (fun _ => asks_bind (asks_call trivial) (fun _ => ?_)))
  refine asks_status (fun found _ => asks_ensureThat (fun _ => asks_bind (steady_caseRowsOf runId) (fun rows => ?_)))
  refine asks_bind (steady_scoreResults runId rows) (fun scores => ?_)
  refine asks_bind (steady_appendScoringPass runId scores ⟨keepsSelection_empty, fun h => absurd rfl h⟩ rfl) (fun _ => ?_)
  exact asks_bind (asks_call trivial) (fun _ => steady_view runId)

theorem quiet_markUnsupported (runId code : String) (message : Option String) :
    (markUnsupported runId code message).Asks Quiet := by
  refine asks_bind (steady_load runId).quiet (fun run => asks_status (fun found _ => ?_))
  split
  · exact (steady_view runId).quiet
  · simp only
    split
    · exact asks_bind (quiet_finishUnattempted runId _ _ keepsSelection_empty (by decide)) (fun _ => (steady_view runId).quiet)
    · exact asks_bind (steady_transition runId .unsupported _
        (keepsSelection_empty.insert _ _ (by decide) (by decide))).quiet
        (fun _ => (steady_view runId).quiet)

theorem quiet_markProfileStale (runId : String) (reason : Option String) :
    (markProfileStale runId reason).Asks Quiet := by
  refine asks_bind (steady_load runId).quiet (fun run => asks_status (fun found _ => ?_))
  split
  · exact (steady_view runId).quiet
  · refine asks_ensureThat (fun _ => ?_)
    simp only
    split
    · exact asks_bind (quiet_finishUnattempted runId _ _ keepsSelection_empty (by decide)) (fun _ => (steady_view runId).quiet)
    · exact (steady_transition runId .profileStale _ (keepsSelection_empty.insert _ _ (by decide) (by decide))).quiet

/-! ### Execution -/

section Execution
variable {α : Type}

theorem called_attemptCommand {c : AttemptCommand} (h : Called (.store (.attempt c))) :
    (attemptCommand c).Asks Called := by
  refine asks_bind (asks_call h) (fun reply => ?_)
  split <;> trivial

theorem called_beginCaseAttempt (run : Run) (caseId : String) : (beginCaseAttempt run caseId).Asks Called := by
  refine asks_bind (asks_call trivial) (fun attempts => asks_bind (asks_call trivial) (fun now => ?_))
  refine asks_bind (asks_call trivial) (fun unique => asks_status (fun found _ => ?_))
  refine asks_bind (called_attemptCommand trivial) (fun attempt => asks_bind (asks_call trivial) (fun dispatchedAt => ?_))
  refine asks_handle (called_attemptCommand trivial) (fun e => asks_ite (fun _ => ?_) (fun _ => trivial))
  refine asks_bind (asks_call trivial) (fun current => ?_)
  split
  · refine asks_ite (fun _ => asks_bind (asks_call trivial) (fun _ => ?_)) (fun _ => trivial)
    exact asks_bind (asks_change trivial) (fun _ => trivial)
  · trivial

theorem called_completeOpenAttempt (attempt : Attempt) (row : CaseRow) (failed emitEvent : Bool) :
    (completeOpenAttempt attempt row failed emitEvent).Asks Called :=
  asks_bind (asks_call trivial) (fun _ => asks_change trivial)

theorem called_settlePending (runId : String) (rows : List (String × Attempt × Json)) :
    (settlePending runId rows).Asks Called := by
  induction rows with
  | nil => trivial
  | cons row rest ih => exact asks_bind (called_completeOpenAttempt _ _ _ _) (fun _ => ih)

theorem called_honorCancellation (runId : String) : (honorCancellation runId).Asks Called :=
  (quiet_honorCancellation runId).called

theorem called_failOrQuarantine (runId : String) (e : Exn) : (failOrQuarantine runId e).Asks Called :=
  (quiet_failOrQuarantine runId e).called

theorem called_load (runId : String) : (load runId).Asks Called := asks_load runId trivial

theorem called_transition (runId : String) (next : RunState) : (transition runId next).Asks Called :=
  (steady_transition runId next _ keepsSelection_empty).quiet.called

theorem called_cancelCheckpoint (runId : String) (pending : Pending) :
    (cancelCheckpoint runId pending).Asks Called := by
  refine asks_ite (fun _ => asks_bind (called_honorCancellation runId) (fun _ => trivial)) (fun _ => ?_)
  refine asks_bind (called_load runId) (fun run => asks_ite (fun _ => ?_) (fun _ => ?_))
  · refine asks_bind (called_load runId) (fun _ => asks_bind (called_settlePending runId _) (fun _ => ?_))
    exact asks_bind (called_honorCancellation runId) (fun _ => trivial)
  · exact asks_bind (called_honorCancellation runId) (fun _ => trivial)

theorem called_failedResult (e : Exn) : (failedResult e).Asks Called :=
  asks_ite (fun _ => trivial) (fun _ => asks_bind (asks_call trivial) (fun _ => trivial))

theorem called_benchmarkCase (run : Run) (caseId : String) (attempt : Attempt) (pending : Pending) :
    (benchmarkCase run caseId attempt pending).Asks Called := by
  have hconclude : ∀ result, (benchmarkCase.conclude run caseId attempt pending result).Asks Called := by
    intro result
    refine asks_lift_bind (fun transient _ => asks_ite (fun _ => ?_) (fun _ => ?_))
    · exact asks_bind (asks_call trivial) (fun _ => trivial)
    · exact asks_bind (called_completeOpenAttempt _ _ _ _) (fun _ => trivial)
  refine asks_bind (asks_result (asks_call trivial)) (fun outcome => ?_)
  cases outcome with
  | ok result => exact hconclude result
  | error e =>
    refine asks_ite (fun _ => asks_bind (called_failOrQuarantine _ e) (fun _ => trivial)) (fun _ => ?_)
    exact asks_bind (called_failedResult e) hconclude

theorem called_benchmarkLoop (run : Run) (done ids : List String) (stop : Bool) (pending : Pending) :
    (benchmarkLoop run done ids stop pending).Asks Called := by
  induction ids generalizing stop pending with
  | nil => trivial
  | cons caseId rest ih =>
    refine asks_ite (fun _ => ih stop pending) (fun _ => ?_)
    refine asks_bind (called_cancelCheckpoint run.id pending) (fun checkpoint => ?_)
    obtain ⟨pending, cancelled⟩ := checkpoint
    cases cancelled with
    | some v => trivial
    | none =>
      refine asks_ite (fun _ => asks_bind (asks_call trivial) (fun _ => ih stop pending)) (fun _ => ?_)
      refine asks_bind (called_load run.id) (fun current => ?_)
      refine asks_bind (asks_result (called_beginCaseAttempt current caseId)) (fun begun => ?_)
      cases begun with
      | error e =>
        refine asks_ite (fun _ => asks_bind (called_cancelCheckpoint run.id pending) (fun checkpoint => ?_))
          (fun _ => trivial)
        obtain ⟨_, cancelled⟩ := checkpoint
        cases cancelled <;> trivial
      | ok attempt =>
        refine asks_bind (called_benchmarkCase run caseId attempt pending) (fun progress => ?_)
        cases progress with
        | ended v => trivial
        | goesOn next => exact ih next.1 next.2

theorem called_sweepLoop (run : Run) (ids : List String) (pending : Pending) :
    (sweepLoop run ids pending).Asks Called := by
  induction ids generalizing pending with
  | nil => trivial
  | cons caseId rest ih =>
    unfold sweepLoop
    split
    · exact ih pending
    · refine asks_bind (called_cancelCheckpoint run.id pending) (fun checkpoint => ?_)
      obtain ⟨pending, cancelled⟩ := checkpoint
      cases cancelled with
      | some v => trivial
      | none =>
        simp only
        split
        · trivial
        · refine asks_bind (asks_bind (asks_result (asks_call trivial)) (fun outcome => ?_)) (fun result => ?_)
          · cases outcome with
            | ok result => trivial
            | error e => exact called_failedResult e
          · refine asks_bind (asks_ite (fun _ => trivial) (fun _ => asks_ite (fun _ => trivial) (fun _ => trivial)))
              (fun result => ?_)
            exact asks_bind (called_completeOpenAttempt _ _ _ _) (fun _ => ih _)

theorem asks_finishScored {P : Ask → Prop} {runId : String} {rows : List CaseRow} {args : PassArgs}
    (quiet : ∀ q, Quiet q → P q)
    (append : ∀ scores run found error passId fields now,
      P (.store (.append (passRequest runId run found scores args error passId fields now)))) :
    (finishScored runId rows args).Asks P := by
  refine asks_bind (asks_result ?_) (fun outcome => ?_)
  · refine asks_bind ((steady_scoreResults runId rows).quiet.mono quiet) (fun scores => ?_)
    refine asks_bind ((quiet_honorCancellation runId).mono quiet) (fun cancelled => ?_)
    cases cancelled with
    | some v => trivial
    | none => exact asks_bind (asks_appendScoringPass (fun q hq => quiet q hq.quiet) (append scores)) (fun _ => trivial)
  · cases outcome with
    | error e => exact (quiet_failOrQuarantine runId e).mono quiet
    | ok cancelled => cases cancelled with
      | some v => trivial
      | none => exact (steady_view runId).quiet.mono quiet

theorem called_finishScored (runId : String) (rows : List CaseRow) {args : PassArgs} (h : args.Lawful) :
    (finishScored runId rows args).Asks Called :=
  asks_finishScored (fun _ => Quiet.called) (fun _ _ _ _ _ _ _ => lawful_passRequest h)

theorem called_collectAndScore (runId : String) {next : Method View} (h : next.Asks Called) :
    (collectAndScore runId next).Asks Called := by
  refine asks_bind (called_transition runId .collecting) (fun _ => ?_)
  refine asks_bind (called_honorCancellation runId) (fun cancelled => ?_)
  cases cancelled with
  | some v => trivial
  | none =>
    refine asks_bind (called_transition runId .scoring) (fun _ => ?_)
    refine asks_bind (called_honorCancellation runId) (fun cancelled => ?_)
    cases cancelled with
    | some v => trivial
    | none => exact h

theorem steady_move (runId : String) (next : RunState) : (move runId next).Asks Steady :=
  asks_bind (steady_transition runId next _ keepsSelection_empty) (fun _ => trivial)

theorem called_move (runId : String) (next : RunState) : (move runId next).Asks Called :=
  (steady_move runId next).quiet.called

theorem steady_startRunning (runId found : String) : (startRunning runId found).Asks Steady := by
  refine asks_bind (asks_when (steady_move runId .preparing)) (fun _ => ?_)
  refine asks_bind (steady_load runId) (fun current => asks_status (fun found _ => ?_))
  exact asks_when (steady_move runId .running)

theorem called_executeBenchmark (run : Run) : (executeBenchmark run).Asks Called := by
  refine asks_status (fun found _ => asks_bind ((steady_startRunning run.id found).quiet.called) (fun _ => ?_))
  refine asks_bind (asks_call trivial) (fun rows => ?_)
  refine asks_bind (called_benchmarkLoop run _ _ _ _) (fun progress => ?_)
  cases progress with
  | ended v => trivial
  | goesOn pending =>
    refine asks_bind (called_cancelCheckpoint run.id pending) (fun checkpoint => ?_)
    obtain ⟨pending, cancelled⟩ := checkpoint
    cases cancelled with
    | some v => trivial
    | none =>
      refine asks_bind (asks_bind (called_load run.id) (fun _ => called_sweepLoop run _ pending)) (fun cancelled => ?_)
      cases cancelled with
      | some v => trivial
      | none =>
        refine called_collectAndScore run.id (asks_bind (asks_call trivial) (fun rows => ?_))
        exact called_finishScored run.id rows ⟨keepsSelection_empty, fun h => absurd rfl h⟩

theorem called_caseLoop (runId : String) (done ids : List String) : (caseLoop runId done ids).Asks Called := by
  induction ids with
  | nil => trivial
  | cons caseId rest ih =>
    refine asks_ite (fun _ => ih) (fun _ => asks_bind (called_honorCancellation runId) (fun cancelled => ?_))
    cases cancelled with
    | some v => trivial
    | none =>
      refine asks_bind (called_load runId) (fun current => ?_)
      refine asks_bind (asks_result (called_beginCaseAttempt current caseId)) (fun begun => ?_)
      cases begun with
      | error e =>
        refine asks_ite (fun _ => asks_bind (called_honorCancellation runId) (fun cancelled => ?_)) (fun _ => trivial)
        cases cancelled <;> trivial
      | ok attempt =>
        refine asks_bind (asks_result (asks_call trivial)) (fun outcome => ?_)
        cases outcome with
        | error e =>
          refine asks_bind (called_completeOpenAttempt _ _ _ _) (fun _ => ?_)
          refine asks_bind (called_honorCancellation runId) (fun cancelled => ?_)
          cases cancelled <;> trivial
        | ok result =>
          refine asks_bind (asks_call trivial) (fun expected => ?_)
          exact asks_bind (called_completeOpenAttempt _ _ _ _) (fun _ => ih)

theorem called_executeCases (run : Run) (ids : List String) : (executeCases run ids).Asks Called := by
  refine asks_bind ?_ (fun run => asks_status (fun found _ => asks_bind ?_ (fun _ => ?_)))
  · refine asks_ite (fun _ => asks_bind (asks_call trivial) (fun now => ?_)) (fun _ => trivial)
    exact asks_bind (asks_change (.inr rfl)) (fun _ => trivial)
  · refine asks_ite (fun _ => called_move _ .preparing) (fun _ => asks_when ?_)
    exact asks_bind (asks_call trivial) (fun events => asks_when (asks_call trivial))
  · refine asks_bind (called_load _) (fun current => asks_status (fun found _ => ?_))
    refine asks_bind (asks_when (called_move _ .running)) (fun _ => asks_bind (asks_call trivial) (fun rows => ?_))
    refine asks_bind (asks_result (called_caseLoop _ _ ids)) (fun outcome => ?_)
    cases outcome with
    | error e => exact called_failOrQuarantine _ e
    | ok progress => cases progress with
      | ended v => trivial
      | goesOn next =>
        refine asks_bind (called_honorCancellation _) (fun cancelled => ?_)
        cases cancelled with
        | some v => trivial
        | none =>
          refine asks_bind (asks_call trivial) (fun results => ?_)
          exact called_collectAndScore _ (called_finishScored _ results ⟨keepsSelection_empty, fun h => absurd rfl h⟩)

theorem called_execute (runId : String) (requested : Option (List String)) :
    (execute runId requested).Asks Called := by
  refine asks_bind (called_load runId) (fun run => asks_status (fun found _ => ?_))
  refine asks_ite (fun _ => (steady_view runId).quiet.called) (fun _ => ?_)
  refine asks_ensureThat (fun _ => asks_ensureThat (fun _ => asks_ite (fun _ => ?_) (fun _ => ?_)))
  · exact asks_bind (asks_call trivial) (fun _ => asks_ensureThat (fun _ => called_executeBenchmark run))
  · exact asks_ensureThat (fun _ => called_executeCases run _)

end Execution

/-! ### External jobs -/

theorem called_emitRunEvent (runId type : String) (payload : Fields) : (emitRunEvent runId type payload).Asks Called :=
  (steady_emitRunEvent runId type payload).quiet.called

theorem steady_finishAfterTerminalImport (runId : String) (imported : TrialImport) (invalid : List Json)
    (unmapped : List Unmapped) : (finishAfterTerminalImport runId imported invalid unmapped).Asks Steady := by
  refine asks_bind (steady_load runId) (fun run => asks_bind ?_ (fun scored => ?_))
  · refine asks_bind (asks_result (steady_scoreResults runId [])) (fun outcome => ?_)
    cases outcome <;> trivial
  · obtain ⟨scores, error⟩ := scored
    refine asks_status (fun found _ => asks_bind (steady_emitRunEvent _ _ _) (fun _ => ?_))
    refine asks_ite (fun _ => steady_view runId) (fun _ => ?_)
    refine asks_bind (asks_handle ?_ (fun e => steady_emitRunEvent _ _ _)) (fun _ => steady_view runId)
    exact steady_appendScoringPass runId scores ⟨keepsSelection_empty, fun h => absurd rfl h⟩ rfl

theorem steady_reachScoring (runId : String) : (reachScoring runId).Asks Steady := by
  refine asks_bind (steady_load runId) (fun run => asks_status (fun found _ => asks_ite (fun _ => trivial) (fun _ => ?_)))
  refine asks_bind (asks_result ?_) (fun outcome => ?_)
  · exact asks_bind (steady_transition runId .collecting _ keepsSelection_empty) (fun _ =>
      asks_bind (steady_transition runId .scoring _ keepsSelection_empty) (fun _ => trivial))
  · cases outcome with
    | ok u => trivial
    | error e =>
      refine asks_ite (fun _ => asks_bind (steady_load runId) (fun current => ?_)) (fun _ => trivial)
      exact asks_status (fun found _ => asks_ite (fun _ => trivial) (fun _ => trivial))

theorem called_upsertRows (rows : Table String CaseRow) (ids : List String) : (upsertRows rows ids).Asks Called := by
  induction ids with
  | nil => trivial
  | cons caseId rest ih =>
    unfold upsertRows
    split
    · trivial
    · exact asks_bind (asks_call trivial) (fun _ => ih)

theorem called_finishJob (w : Writing) (runId : String) (run : Run) (outcome : Json) (records : JobRecords)
    (imported : TrialImport) : (finishJob w runId run outcome records imported).Asks Called := by
  refine asks_bind (called_honorCancellation runId) (fun cancelled => ?_)
  cases cancelled with
  | some v => trivial
  | none =>
    refine asks_bind (asks_call trivial) (fun rows => asks_ensureThat (fun _ => asks_bind (asks_call trivial) (fun _ => ?_)))
    refine asks_bind (asks_when (called_emitRunEvent _ _ _)) (fun _ => ?_)
    exact called_finishScored runId rows ⟨keepsSelection_empty, fun h => absurd rfl h⟩

theorem called_settleJob (w : Writing) (runId : String) (run : Run) (outcome : Json) :
    (settleJob w runId run outcome).Asks Called := by
  refine asks_bind ((steady_reachScoring runId).quiet.called) (fun alreadyTerminal => asks_lift_bind (fun records _ => ?_))
  refine asks_bind (asks_call trivial) (fun imported => asks_bind (asks_call trivial) (fun _ => ?_))
  refine asks_bind (asks_when (called_upsertRows _ _)) (fun _ => ?_)
  refine asks_bind (asks_when (called_emitRunEvent _ _ _)) (fun _ => ?_)
  exact asks_ite (fun _ => (steady_finishAfterTerminalImport _ _ _ _).quiet.called)
    (fun _ => called_finishJob _ _ _ _ _ _)

theorem called_executeExternalJob (w : Writing) (runId : String) (run : Run) :
    (executeExternalJob w runId run).Asks Called := by
  refine asks_ensureThat (fun _ => asks_bind (asks_call trivial) (fun _ => asks_status (fun found _ => ?_)))
  refine asks_bind ((steady_startRunning runId found).quiet.called) (fun _ => ?_)
  refine asks_bind (asks_result (asks_call trivial)) (fun entry => ?_)
  cases entry with
  | error e => exact called_failOrQuarantine runId e
  | ok outcome =>
    exact asks_ite (fun _ => called_settleJob w runId run outcome) (fun _ => (quiet_fail runId _).called)

end Motte.Service
