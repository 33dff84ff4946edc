import Motte.Service.BenchmarkCases

/-! The loops of a benchmark and its executions one after another.

The main loop is in one of three situations: nothing has stopped the run, the mark
of a stop is stored and no case waits, or the run was stopped before its mark could
be stored and the loop meets the attempt that is still open. In each the sweep and
the rest call the backend only before a stop. -/
namespace Motte.Service
open Foundation Storage Script

section Stop
variable {σ : Type} {P : Platform σ} {L : P.RunLaws} {runId : String} {cases : List String}

section Loops
variable {past : List (Made σ)} {s : σ} {J : σ → Prop} {A : Prop} {pre : List String} {pending : Pending}
  {caseId : String} {attempt : Attempt} {run : Run}

/-- One case of the main loop. -/
theorem heeding_benchmarkCase (C : P.CaseLaws) (hrun : run.id = runId)
    (halts : ∀ t, Held P L runId pre pending caseId attempt (Unsettled P runId · caseId) t → Halted P runId cases t)
    (hs : Held P L runId pre pending caseId attempt (Unsettled P runId · caseId) s)
    (others : ∀ entry ∈ pending.rows, entry.1 ≠ caseId) (hsecond : allowsSecondChance run = false → pending = ∅)
    (unstopped : Unstopped past) :
    Heeding P L runId cases (benchmarkCase run caseId attempt pending) past s (fun r past t => Hasty P runId past ∨
      ∀ stop pending', r = .ok (.goesOn (stop, pending')) →
        GoesOn P L runId run (pre ++ [caseId]) stop pending' past t) := by
  have hlasting : Lasting P L runId (Held P L runId pre pending caseId attempt (Unsettled P runId · caseId)) :=
    lasting_held lasting_unsettled
  -- whoever waits has an open attempt, and it is not the one of this case
  have alone : ∀ t, Held P L runId pre pending caseId attempt (Unsettled P runId · caseId) t →
      Alone P runId t → pending = ∅ := by
    intro t ht halone
    refine Table.ext_rows (List.eq_nil_iff_forall_not_mem.2 (fun entry hentry => ?_))
    exact others entry hentry (halone.waiting ht.2.1 ht.1.waiting entry hentry)
  refine Safe.bind (heeding_invoke hlasting hs unstopped halts alone caseId).result (fun outcome past t h => ?_)
    (fun _ _ _ _ => .inr nofun)
  obtain ⟨_, houtcome, h⟩ := h
  cases houtcome
  rcases h with hasty | ⟨ht, h⟩
  · exact (heeding_hasty _ hasty).mono (fun _ _ _ h => .inl h)
  · cases outcome with
    | ok result => exact (heeding_conclude C hrun halts ht others hsecond h).mono (fun _ _ _ h => .inr h)
    | error e =>
      refine safe_ite (fun _ => ?_) (fun hquarantine => ?_)
      · have hcalm : (failOrQuarantine run.id e).Asks Calm :=
          (quiet_failOrQuarantine run.id e).mono (fun _ => Quiet.calm)
        refine Safe.bind (heeding_calm C hcalm hlasting ht (h.imp (·.1) (·.1)) (fun _ => halts)) (fun _ _ _ _ => ?_)
          (fun _ _ _ _ => .inr nofun)
        exact .inr nofun
      · refine Safe.bind (heeding_failedResult hlasting ht h halts alone) (fun result past t h => ?_)
          (fun _ _ _ _ => .inr nofun)
        rcases h with hasty | ⟨ht, h⟩
        · exact (heeding_hasty _ hasty).mono (fun _ _ _ h => .inl h)
        · have hknown := (h result rfl).imp_right (fun h => (⟨h.1, h.2.resolve_left hquarantine⟩ : _ ∧ _))
          exact (heeding_conclude C hrun halts ht others hsecond hknown).mono (fun _ _ _ h => .inr h)

/-! ### The main loop -/

/-- Cases with a row are skipped. -/
theorem benchmarkLoop_skip {done before : List String} (h : before ⊆ done) (ids : List String) (stop : Bool)
    (pending : Pending) : benchmarkLoop run done (before ++ ids) stop pending = benchmarkLoop run done ids stop pending := by
  induction before with
  | nil => rfl
  | cons first rest ih =>
    rw [List.cons_append, benchmarkLoop, if_pos (h List.mem_cons_self)]
    exact ih (fun _ hid => h (List.mem_cons_of_mem _ hid))

theorem lasting_stopRow : Lasting P L runId (fun s => Tidy P L s ∧ StopRow P runId s) :=
  fun _ _ h hst => ⟨hst.tidy h.1, h.2.kept hst.rows⟩

theorem lasting_blocked : Lasting P L runId (fun s => Tidy P L s ∧ Blocked P runId cases s) :=
  fun _ _ h hst => ⟨hst.tidy h.1, h.2.kept hst⟩

/-- Once the mark is stored the remaining cases are not attempted. -/
theorem heeding_benchmarkLoop_stopped (C : P.CaseLaws) (hrun : run.id = runId) (done ids : List String)
    (hs : Tidy P L s ∧ StopRow P runId s) :
    Heeding P L runId cases (benchmarkLoop run done ids true ∅) past s (fun r _ t => ∀ pending,
      r = .ok (.goesOn pending) → pending = ∅ ∧ Tidy P L t ∧ StopRow P runId t) := by
  induction ids generalizing past s with
  | nil => exact fun _ hr => by cases hr; exact ⟨rfl, hs⟩
  | cons caseId rest ih =>
    refine safe_ite (fun _ => ih hs) (fun _ => ?_)
    rw [hrun]
    refine Safe.bind (heeding_cancelCheckpoint_empty (A := True) C lasting_stopRow hs (.inr trivial)
      (fun _ t ht => .inl ht.2)) (fun checkpoint past s h => ?_) (fun _ _ _ _ => nofun)
    obtain ⟨pending, cancelled⟩ := checkpoint
    obtain ⟨⟨hs, -⟩, hpending⟩ := h
    cases hpending pending cancelled rfl
    cases cancelled with
    | some v => exact nofun
    | none =>
      have hupsert : Heeding P L runId cases (call (.upsert (notAttempted runId caseId))) past s (fun _ _ t =>
          Tidy P L t ∧ StopRow P runId t) := by
        have hplain : Plain (.upsert (notAttempted runId caseId)) := trivial
        have called : Called (.upsert (notAttempted runId caseId)) := trivial
        refine safe_call (fun t hst o => ?_)
        have ht := lasting_stopRow _ _ hs hst
        have htidy := answer_tidy C.toEndLaws called o ht.1
        have hstop := ht.2.kept (answer_rows C.toRowLaws o (.upsert (notAttempted runId caseId)) t)
        have hheeds : Heeds P runId cases past _ ∧ _ :=
          heeds_plain (A := True) (s := t) hplain o (.inr trivial) (fun _ => .inl hstop)
        exact ⟨hheeds.1, htidy, hstop⟩
      exact Safe.bind hupsert (fun _ past t h => ih h) (fun _ _ _ _ => nofun)

/-- A run that was stopped without a mark: the loop meets the case that was begun. -/
theorem heeding_benchmarkLoop_blocked (C : P.CaseLaws) (hrun : run.id = runId) (done rest : List String)
    (hcase : caseId ∉ done) (hs : (Tidy P L s ∧ Blocked P runId cases s) ∧ OpenAt P runId s caseId) :
    Heeding P L runId cases (benchmarkLoop run done (caseId :: rest) false ∅) past s (fun r _ _ => ∀ pending,
      r ≠ .ok (.goesOn pending)) := by
  have lasting : Lasting P L runId (fun s => (Tidy P L s ∧ Blocked P runId cases s) ∧ OpenAt P runId s caseId) :=
    fun s t h hst => ⟨lasting_blocked s t h.1 hst, h.2.kept hst⟩
  have halts : True → ∀ t, (Tidy P L t ∧ Blocked P runId cases t) ∧ OpenAt P runId t caseId →
      Halted P runId cases t := fun _ t ht => .inr ht.1.2
  refine safe_ite (fun h => absurd h hcase) (fun _ => ?_)
  rw [hrun]
  refine Safe.bind (heeding_cancelCheckpoint_empty C lasting hs (.inr trivial) halts) (fun checkpoint past s h => ?_)
    (fun _ _ _ _ => nofun)
  obtain ⟨pending, cancelled⟩ := checkpoint
  obtain ⟨⟨hs, hpast⟩, hpending⟩ := h
  cases hpending pending cancelled rfl
  cases cancelled with
  | some v => exact nofun
  | none =>
    refine safe_ite nofun (fun _ => ?_)
    refine Safe.bind (heeding_load lasting (fun _ h => h.1.1) hs hpast halts) (fun current past s h => ?_)
      (fun _ _ _ _ => nofun)
    refine Safe.bind (heeding_beginCaseAttempt_open C (h.2 current rfl) lasting h.1.1 (fun _ h => h.2) h.1.2 halts).result
      (fun begun past s h => ?_) (fun _ _ _ _ => nofun)
    obtain ⟨_, hbegun, ⟨hs, hpast⟩, hrefused⟩ := h
    cases hbegun
    cases begun with
    | ok attempt => exact absurd rfl (hrefused attempt)
    | error e =>
      refine safe_ite (fun _ => ?_) (fun _ => nofun)
      refine Safe.bind (heeding_cancelCheckpoint_empty C lasting hs hpast halts) (fun checkpoint _ _ _ => ?_)
        (fun _ _ _ _ => nofun)
      obtain ⟨_, cancelled⟩ := checkpoint
      cases cancelled <;> exact nofun

theorem plain_cancelCheckpoint (runId : String) (pending : Pending) : (cancelCheckpoint runId pending).Asks Plain := by
  have hhonor : (honorCancellation runId).Asks Plain := (calm_honorCancellation runId).mono (fun _ => Calm.plain)
  have hload : (load runId).Asks Plain := asks_load runId trivial
  have hsettle : ∀ rows, (settlePending runId rows).Asks Plain := by
    intro rows
    induction rows with
    | nil => trivial
    | cons row rest ih =>
      exact asks_bind (asks_bind (asks_call trivial) (fun _ => asks_change trivial)) (fun _ => ih)
  refine asks_ite (fun _ => asks_bind hhonor (fun _ => trivial)) (fun _ => ?_)
  refine asks_bind hload (fun run => asks_ite (fun _ => ?_) (fun _ => asks_bind hhonor (fun _ => trivial)))
  exact asks_bind hload (fun _ => asks_bind (hsettle _) (fun _ => asks_bind hhonor (fun _ => trivial)))

/-- How the main loop ends: nothing has stopped the run and every case was seen, or the mark
is stored and no case waits. -/
def LoopEnd (P : Platform σ) (L : P.RunLaws) (runId : String) (cases : List String) (pending : Pending)
    (past : List (Made σ)) (s : σ) : Prop :=
  (Unstopped past ∧ Progressing P L runId cases pending s) ∨ (pending = ∅ ∧ Tidy P L s ∧ StopRow P runId s)

/-- The main loop before any stop; `pre` are the cases with a row and those it has been through. -/
theorem heeding_benchmarkLoop (C : P.CaseLaws) (hrun : run.id = runId) {done : List String} (ids before : List String)
    (hcases : cases = before ++ ids) (hbefore : before ⊆ pre) (hdone : done ⊆ pre)
    (hs : Progressing P L runId pre pending s) (hsecond : allowsSecondChance run = false → pending = ∅)
    (unstopped : Unstopped past) :
    Heeding P L runId cases (benchmarkLoop run done ids false pending) past s (fun r past t => Hasty P runId past ∨
      ∀ pending', r = .ok (.goesOn pending') → LoopEnd P L runId cases pending' past t) := by
  induction ids generalizing before pre pending past s with
  | nil =>
    refine .inr (fun _ hr => ?_)
    cases hr
    rw [List.append_nil] at hcases
    exact .inl ⟨unstopped, hs.subset (hcases ▸ hbefore)⟩
  | cons caseId rest ih =>
    have hnext : cases = (before ++ [caseId]) ++ rest := by
      rw [hcases, List.append_assoc, List.singleton_append]
    refine safe_ite (fun hskip => ?_) (fun _ => ?_)
    · have hbefore' : before ++ [caseId] ⊆ pre :=
        List.append_subset.2 ⟨hbefore, List.cons_subset.2 ⟨hdone hskip, List.nil_subset _⟩⟩
      exact ih (before ++ [caseId]) hnext hbefore' hdone hs hsecond unstopped
    · have hpre : pre ⊆ pre ++ [caseId] := List.subset_append_left _ _
      have hbefore' : before ++ [caseId] ⊆ pre ++ [caseId] :=
        List.append_subset.2 ⟨fun _ hid => hpre (hbefore hid), List.subset_append_right _ _⟩
      rw [hrun]
      refine Safe.bind (heeding_cancelCheckpoint C hs unstopped) (fun checkpoint past s h => ?_)
        (fun _ _ _ _ => .inr nofun)
      obtain ⟨pending', cancelled⟩ := checkpoint
      obtain ⟨unstopped, hcheckpoint⟩ := h
      obtain ⟨hpending, hs⟩ := hcheckpoint pending' cancelled rfl
      have hsecond : allowsSecondChance run = false → pending' = ∅ := by
        intro hno
        rcases hpending with h | h
        · rw [h, hsecond hno]
        · exact h
      cases cancelled with
      | some v => exact .inr nofun
      | none =>
        refine safe_ite nofun (fun _ => ?_)
        refine Safe.bind (heeding_load (A := False) (lasting_progressing pre pending') (fun _ h => h.tidy) hs
          (.inl unstopped) False.elim) (fun current past s h => ?_) (fun _ _ _ _ => .inr nofun)
        refine Safe.bind (heeding_beginCaseAttempt C (h.2 current rfl) h.1.1 (h.1.2.resolve_right id)).result
          (fun begun past s h => ?_) (fun _ _ _ _ => .inr nofun)
        obtain ⟨_, hbegun, unstopped, hheld⟩ := h
        cases hbegun
        cases begun with
        | error e =>
          refine safe_ite (fun _ => ?_) (fun _ => .inr nofun)
          refine Safe.bind (heeding_plain (plain_cancelCheckpoint runId pending') unstopped) (fun checkpoint _ _ _ => ?_)
            (fun _ _ _ _ => .inr nofun)
          obtain ⟨_, cancelled⟩ := checkpoint
          cases cancelled <;> exact .inr nofun
        | ok attempt =>
          obtain ⟨hs, others⟩ := hheld attempt rfl
          have halts : ∀ t, Held P L runId pre pending' caseId attempt (Unsettled P runId · caseId) t →
              Halted P runId cases t :=
            fun t ht => .inr (blocked_of_begun hcases (fun id hid => ht.1.seen id (hbefore hid)) ht.2.2)
          refine Safe.bind (heeding_benchmarkCase C hrun halts hs others hsecond unstopped) (fun progress past s h => ?_)
            (fun _ _ _ _ => .inr nofun)
          rcases h with hasty | h
          · exact (heeding_hasty _ hasty).mono (fun _ _ _ h => .inl h)
          · cases progress with
            | ended v => exact .inr nofun
            | goesOn next =>
              obtain ⟨stop, pending''⟩ := next
              rcases h stop pending'' rfl with ⟨rfl, unstopped, hs, hsecond⟩ | ⟨rfl, rfl, hstop, htidy⟩
              · exact ih (before ++ [caseId]) hnext hbefore' (fun _ hid => hpre (hdone hid)) hs hsecond unstopped
              · refine (heeding_benchmarkLoop_stopped C hrun done rest ⟨htidy, hstop⟩).mono (fun _ _ _ h => .inr ?_)
                exact fun pending hr => .inr (h pending hr)

/-! ### The sweep -/

/-- Once every case has been seen the run is halted, whatever happens. -/
theorem halted_of_seen {t : σ} (h : Progressing P L runId cases pending t) : Halted P runId cases t :=
  .inr (first_unsettled h.seen)

/-- If one case alone was begun, no other waits. -/
theorem Alone.erase {t : σ} (h : Alone P runId t) (hs : Progressing P L runId cases pending t)
    (hholds : Holds P runId t caseId attempt) : pending.erase caseId = ∅ := by
  refine Table.ext_rows (List.eq_nil_iff_forall_not_mem.2 (fun entry hentry => ?_))
  obtain ⟨hmem, hne⟩ := Table.mem_erase.1 hentry
  exact hne (h.waiting hholds hs.waiting entry hmem)

/-- The second call of a case that waits. -/
theorem heeding_secondResult (hs : Progressing P L runId cases pending s) (unstopped : Unstopped past)
    (alone : ∀ t, Progressing P L runId cases pending t → Alone P runId t → A) :
    Heeding P L runId cases (sweepLoop.secondResult caseId) past s (fun r past t => Hasty P runId past ∨
      (Progressing P L runId cases pending t ∧ ∀ result, r = .ok result → Unstopped past ∨ A)) := by
  have lasting : Lasting P L runId (Progressing P L runId cases pending) := lasting_progressing cases pending
  have halts : ∀ t, Progressing P L runId cases pending t → Halted P runId cases t := fun _ => halted_of_seen
  refine Safe.bind (heeding_invoke lasting hs unstopped halts alone caseId).result (fun outcome past t h => ?_)
    (fun _ _ _ h => ?_)
  · obtain ⟨_, houtcome, h⟩ := h
    cases houtcome
    rcases h with hasty | ⟨ht, h⟩
    · exact (heeding_hasty _ hasty).mono (fun _ _ _ h => .inl h)
    · cases outcome with
      | ok result => exact .inr ⟨ht, fun _ _ => h.imp (·.1) (·.1)⟩
      | error e =>
        refine (heeding_failedResult lasting ht h halts alone).mono (fun _ _ _ h => h.imp_right (fun h => ⟨h.1, ?_⟩))
        exact fun result hr => (h.2 result hr).imp (·.1) (·.1)
  · obtain ⟨_, hr, -⟩ := h
    cases hr

/-- The first error is recorded without a call. -/
theorem safe_recorded {result first : Json} (hs : Progressing P L runId cases pending s) (h : Unstopped past ∨ A) :
    Heeding P L runId cases (if (errorOf result).truthy then pure result
      else if result.isObj then pure (result.put "first_attempt_error" (errorOf first))
      else Script.raise (.type "object is not a mapping")) past s
      (fun _ past t => Progressing P L runId cases pending t ∧ (Unstopped past ∨ A)) :=
  safe_ite (fun _ => ⟨hs, h⟩) (fun _ => safe_ite (fun _ => ⟨hs, h⟩) (fun _ => ⟨hs, h⟩))

/-- Each waiting case is called once more, as long as nothing stops the run. -/
theorem heeding_sweepLoop (C : P.CaseLaws) (hrun : run.id = runId) (ids : List String)
    (hs : Progressing P L runId cases pending s) (h : Unstopped past ∨ pending = ∅) :
    Heeding P L runId cases (sweepLoop run ids pending) past s (fun r past t => Hasty P runId past ∨
      (r = .ok none → ∃ pending', Progressing P L runId cases pending' t)) := by
  induction ids generalizing pending past s with
  | nil => exact .inr (fun _ => ⟨pending, hs⟩)
  | cons caseId rest ih =>
    unfold sweepLoop
    split
    · exact ih hs h
    · rename_i waits hwaits
      have unstopped : Unstopped past := by
        refine h.resolve_right (fun hnone => ?_)
        rw [hnone] at hwaits
        cases hwaits
      rw [hrun]
      refine Safe.bind (heeding_cancelCheckpoint C hs unstopped) (fun checkpoint past s h => ?_)
        (fun _ _ _ _ => .inr nofun)
      obtain ⟨pending', cancelled⟩ := checkpoint
      obtain ⟨unstopped, hcheckpoint⟩ := h
      obtain ⟨-, hs⟩ := hcheckpoint pending' cancelled rfl
      cases cancelled with
      | some v => exact .inr nofun
      | none =>
        cases hheld : pending'.get caseId with
        | none =>
          simp only [hheld]
          exact .inr nofun
        | some entry =>
          obtain ⟨attempt, first⟩ := entry
          simp only [hheld]
          have hentry := Table.mem_of_get hheld
          have alone : ∀ t, Progressing P L runId cases pending' t → Alone P runId t → pending'.erase caseId = ∅ :=
            fun t ht halone => halone.erase ht (ht.waiting _ hentry)
          refine Safe.bind (heeding_secondResult hs unstopped alone) (fun result past s h => ?_)
            (fun _ _ _ h => h.imp_right (fun _ => nofun))
          rcases h with hasty | ⟨hs, h⟩
          · exact (heeding_hasty _ hasty).mono (fun _ _ _ h => .inl h)
          · have hpast := h result rfl
            refine Safe.bind (safe_recorded hs hpast) (fun result past s h => ?_) (fun _ _ _ _ => .inr nofun)
            have hrest : Held P L runId cases (pending'.erase caseId) caseId attempt (fun _ => True) s :=
              ⟨⟨h.1.tidy, h.1.seen, fun entry hentry => h.1.waiting entry (Table.mem_erase.1 hentry).1⟩,
                h.1.waiting _ hentry, trivial⟩
            refine Safe.bind (heeding_completeOpenAttempt C lasting_true ⟨rfl, rfl⟩ hrest
              (fun entry hentry => (Table.mem_erase.1 hentry).2) h.2 (fun _ _ ht => halted_of_seen ht.1)
              (fun _ _ ht _ => halted_of_seen (ht.subset (List.subset_append_left _ _)))) (fun _ past s h => ?_)
              (fun _ _ _ _ => .inr nofun)
            exact ih ((h.2 rfl).1.subset (List.subset_append_left _ _)) h.1

/-! ### One execution -/

theorem calm_transition (runId : String) (next : RunState) : (transition runId next).Asks Calm :=
  (steady_transition runId next _ keepsSelection_empty).quiet.mono (fun _ => Quiet.calm)

theorem calm_finishScored (runId : String) (rows : List CaseRow) {args : PassArgs} (h : args.Lawful) :
    (finishScored runId rows args).Asks Calm :=
  asks_finishScored (fun _ => Quiet.calm) (fun _ _ _ _ _ _ _ => lawful_passRequest h)

theorem calm_collectAndScore (runId : String) {next : Method View} (h : next.Asks Calm) :
    (collectAndScore runId next).Asks Calm := by
  refine asks_bind (calm_transition runId .collecting) (fun _ => ?_)
  refine asks_bind (calm_honorCancellation runId) (fun cancelled => ?_)
  cases cancelled with
  | some v => trivial
  | none =>
    refine asks_bind (calm_transition runId .scoring) (fun _ => ?_)
    refine asks_bind (calm_honorCancellation runId) (fun cancelled => ?_)
    cases cancelled with
    | some v => trivial
    | none => exact h

/-- What follows the sweep asks the backend nothing. -/
theorem calm_scoring (run : Run) : (collectAndScore run.id (do
    let rows ← caseRowsOf run.id
    let errors := rowErrors rows
    finishScored run.id rows {
      source := "initial"
      finalStatus := some (withStopUncertainty run rows (if errors.isEmpty then .completed else .failed))
      finalError := errors.headD .null })).Asks Calm := by
  refine calm_collectAndScore run.id (asks_bind (asks_call trivial) (fun rows => ?_))
  exact calm_finishScored run.id rows ⟨keepsSelection_empty, fun h => absurd rfl h⟩

/-- The part of an execution after the main loop. -/
def afterLoop (run : Run) (pending : Pending) : Method View := do
  match ← cancelCheckpoint run.id pending with
  | (_, some v) => return v
  | (pending, none) =>
    match ← sweepTransientFailures run pending with
    | some v => return v
    | none => collectAndScore run.id (do
      let rows ← caseRowsOf run.id
      let errors := rowErrors rows
      finishScored run.id rows {
        source := "initial"
        finalStatus := some (withStopUncertainty run rows (if errors.isEmpty then .completed else .failed))
        finalError := errors.headD .null })

/-- If no case waits, nothing of what follows the loop asks the backend. -/
theorem heeding_afterLoop_empty (C : P.CaseLaws) (hrun : run.id = runId) (lasting : Lasting P L runId J) (hj : J s)
    (halts : ∀ t, J t → Halted P runId cases t) :
    Heeding P L runId cases (afterLoop run ∅) past s (fun _ _ _ => True) := by
  subst hrun
  have halts' : True → ∀ t, J t → Halted P run.id cases t := fun _ => halts
  unfold afterLoop
  refine Safe.bind (heeding_cancelCheckpoint_empty C lasting hj (.inr trivial) halts') (fun checkpoint past s h => ?_)
    (fun _ _ _ _ => trivial)
  obtain ⟨pending, cancelled⟩ := checkpoint
  obtain ⟨⟨hj, hpast⟩, hpending⟩ := h
  cases hpending pending cancelled rfl
  cases cancelled with
  | some v => trivial
  | none =>
    have hsweep : (sweepTransientFailures run ∅).Asks Calm := asks_bind (calm_load run.id) (fun _ => trivial)
    refine Safe.bind (heeding_calm C hsweep lasting hj hpast halts') (fun swept past s h => ?_) (fun _ _ _ _ => trivial)
    cases swept with
    | some v => trivial
    | none => exact (heeding_calm C (calm_scoring run) lasting h.1 h.2 halts').mono (fun _ _ _ _ => trivial)

theorem heeding_afterLoop (C : P.CaseLaws) (hrun : run.id = runId) (h : LoopEnd P L runId cases pending past s) :
    Heeding P L runId cases (afterLoop run pending) past s (fun _ _ _ => True) := by
  subst hrun
  rcases h with ⟨unstopped, hs⟩ | ⟨rfl, hs⟩
  · unfold afterLoop
    refine Safe.bind (heeding_cancelCheckpoint C hs unstopped) (fun checkpoint past s h => ?_) (fun _ _ _ _ => trivial)
    obtain ⟨pending', cancelled⟩ := checkpoint
    obtain ⟨unstopped, hcheckpoint⟩ := h
    obtain ⟨-, hs⟩ := hcheckpoint pending' cancelled rfl
    cases cancelled with
    | some v => trivial
    | none =>
      have hsweep : Heeding P L run.id cases (sweepTransientFailures run pending') past s (fun r past t =>
          Hasty P run.id past ∨ (r = .ok none → ∃ pending, Progressing P L run.id cases pending t)) := by
        refine Safe.bind (heeding_unstopped C (calm_load run.id) (lasting_progressing cases pending') hs unstopped)
          (fun _ past s h => ?_) (fun _ _ _ _ => .inr nofun)
        exact heeding_sweepLoop C rfl _ h.1 (.inl h.2)
      refine Safe.bind hsweep (fun swept past s h => ?_) (fun _ _ _ _ => trivial)
      cases swept with
      | some v => trivial
      | none =>
        rcases h with hasty | h
        · exact (heeding_hasty _ hasty).mono (fun _ _ _ _ => trivial)
        · obtain ⟨pending'', hs⟩ := h rfl
          exact (heeding_calm (A := True) C (calm_scoring run) (lasting_progressing cases pending'') hs (.inr trivial)
            (fun _ _ => halted_of_seen)).mono (fun _ _ _ _ => trivial)
  · exact heeding_afterLoop_empty C rfl lasting_stopRow hs (fun _ ht => .inl ht.2)

/-- What an execution may start from: a stop, if there was one, has halted the run. -/
def Ready (P : Platform σ) (L : P.RunLaws) (runId : String) (cases : List String) (past : List (Made σ)) (s : σ) :
    Prop := Tidy P L s ∧ (Unstopped past ∨ Halted P runId cases s)

theorem Halted.kept {t : σ} (h : Leaves P L runId s t) (hhalted : Halted P runId cases s) : Halted P runId cases t :=
  hhalted.imp (fun hstop => hstop.kept h.rows) (fun hblocked => hblocked.kept h)

theorem calm_startRunning (runId found : String) : (startRunning runId found).Asks Calm :=
  (steady_startRunning runId found).quiet.mono (fun _ => Quiet.calm)

/-- The rows that are read are those of the run. -/
theorem heeding_caseRowsOf (lasting : Lasting P L runId J) (hj : J s) (h : Unstopped past ∨ A)
    (halts : A → ∀ t, J t → Halted P runId cases t) :
    Heeding P L runId cases (caseRowsOf runId) past s (fun r past t => (J t ∧ (Unstopped past ∨ A)) ∧
      ∀ rows, r = .ok rows → rows = rowsOf (P.caseRuns t) runId) := by
  have hplain : Plain (.caseRows runId) := trivial
  refine safe_call (q := Ask.caseRows runId) (fun t hst o => ?_)
  have hj := lasting s t hj hst
  have hheeds : Heeds P runId cases past _ ∧ _ := heeds_plain (s := t) hplain o h (fun ha => halts ha t hj)
  exact ⟨hheeds.1, ⟨hj, hheeds.2⟩, fun rows hr => (Except.ok.inj hr).symm⟩

/-- The cases with a row are those of the rows. -/
theorem mem_done (h : Tidy P L s) {id : String} :
    id ∈ (rowsOf (P.caseRuns s) runId).map (·.caseId) ↔ HasRow P runId s id := by
  constructor
  · intro hid
    obtain ⟨row, hrow, rfl⟩ := List.mem_map.1 hid
    obtain ⟨caseId, ordinal, hget⟩ := mem_rowsOf.1 hrow
    have hkey := h.keyed _ _ hget
    rw [show caseId = row.caseId from congrArg Prod.snd hkey] at hget
    exact ⟨_, hget⟩
  · rintro ⟨⟨ordinal, row⟩, hget⟩
    have hkey := h.keyed _ _ hget
    exact List.mem_map.2 ⟨row, mem_rowsOf.2 ⟨id, ordinal, hget⟩, (congrArg Prod.snd hkey).symm⟩

/-- An execution of the benchmark heeds the stops, those before it included. -/
theorem heeding_executeBenchmark (C : P.CaseLaws) (hrun : run.id = runId) (hcases : caseIds run = cases)
    (h : Ready P L runId cases past s) :
    Heeding P L runId cases (executeBenchmark run) past s (fun _ _ _ => True) := by
  subst hrun
  generalize hstopped : (¬Unstopped past) = A
  have hpast : Unstopped past ∨ A := hstopped ▸ Classical.em _
  have hj : Tidy P L s ∧ (A → Halted P run.id cases s) :=
    ⟨h.1, fun ha => h.2.resolve_left (hstopped.mpr ha)⟩
  have lasting : Lasting P L run.id (fun t => Tidy P L t ∧ (A → Halted P run.id cases t)) :=
    fun _ _ h hst => ⟨hst.tidy h.1, fun ha => (h.2 ha).kept hst⟩
  have halts : A → ∀ t, (Tidy P L t ∧ (A → Halted P run.id cases t)) → Halted P run.id cases t :=
    fun ha _ ht => ht.2 ha
  refine safe_lift_bind (fun found _ => ?_) (fun _ _ => trivial)
  refine Safe.bind (heeding_calm C (calm_startRunning run.id found) lasting hj hpast halts) (fun _ past s h => ?_)
    (fun _ _ _ _ => trivial)
  refine Safe.bind (heeding_caseRowsOf lasting h.1 h.2 halts) (fun rows past s h => ?_) (fun _ _ _ _ => trivial)
  obtain ⟨⟨⟨tidy, hhalted⟩, hpast⟩, hrows⟩ := h
  have hread := hrows rows rfl
  simp only
  rw [hcases]
  cases hstop : rows.any (fun row => (row.fields.get "stop_run").truthy) with
  | true =>
    have hmark : StopRow P run.id s := by
      obtain ⟨row, hrow, hmark⟩ := List.any_eq_true.1 hstop
      exact ⟨row, hread ▸ hrow, hmark⟩
    refine Safe.bind (heeding_benchmarkLoop_stopped C rfl _ cases ⟨tidy, hmark⟩) (fun progress past s h => ?_)
      (fun _ _ _ _ => trivial)
    cases progress with
    | ended v => trivial
    | goesOn pending => exact heeding_afterLoop C rfl (.inr (h pending rfl))
  | false =>
    have hdone : ∀ id, id ∈ rows.map (·.caseId) ↔ HasRow P run.id s id := fun id => by rw [hread]; exact mem_done tidy
    rcases hpast with unstopped | ha
    · have hs : Progressing P L run.id (rows.map (·.caseId)) ∅ s :=
        ⟨tidy, fun id hid => .inl ((hdone id).1 hid), fun _ hentry => nomatch hentry⟩
      refine Safe.bind (heeding_benchmarkLoop C rfl cases [] rfl (List.nil_subset _) (fun _ hid => hid) hs
        (fun _ => rfl) unstopped) (fun progress past s h => ?_) (fun _ _ _ _ => trivial)
      rcases h with hasty | h
      · exact (heeding_hasty _ hasty).mono (fun _ _ _ _ => trivial)
      · cases progress with
        | ended v => trivial
        | goesOn pending => exact heeding_afterLoop C rfl (h pending rfl)
    · -- the mark is missing, so the case that stopped the run is still open
      have hunmarked : ¬StopRow P run.id s := by
        rintro ⟨row, hrow, hmark⟩
        rw [List.any_eq_false] at hstop
        exact hstop row (hread ▸ hrow) hmark
      have hblocked := (hhalted ha).resolve_left hunmarked
      rcases id hblocked with hall | ⟨before, caseId, after, hsplit, hbefore, hcase⟩
      · have hskip : benchmarkLoop run (rows.map (·.caseId)) (cases ++ []) false ∅ = return .goesOn ∅ :=
          benchmarkLoop_skip (fun id hid => (hdone id).2 (hall id hid)) [] false ∅
        rw [List.append_nil] at hskip
        rw [hskip]
        exact heeding_afterLoop_empty C rfl lasting_blocked ⟨tidy, hblocked⟩ (fun _ ht => .inr ht.2)
      · have hskip : benchmarkLoop run (rows.map (·.caseId)) cases false ∅ =
            benchmarkLoop run (rows.map (·.caseId)) (caseId :: after) false ∅ := by
          rw [hsplit]
          exact benchmarkLoop_skip (fun id hid => (hdone id).2 (hbefore id hid)) _ false ∅
        rw [hskip]
        refine Safe.bind (heeding_benchmarkLoop_blocked C rfl _ after (fun hid => hcase.1 ((hdone caseId).1 hid))
          ⟨⟨tidy, hblocked⟩, hcase.2⟩) (fun progress past s h => ?_) (fun _ _ _ _ => trivial)
        cases progress with
        | ended v => trivial
        | goesOn pending => exact absurd rfl (h pending)

end Loops

/-! ### Executions one after another -/

/-- The state after a history. -/
def lastState (s : σ) (history : List (Made σ)) : σ := (history.getLast?.map (·.after)).getD s

variable (P L runId cases)

/-- The calls of executions of one benchmark, one after another. Each ends anywhere, by a crash
or by itself, and others use the store in between. -/
inductive Executions : σ → List (Made σ) → Prop where
  | nothing (s : σ) : Executions s []
  | session {s t : σ} {run : Run} {history rest : List (Made σ)} (hrun : run.id = runId) (hcases : caseIds run = cases)
      (makes : (executeBenchmark run).Makes P.answer (Leaves P L runId) s history)
      (others : Leaves P L runId (lastState s history) t) (more : Executions t rest) : Executions s (history ++ rest)

variable {P L runId cases}

/-- An execution that nobody disturbs. -/
theorem Executions.alone {s : σ} {run : Run} {choices : List Oracle} {history rest : List (Made σ)}
    (hrun : run.id = runId) (hcases : caseIds run = cases)
    (hhistory : history = exchanges P.answer choices (executeBenchmark run) s)
    (more : Executions P L runId cases (lastState s history) rest) :
    Executions P L runId cases s (history ++ rest) :=
  .session hrun hcases (hhistory ▸ makes_exchanges Leaves.refl choices _ s) (Leaves.refl _) more

theorem lastState_append (s : σ) (history : List (Made σ)) (e : Made σ) : lastState s (history ++ [e]) = e.after := by
  simp [lastState]

/-- Runs and rows keep their keys, wherever an execution ends. -/
theorem tidy_makes (E : P.EndLaws) {α : Type} {x : Method α} (hx : x.Asks Called) {s : σ} {history : List (Made σ)}
    (makes : x.Makes P.answer (Leaves P L runId) s history) (h : Tidy P L s) : Tidy P L (lastState s history) := by
  induction history generalizing x s with
  | nil => exact h
  | cons e rest ih =>
    cases x with
    | done r => exact makes.elim
    | ask q next =>
      obtain ⟨hst, o, he, hrest⟩ := makes
      have hafter : Tidy P L e.after := by
        rw [he]
        exact answer_tidy E hx.1 o (hst.tidy h)
      have hlast : lastState s (e :: rest) = lastState e.after rest := by
        cases rest <;> simp [lastState, List.getLast?_cons]
      rw [hlast]
      exact ih (hx.2 _) hrest hafter

/-- Every call of executions one after another heeds the stops. -/
theorem executions_heed (C : P.CaseLaws) {s : σ} {history : List (Made σ)} (h : Executions P L runId cases s history)
    (past : List (Made σ)) (hpast : Hasty P runId past ∨ Ready P L runId cases past s) :
    ∀ before e after, history = before ++ e :: after → Heeds P runId cases (past ++ before) e := by
  induction h generalizing past with
  | nothing s =>
    intro before e after hsplit
    cases before <;> cases hsplit
  | @session s t run history rest hrun hcases makes others more ih =>
    intro before e after hsplit
    rcases hpast with ⟨e', he', hstop⟩ | hready
    · exact .inl ⟨e', List.mem_append_left _ (List.mem_append_left _ he'), hstop⟩
    · have hcalls := Safe.of_makes (heeding_executeBenchmark C hrun hcases hready) makes
      have hnext : Hasty P runId (past ++ history) ∨ Ready P L runId cases (past ++ history) t := by
        have tidy := others.tidy (tidy_makes C.toEndLaws (called_executeBenchmark run) makes hready.1)
        rcases List.eq_nil_or_concat history with hnil | ⟨front, last, hlast⟩
        · subst hnil
          rw [List.append_nil]
          exact .inr ⟨tidy, hready.2.imp_right (fun h => h.kept others)⟩
        · rw [List.concat_eq_append] at hlast
          subst hlast
          rw [lastState_append] at others
          rw [← List.append_assoc]
          rcases hcalls front last [] rfl with hasty | ⟨-, hheeded⟩
          · exact .inl hasty
          · exact .inr ⟨tidy, hheeded.imp_right (fun h => h.kept others)⟩
      rcases List.append_eq_append_iff.1 hsplit with ⟨mid, rfl, hrest⟩ | ⟨mid, rfl, hmid⟩
      · rw [← List.append_assoc]
        exact ih (past ++ history) hnext mid e after hrest
      · cases mid with
        | nil =>
          have hheeds := ih (past ++ (before ++ [])) hnext [] e after hmid.symm
          rwa [List.append_nil, List.append_nil] at hheeds
        | cons first mid =>
          cases hmid
          exact hcalls before e mid rfl

/-- After a stop the backend is not called again. -/
def StopHeeded (history : List (Made σ)) : Prop :=
  ∀ before e after, history = before ++ e :: after → stops e = true → ∀ e' ∈ after, invokes e'.q = false

theorem stopHeeded (C : P.CaseLaws) {s : σ} {history : List (Made σ)} (tidy : Tidy P L s)
    (h : Executions P L runId cases s history) (alone : ∀ e ∈ history, stops e = true → Alone P runId e.before) :
    StopHeeded history := by
  intro before e after hsplit hstop e' he'
  obtain ⟨between, rest, rfl⟩ := List.append_of_mem he'
  have hsplit' : history = (before ++ e :: between) ++ e' :: rest := by
    rw [hsplit, List.append_assoc, List.cons_append]
  have hready : Ready P L runId cases [] s := ⟨tidy, .inl (fun _ he => nomatch he)⟩
  rcases executions_heed C h [] (.inr hready) _ e' rest hsplit' with ⟨hasty, hmem, hstops, hnot⟩ | ⟨hinvoke, -⟩
  · refine absurd (alone hasty ?_ hstops) hnot
    rw [hsplit', List.append_cons _ e' rest]
    exact List.mem_append_left _ hmem
  · refine Bool.eq_false_iff.2 (fun hcalls => ?_)
    have hnone := hinvoke hcalls e (List.mem_append_right _ (List.mem_append_right _ List.mem_cons_self))
    rw [hstop] at hnone
    cases hnone

end Stop

/-- For every benchmark, every sequence of executions of it that crash anywhere, every
behaviour of the backend and everything others may do: if no other case has an open
attempt when an error stops the run, the backend is never called again. -/
theorem stopped_benchmark_calls_nobody (runId : String) (cases : List String) (s : Memory.Store) (db : Sqlite.Database)
    (hs : Tidy memory memoryLaws s) (hdb : Tidy sqlite sqliteLaws db) :
    (∀ history, Executions memory memoryLaws runId cases s history →
      (∀ e ∈ history, stops e = true → Alone memory runId e.before) → StopHeeded history) ∧
    (∀ history, Executions sqlite sqliteLaws runId cases db history →
      (∀ e ∈ history, stops e = true → Alone sqlite runId e.before) → StopHeeded history) :=
  ⟨fun _ h alone => stopHeeded memoryCases hs h alone, fun _ h alone => stopHeeded sqliteCases hdb h alone⟩

/-! ### A case that waits -/

/-- A benchmark of two cases. -/
def twoCaseRun : Run where
  id := "run"
  status := some "queued"
  revision := 1
  schemaVersion := 2
  fields := ((∅ : Fields).insert "case_ids" (.arr [.str "a", .str "b"])).insert "manifest"
    (.obj [("benchmark_provenance", .obj [("suite", .str "gsm8k")])])

def twoCaseStore : Memory.Store := run Memory.step ∅ [.run (.create twoCaseRun.input none)]

def twoCaseDatabase : Sqlite.Database := run Sqlite.step ∅ [.run (.create twoCaseRun.input none)]

theorem tidy_twoCases : Tidy memory memoryLaws twoCaseStore ∧ Tidy sqlite sqliteLaws twoCaseDatabase := by
  have keyed : KeyedRuns twoCaseStore.run := by
    show memoryRuns.Sound (run memoryRuns.step ∅ [.run (.create twoCaseRun.input none)])
    exact RunSystem.sound_run (fun _ _ h => nomatch h) ⟨trivial, trivial⟩
  have columns : Sqlite.Columns twoCaseDatabase.toRunLog := by
    show sqliteRuns.Sound (run sqliteRuns.step ∅ [.run (.create twoCaseRun.input none)])
    exact RunSystem.sound_run (fun _ _ h => nomatch h) ⟨trivial, trivial⟩
  have keyed' : KeyedRuns twoCaseDatabase.run := by
    intro k a ha
    obtain ⟨row, hrow, rfl⟩ := Option.map_eq_some_iff.1 ha
    have hall : ∀ r ∈ twoCaseDatabase.runs.rows, r.2.run.id = r.1 ∧ 0 ≤ r.2.run.revision := by decide +kernel
    exact hall (k, row) (Table.mem_of_get hrow)
  exact ⟨⟨keyed, keyed, nofun⟩, ⟨columns, keyed', nofun⟩⟩

/-- The first case is refused, and the execution crashes before its result is stored. -/
def refusedFirst : List (Made Memory.Store) :=
  exchanges memory.answer (List.replicate 21 {fresh := .ok "first", invoke := .ok (errorResult (.str "auth") "no key")})
    (executeBenchmark twoCaseRun) twoCaseStore

/-- The benchmark is taken up again. -/
def resumedRefused : List (Made Memory.Store) :=
  exchanges memory.answer (List.replicate 20 {fresh := .ok "second", invoke := .ok (.obj [("content", .str "4")])})
    (executeBenchmark {twoCaseRun with status := some "running"}) (lastState twoCaseStore refusedFirst)

theorem resumed_benchmark_calls_nobody :
    StopHeeded (refusedFirst ++ resumedRefused) ∧ refusedFirst.any stops = true ∧ resumedRefused.length = 9 := by
  have hresumed : Executions memory memoryLaws "run" ["a", "b"] (lastState twoCaseStore refusedFirst)
      (resumedRefused ++ []) :=
    .alone rfl (by decide +kernel) rfl (.nothing _)
  rw [List.append_nil] at hresumed
  have hboth : Executions memory memoryLaws "run" ["a", "b"] twoCaseStore (refusedFirst ++ resumedRefused) :=
    .alone rfl (by decide +kernel) rfl hresumed
  have hall := (stopped_benchmark_calls_nobody "run" ["a", "b"] twoCaseStore twoCaseDatabase tidy_twoCases.1
    tidy_twoCases.2).1 (refusedFirst ++ resumedRefused) hboth (by decide +kernel)
  exact ⟨hall, by decide +kernel, by decide +kernel⟩

/-- The first case is called while the provider limits the rate; the second is refused. -/
def limitedThenRefused : List (Made Memory.Store) :=
  exchanges memory.answer
    (List.replicate 24 {fresh := .ok "first", invoke := .ok (errorResult (.str "rate_limit") "slow down")} ++
      List.replicate 16 {fresh := .ok "second", invoke := .ok (errorResult (.str "auth") "no key")})
    (executeBenchmark twoCaseRun) twoCaseStore

theorem waiting_case_called_after_stop :
    Executions memory memoryLaws "run" ["a", "b"] twoCaseStore limitedThenRefused ∧ ¬StopHeeded limitedThenRefused := by
  have hlen : limitedThenRefused.length = 40 := by decide +kernel
  have hstop : (limitedThenRefused[31]?).map stops = some true := by decide +kernel
  have hcall : (limitedThenRefused[39]?).map (fun e => invokes e.q) = some true := by decide +kernel
  have hsession : Executions memory memoryLaws "run" ["a", "b"] twoCaseStore (limitedThenRefused ++ []) :=
    .alone rfl (by decide +kernel) rfl (.nothing _)
  rw [List.append_nil] at hsession
  refine ⟨hsession, fun h => ?_⟩
  have h31 : 31 < limitedThenRefused.length := by omega
  have h39 : 39 < limitedThenRefused.length := by omega
  rw [List.getElem?_eq_getElem h31, Option.map_some, Option.some_inj] at hstop
  rw [List.getElem?_eq_getElem h39, Option.map_some, Option.some_inj] at hcall
  have hsplit : limitedThenRefused = limitedThenRefused.take 31 ++ limitedThenRefused[31] ::
      limitedThenRefused.drop 32 := by
    rw [← List.drop_eq_getElem_cons h31, List.take_append_drop]
  have hlater : limitedThenRefused[39] ∈ limitedThenRefused.drop 32 :=
    List.mem_iff_getElem.2 ⟨7, by rw [List.length_drop]; omega, by simp⟩
  rw [h _ _ _ hsplit hstop _ hlater] at hcall
  cases hcall

end Motte.Service
