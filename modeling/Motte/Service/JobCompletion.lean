import Motte.Service.Rows
import Motte.Service.TrialPlacement

/-! What the completion of an external job says about its outcome.

A run is completed when the job settled and no error was gathered. Errors are
gathered after the results have been folded into trials or case rows, so an error
counts only if the fold shows it: in a run of trials it has to be an object, in
other runs the result has to be failed, to name its case, to be the last result of
the case, and to find the case without a row of an earlier call. -/
namespace Motte.Service
open Foundation Storage Script

/-! ### Results of runs without trials -/

section Legacy
variable {w : Writing} {run : Run} {runId : String}

theorem mapLegacy_append (m : Mapped) (a b : List Json) :
    mapLegacy w run runId m (a ++ b) = mapLegacy w run runId (mapLegacy w run runId m a) b := by
  fun_induction mapLegacy w run runId m a <;> simp_all [mapLegacy]

/-- Results of other cases leave the row of a case. -/
theorem mapLegacy_get_of_not_mem {m : Mapped} {items : List Json} {caseId : String}
    (h : ∀ item ∈ items, item.isObj = true → legacyCaseId w item ≠ .str caseId) :
    (mapLegacy w run runId m items).rows.get caseId = m.rows.get caseId := by
  fun_induction mapLegacy w run runId m items with
  | case1 => rfl
  | case2 m item rest _ _ ih => exact ih (fun i hi => h i (List.mem_cons_of_mem _ hi))
  | case3 m item rest _ _ _ _ _ ih => exact ih (fun i hi => h i (List.mem_cons_of_mem _ hi))
  | case4 m item rest hobj other hother _ _ ih =>
    have hne : caseId ≠ other := by
      rintro rfl
      exact h item List.mem_cons_self hobj hother
    rw [ih (fun i hi => h i (List.mem_cons_of_mem _ hi))]
    exact Table.get_set_ne _ _ hne
  | case5 m item rest _ _ ih => exact ih (fun i hi => h i (List.mem_cons_of_mem _ hi))
  | case6 m item rest _ ih => exact ih (fun i hi => h i (List.mem_cons_of_mem _ hi))

/-- What was set aside stays aside. -/
theorem mapLegacy_unmapped {m : Mapped} {items : List Json} (h : (mapLegacy w run runId m items).unmapped = []) :
    m.unmapped = [] := by
  fun_induction mapLegacy w run runId m items <;> simp_all

theorem fillRows_get {selected : List String} {rows : Table String CaseRow} {caseId : String} {row : CaseRow}
    (h : rows.get caseId = some row) : (fillRows runId selected rows).get caseId = some row := by
  unfold fillRows
  induction selected generalizing rows with
  | nil => exact h
  | cons other rest ih =>
    rw [List.foldl_cons]
    apply ih
    split
    · exact h
    · rename_i hother
      have hne : caseId ≠ other := by
        rintro rfl
        rw [h] at hother
        exact hother rfl
      rwa [Table.get_set_ne _ _ hne]

/-- The last result of a case is its row. -/
theorem legacyCaseRows_get {outcome item : Json} {before after : List Json} {caseId : String}
    (hsplit : (outcome.get "results").items = before ++ item :: after) (hobj : item.isObj = true)
    (hcase : legacyCaseId w item = .str caseId) (hne : caseId ≠ "")
    (hlast : ∀ later ∈ after, later.isObj = true → legacyCaseId w later ≠ .str caseId)
    (hmapped : (legacyCaseRows w runId run outcome).unmapped = []) :
    caseId ∈ caseIds run ∧ (legacyCaseRows w runId run outcome).rows.get caseId =
      some (legacyRow runId caseId item) := by
  simp only [legacyCaseRows, hsplit, mapLegacy_append] at hmapped ⊢
  unfold mapLegacy at hmapped ⊢
  simp only [hobj, if_true, hcase, hne, if_false] at hmapped ⊢
  by_cases hselected : caseId ∈ caseIds run
  · simp only [hselected, not_true_eq_false, if_false] at hmapped ⊢
    refine ⟨trivial, fillRows_get ?_⟩
    rw [mapLegacy_get_of_not_mem hlast]
    exact Table.get_set_self _ _ _
  · simp only [hselected, not_false_eq_true, if_true] at hmapped
    have := mapLegacy_unmapped hmapped
    simp at this

theorem legacyRow_error {caseId : String} {item : Json} (h : item.get "status" = .str "failed") :
    (errorOf ((legacyRow runId caseId item).fields.get "result")).truthy = true := by
  have hrow : (legacyRow runId caseId item).fields.get "result" = .obj [("error", (item.get "error").or
      (errorObject "EXTERNAL_JOB_CASE_FAILED" "external job reported a failed case without error detail"))] := by
    simp [legacyRow, h, resultRow, Fields.get]
  rw [hrow]
  show ((item.get "error").or _).truthy = true
  rw [Json.truthy_or]
  exact Bool.or_true _

end Legacy

/-! ### The gathered errors -/

/-- The result says that something went wrong. -/
def ReportsFailure (item : Json) : Prop :=
  item.isObj = true ∧ (item.get "status" = .str "failed" ∨ (item.get "error").truthy = true)

section Errors
variable {w : Writing} {run : Run} {outcome : Json} {records : JobRecords} {imported : TrialImport} {rows : List CaseRow}

theorem finalJobStatus_completed {status : String} {errors : List Json} :
    finalJobStatus status errors = .completed ↔ status = "settled" ∧ errors = [] := by
  unfold finalJobStatus
  split
  · rename_i h
    simp [h]
  · split
    · rename_i h
      simp [h]
    · split <;> simp_all

/-- What has to be so for no error to be gathered. -/
theorem jobErrors_eq_nil (h : jobErrors run outcome records imported rows = []) :
    rowErrors rows = [] ∧ (∀ r ∈ records.trials, reportsError r.error = false) ∧
      reportsError (outcome.get "error") = false ∧ records.unmapped = [] ∧
      (caseIds run ≠ [] → responded (caseIds run) rows ≠ 0) := by
  simp only [jobErrors, List.append_eq_nil_iff] at h
  obtain ⟨⟨⟨⟨⟨⟨hrows, htrials⟩, -⟩, houtcome⟩, hunmapped⟩, hresponded⟩, hconflicts⟩ := h
  have hnone : imported.conflicts.isEmpty = true := by
    by_contra hne
    rw [if_neg hne] at hconflicts
    cases hconflicts
  rw [outcomeError, if_pos hnone] at houtcome
  refine ⟨hrows, fun r hr => ?_, ?_, ?_, fun hids hzero => ?_⟩
  · have := List.filter_eq_nil_iff.1 htrials r.error (List.mem_map_of_mem hr)
    simpa using this
  · have := List.filter_eq_nil_iff.1 houtcome _ List.mem_cons_self
    simpa using this
  · by_contra hne
    rw [if_neg (by simpa using hne)] at hunmapped
    cases hunmapped
  · rw [if_pos ⟨hids, hzero⟩] at hresponded
    cases hresponded

theorem jobStatus_settled (h : jobStatus w outcome = "settled") :
    w.text ((outcome.get "job_status").or (.str "indeterminate")) = "settled" ∧
      ((outcome.get "import").get "conflicts").truthy = false := by
  unfold jobStatus at h
  split at h
  · exact absurd h (by decide)
  · rename_i hconflicts
    exact ⟨h, Bool.not_eq_true _ ▸ hconflicts⟩

/-- An error of a trial is kept with its record, unless the result was set aside. -/
theorem trial_error_recorded (shaped : trialShaped run = true) {runId : String} {item : Json}
    (h : externalJobRecords w runId run outcome = .ok records) (hmapped : records.unmapped = [])
    (hitem : item ∈ (outcome.get "results").items) (hobj : item.isObj = true)
    (herror : (item.get "error").truthy = true) : ∃ r ∈ records.trials, r.error = item.get "error" := by
  obtain ⟨trials, hsort, rfl⟩ := (externalJobRecords_trial shaped).1 h
  obtain ⟨before, after, hsplit⟩ := List.append_of_mem hitem
  have hplaced := @placeResult_mem_placements w run _ _ _ _ hsplit hobj
  cases hp : placeResult w run (collect w run ⟨∅, []⟩ before).byTrial item with
  | quarantine row =>
    rw [hp] at hplaced
    exact absurd hmapped (List.ne_nil_of_mem (List.mem_filterMap.2 ⟨_, hplaced, rfl⟩))
  | record r =>
    rw [hp] at hplaced
    obtain ⟨a, -, -, -, rfl⟩ := placeResult_record hp
    refine ⟨trialRecord w item a, ?_, if_pos herror⟩
    simp only [sortTrials, except_bind_ok_iff, except_pure_ok_iff] at hsort
    obtain ⟨-, -, rfl⟩ := hsort
    exact List.mem_mergeSort.2 (mem_records.2 hplaced)

end Errors

/-! ### Sound completion -/

section Completion
variable {σ : Type} (P : Platform σ) (w : Writing) (runId : String) (run : Run)

/-- What the job entry returned, if the call was one of it. -/
def jobOutcome? : Made σ → Option Json
  | ⟨_, .jobEntry _, .ok outcome, _⟩ => some outcome
  | _ => none

/-- The call completes a run. -/
def completes : Ask → Bool
  | .store (.append r) => r.finalStatus = some RunState.completed.name
  | _ => false

/-- What the completion of a run says about the outcome of its job. -/
structure SoundCompletion (outcome : Json) (s : σ) : Prop where
  settled : w.text ((outcome.get "job_status").or (.str "indeterminate")) = "settled"
  unfailed : (outcome.get "error").truthy = false
  unconflicted : ((outcome.get "import").get "conflicts").truthy = false
  mapped : ∀ records, externalJobRecords w runId run outcome = .ok records → records.unmapped = []
  clean : ∀ item ∈ (outcome.get "results").items, ¬ReportsFailure item
  responded : caseIds run ≠ [] → ∃ row ∈ rowsOf (P.caseRuns s) runId,
    row.fields.get "outcome" = .str "responded" ∧ row.caseId ∈ caseIds run

/-- When a row of the case was stored, the case had no other row yet. -/
def Unhidden (history : List (Made σ)) (caseId : String) : Prop :=
  ∀ c ∈ history, ∀ row, c.q = .upsert row → row.runId = runId → row.caseId = caseId →
    ∀ found, (P.caseRuns c.before).get (runId, caseId) = some found → found.2 = row

/-- The errors of the outcome are where errors are gathered. -/
structure ErrorsShown (outcome : Json) (history : List (Made σ)) : Prop where
  job : (outcome.get "error").truthy = true → (outcome.get "error").isObj = true
  trials : trialShaped run = true → ∀ item ∈ (outcome.get "results").items, ReportsFailure item →
    (item.get "error").truthy = true ∧ (item.get "error").isObj = true
  cases : trialShaped run = false → ∀ before item after, (outcome.get "results").items = before ++ item :: after →
    ReportsFailure item → item.get "status" = .str "failed" ∧ ∃ caseId, legacyCaseId w item = .str caseId ∧
      caseId ≠ "" ∧ (∀ later ∈ after, later.isObj = true → legacyCaseId w later ≠ .str caseId) ∧
      Unhidden P runId history caseId

/-- A call that completes the run does so soundly if the errors are shown. -/
def CompletesSoundly (past : List (Made σ)) (c : Made σ) : Prop :=
  completes c.q = true → ∃ outcome, past.filterMap jobOutcome? = [outcome] ∧
    (ErrorsShown P w runId run outcome past → SoundCompletion P w runId run outcome c.before)

variable {P w runId run}

/-- A sound completion has no errors to show. -/
theorem SoundCompletion.errorsShown {outcome : Json} {s : σ} (h : SoundCompletion P w runId run outcome s)
    (history : List (Made σ)) : ErrorsShown P w runId run outcome history where
  job herror := by
    rw [h.unfailed] at herror
    cases herror
  trials _ item hitem hfails := absurd hfails (h.clean item hitem)
  cases _ before item after hsplit hfails :=
    absurd hfails (h.clean item (hsplit ▸ List.mem_append_right _ List.mem_cons_self))

/-! ### What holds between the calls -/

/-- The job has returned the outcome. -/
def Known (outcome : Json) (past : List (Made σ)) : Prop := past.filterMap jobOutcome? = [outcome]

theorem Unhidden.of_append {past : List (Made σ)} {c : Made σ} {caseId : String}
    (h : Unhidden P runId (past ++ [c]) caseId) : Unhidden P runId past caseId :=
  fun c' hc' => h c' (List.mem_append_left _ hc')

theorem jobOutcome?_eq_none {c : Made σ} (h : ∀ r, c.q ≠ .jobEntry r) : jobOutcome? c = none := by
  obtain ⟨_, q, _, _⟩ := c
  cases q with
  | jobEntry r => exact absurd rfl (h r)
  | _ => rfl

theorem outcomes_append {past : List (Made σ)} {c : Made σ} (h : ∀ r, c.q ≠ .jobEntry r) :
    (past ++ [c]).filterMap jobOutcome? = past.filterMap jobOutcome? := by
  rw [List.filterMap_append, List.filterMap_cons_none (jobOutcome?_eq_none h)]
  exact List.append_nil _

theorem completes_of_quiet {q : Ask} (h : Quiet q) : completes q = false := by
  cases q with
  | store r => cases r with
    | append r => exact decide_eq_false h.2
    | _ => rfl
  | _ => rfl

/-- What stays when rows are kept and calls other than the job entry are added. -/
structure Framed (P : Platform σ) (I : List (Made σ) → σ → Prop) : Prop where
  kept : ∀ past s t, I past s → RowsKept P s t → I past t
  grows : ∀ past s c, (∀ r, c.q ≠ .jobEntry r) → I past s → I (past ++ [c]) s

theorem framed_outcomes (P : Platform σ) (outcomes : List Json) :
    Framed P (fun past (_ : σ) => past.filterMap jobOutcome? = outcomes) where
  kept _ _ _ h _ := h
  grows _ _ _ hc h := (outcomes_append hc).trans h

theorem Framed.and {I J : List (Made σ) → σ → Prop} (hi : Framed P I) (hj : Framed P J) :
    Framed P (fun past s => I past s ∧ J past s) where
  kept past s t h hkept := ⟨hi.kept past s t h.1 hkept, hj.kept past s t h.2 hkept⟩
  grows past s c hc h := ⟨hi.grows past s c hc h.1, hj.grows past s c hc h.2⟩

variable (P w runId run)

/-- A script that meets a postcondition, each of its calls completing soundly. -/
abbrev Finishes {α : Type} (x : Method α) (past : List (Made σ)) (s : σ)
    (post : Except Exn α → List (Made σ) → σ → Prop) : Prop :=
  x.Safe P.answer (RowsKept P) (CompletesSoundly P w runId run) post past s

variable {P w runId run}

/-- A quiet method keeps what is framed. -/
theorem finishes_quiet {α : Type} {x : Method α} {I : List (Made σ) → σ → Prop} {past : List (Made σ)} {s : σ}
    (L : P.RowLaws) (quiet : x.Asks Quiet) (framed : Framed P I) (h : I past s) :
    Finishes P w runId run x past s (fun _ => I) := by
  refine quiet.safe framed.kept (fun past s q o hq hi => ⟨fun hc => ?_, ?_⟩) h
  · rw [show completes (served P.answer o q s).q = false from completes_of_quiet hq] at hc
    cases hc
  · refine framed.kept _ _ _ (framed.grows _ _ _ ?_ hi) (answer_rows L o q s)
    rintro r rfl
    exact hq

/-- One call that neither returns from the job nor completes a run. -/
theorem finishes_call {q : Ask} {I : List (Made σ) → σ → Prop} {past : List (Made σ)} {s : σ}
    (L : P.RowLaws) (quiet : Quiet q) (framed : Framed P I) (h : I past s) :
    Finishes P w runId run (call q) past s (fun _ => I) := finishes_quiet L (asks_call quiet) framed h

/-! ### Storing and reading the rows -/

/-- The rows of the cases are stored, unless they were hidden. -/
def RowsStored (P : Platform σ) (runId : String) (rows : Table String CaseRow) (ids : List String)
    (past : List (Made σ)) (s : σ) : Prop :=
  ∀ caseId ∈ ids, ∀ row, rows.get caseId = some row → row.runId = runId → row.caseId = caseId →
    Unhidden P runId past caseId → row ∈ rowsOf (P.caseRuns s) runId

theorem framed_rowsStored (P : Platform σ) (runId : String) (rows : Table String CaseRow) (ids : List String) :
    Framed P (RowsStored P runId rows ids) where
  kept _ _ _ h hkept caseId hid row hrow hrun hcase hshown :=
    mem_rowsOf_kept hkept (h caseId hid row hrow hrun hcase hshown)
  grows _ _ _ _ h caseId hid row hrow hrun hcase hshown := h caseId hid row hrow hrun hcase hshown.of_append

/-- Storing one row. -/
theorem finishes_upsert (L : P.RowLaws) {rows : Table String CaseRow} {caseId : String} {row : CaseRow}
    (hrow : rows.get caseId = some row) {outcome : Json} {past : List (Made σ)} {s : σ}
    (known : Known outcome past) {stored : List String} (h : RowsStored P runId rows stored past s) :
    Finishes P w runId run (call (.upsert row)) past s (fun _ past t =>
      Known outcome past ∧ RowsStored P runId rows (stored ++ [caseId]) past t) := by
  refine safe_call (fun t hkept o => ⟨(fun h : false = true => nomatch h), ?_, ?_⟩)
  · exact (framed_outcomes P _).grows past t (served P.answer o (.upsert row) t) (fun _ h => nomatch h) known
  · have hframe := framed_rowsStored P runId rows stored
    have hold := hframe.kept _ _ _ (hframe.grows _ _ (served P.answer o (.upsert row) t) (fun _ h => nomatch h)
      (hframe.kept _ _ _ h hkept)) (answer_rows L o (.upsert row) t)
    intro id hid row' hrow' hrun hcase hshown
    rcases List.mem_append.1 hid with hid | hid
    · exact hold id hid row' hrow' hrun hcase hshown
    · obtain rfl := List.mem_singleton.1 hid
      cases hrow.symm.trans hrow'
      obtain ⟨⟨ordinal, found⟩, hfound, hwhich⟩ := answer_upsert L o row t
      rw [hrun, hcase] at hfound hwhich
      have hsame : found = row := by
        rcases hwhich with hnew | hold
        · exact hnew
        · exact hshown (served P.answer o (.upsert row) t) (by simp) row rfl hrun hcase _ hold
      exact mem_rowsOf.2 ⟨id, ordinal, hsame ▸ hfound⟩

theorem finishes_upsertRows (L : P.RowLaws) (rows : Table String CaseRow) (ids : List String) {outcome : Json}
    {past : List (Made σ)} {s : σ} (known : Known outcome past) {stored : List String}
    (h : RowsStored P runId rows stored past s) :
    Finishes P w runId run (upsertRows rows ids) past s (fun result past t =>
      Known outcome past ∧ (result = .ok () → RowsStored P runId rows (stored ++ ids) past t)) := by
  induction ids generalizing past s stored with
  | nil =>
    refine ⟨known, fun _ => ?_⟩
    rwa [List.append_nil]
  | cons caseId rest ih =>
    unfold upsertRows
    split
    · exact ⟨known, nofun⟩
    · rename_i row hrow
      refine Safe.bind (finishes_upsert L hrow known h) (fun _ past t h => ?_) (fun _ _ _ h => ⟨h.1, nofun⟩)
      have hrest := ih h.1 h.2
      rwa [List.append_assoc, List.singleton_append] at hrest

/-- The rows that were read are stored, and the rows of the job are among them unless they were hidden. -/
structure RowsRead (P : Platform σ) (runId : String) (rows : Table String CaseRow) (ids : List String)
    (read : List CaseRow) (past : List (Made σ)) (s : σ) : Prop where
  stored : ∀ row ∈ read, row ∈ rowsOf (P.caseRuns s) runId
  shown : ∀ caseId ∈ ids, ∀ row, rows.get caseId = some row → row.runId = runId → row.caseId = caseId →
    Unhidden P runId past caseId → row ∈ read

theorem framed_rowsRead (P : Platform σ) (runId : String) (rows : Table String CaseRow) (ids : List String)
    (read : List CaseRow) :
    Framed P (RowsRead P runId rows ids read) where
  kept _ _ _ h hkept := ⟨fun row hrow => mem_rowsOf_kept hkept (h.stored row hrow), h.shown⟩
  grows _ _ _ _ h := ⟨h.stored, fun caseId hid row hrow hrun hcase hshown =>
    h.shown caseId hid row hrow hrun hcase hshown.of_append⟩

/-- Reading the rows of the run. -/
theorem finishes_caseRowsOf {rows : Table String CaseRow} {ids : List String} {outcome : Json}
    {past : List (Made σ)} {s : σ} (known : Known outcome past)
    (h : RowsStored P runId rows ids past s) :
    Finishes P w runId run (caseRowsOf runId) past s (fun result past t => Known outcome past ∧
      ∀ read, result = .ok read → RowsRead P runId rows ids read past t) := by
  refine safe_call (fun t hkept o => ⟨(fun h : false = true => nomatch h), ?_, ?_⟩)
  · exact (framed_outcomes P _).grows past t (served P.answer o (.caseRows runId) t) (fun _ h => nomatch h) known
  · intro read hread
    cases hread
    have hframe := framed_rowsStored P runId rows ids
    exact ⟨fun row hrow => hrow, hframe.grows _ _ _ (fun _ h => nomatch h) (hframe.kept _ _ _ h hkept)⟩

/-! ### The end of the job -/

theorem legacyRow_keys (runId caseId : String) (item : Json) :
    (legacyRow runId caseId item).runId = runId ∧ (legacyRow runId caseId item).caseId = caseId := by
  unfold legacyRow
  simp only
  split
  · exact ⟨rfl, rfl⟩
  · split
    · exact ⟨rfl, rfl⟩
    · split <;> exact ⟨rfl, rfl⟩

/-- A result of a run without trials that says something went wrong leaves an error among the rows. -/
theorem shown_failure_gathered (shaped : trialShaped run = false) {outcome item : Json} {records : JobRecords}
    {read : List CaseRow} {past : List (Made σ)} {s : σ}
    (hrecords : externalJobRecords w runId run outcome = .ok records) (hmapped : records.unmapped = [])
    (hread : RowsRead P runId records.rows (caseIds run) read past s)
    (shown : ErrorsShown P w runId run outcome past) (hitem : item ∈ (outcome.get "results").items)
    (hfails : ReportsFailure item) : rowErrors read ≠ [] := by
  obtain ⟨before, after, hsplit⟩ := List.append_of_mem hitem
  obtain ⟨hstatus, caseId, hcase, hne, hlast, hunhidden⟩ := shown.cases shaped before item after hsplit hfails
  rw [externalJobRecords, if_neg (by simp [shaped])] at hrecords
  cases hrecords
  obtain ⟨hselected, hrow⟩ := legacyCaseRows_get hsplit hfails.1 hcase hne hlast hmapped
  obtain ⟨hrun, hid⟩ := legacyRow_keys runId caseId item
  have hmem := hread.shown caseId hselected _ hrow hrun hid hunhidden
  exact List.ne_nil_of_mem (List.mem_filter.2 ⟨List.mem_map_of_mem hmem, legacyRow_error hstatus⟩)

/-- A job that settled without a gathered error was sound, if its errors are shown. -/
theorem soundCompletion_of_errors {outcome : Json} {records : JobRecords} {imported : TrialImport}
    {rows : Table String CaseRow} {read : List CaseRow} {past : List (Made σ)} {s : σ}
    (hrecords : externalJobRecords w runId run outcome = .ok records)
    (hrows : trialShaped run = false → rows = records.rows)
    (hread : RowsRead P runId rows (caseIds run) read past s) (hstatus : jobStatus w outcome = "settled")
    (herrors : jobErrors run outcome records imported read = [])
    (shown : ErrorsShown P w runId run outcome past) : SoundCompletion P w runId run outcome s := by
  obtain ⟨hnorows, htrials, houtcome, hmapped, hresponded⟩ := jobErrors_eq_nil herrors
  obtain ⟨hsettled, hconflicts⟩ := jobStatus_settled hstatus
  refine ⟨hsettled, ?_, hconflicts, fun records' h' => ?_, fun item hitem hfails => ?_, fun hids => ?_⟩
  · by_contra hne
    rw [Bool.not_eq_false] at hne
    rw [reportsError, shown.job hne, hne] at houtcome
    cases houtcome
  · cases hrecords.symm.trans h'
    exact hmapped
  · cases shaped : trialShaped run with
    | true =>
      obtain ⟨herror, hobj⟩ := shown.trials shaped item hitem hfails
      obtain ⟨r, hr, hkept⟩ := trial_error_recorded shaped hrecords hmapped hitem hfails.1 herror
      have := htrials r hr
      rw [hkept, reportsError, hobj, herror] at this
      cases this
    | false =>
      rw [hrows shaped] at hread
      exact shown_failure_gathered shaped hrecords hmapped hread shown hitem hfails hnorows
  · have hpos := hresponded hids
    rw [responded, ne_eq, List.length_eq_zero_iff] at hpos
    obtain ⟨row, hrow⟩ := List.exists_mem_of_ne_nil _ hpos
    rw [List.mem_filter, decide_eq_true_eq] at hrow
    exact ⟨row, hread.stored row hrow.1, hrow.2⟩

/-- Scoring and finishing a job whose rows have been read. -/
theorem finishes_finishScored (L : P.RowLaws) {outcome : Json} {records : JobRecords} {imported : TrialImport}
    {rows : Table String CaseRow} {read : List CaseRow} {past : List (Made σ)} {s : σ} {args : PassArgs}
    (hrecords : externalJobRecords w runId run outcome = .ok records)
    (hrows : trialShaped run = false → rows = records.rows) (known : Known outcome past)
    (hread : RowsRead P runId rows (caseIds run) read past s)
    (hargs : args.finalStatus = some (finalJobStatus (jobStatus w outcome)
      (jobErrors run outcome records imported read))) :
    Finishes P w runId run (finishScored runId read args) past s (fun _ _ _ => True) := by
  have hframe := (framed_outcomes P [outcome]).and (framed_rowsRead P runId rows (caseIds run) read)
  have hasks : (finishScored runId read args).Asks (fun q => Quiet q ∨ ∃ r, q = .store (.append r) ∧
      r.finalStatus = args.finalStatus.map RunState.name) :=
    asks_finishScored (fun q hq => .inl hq) (fun _ _ _ _ _ _ _ => .inr ⟨_, rfl, rfl⟩)
  refine Safe.mono (hasks.safe hframe.kept (fun past s q o hq hi => ⟨?_, ?_⟩) ⟨known, hread⟩) (fun _ _ _ _ => trivial)
  · intro hcompletes
    refine ⟨outcome, hi.1, fun shown => ?_⟩
    rcases hq with hquiet | ⟨r, rfl, hfinal⟩
    · rw [show completes (served P.answer o q s).q = false from completes_of_quiet hquiet] at hcompletes
      cases hcompletes
    · have hcompleted : r.finalStatus = some RunState.completed.name := of_decide_eq_true hcompletes
      rw [hfinal, hargs] at hcompleted
      obtain ⟨hsettled, hnone⟩ := finalJobStatus_completed.1 (RunState.name_injective (Option.some.inj hcompleted))
      exact soundCompletion_of_errors hrecords hrows hi.2 hsettled hnone shown
  · refine hframe.kept _ _ _ (hframe.grows _ _ _ ?_ hi) (answer_rows L o q s)
    rintro r rfl
    rcases hq with hquiet | ⟨_, hq, _⟩
    · exact hquiet
    · cases hq

theorem finishes_finishJob (L : P.RowLaws) {outcome : Json} {records : JobRecords} {imported : TrialImport}
    {rows : Table String CaseRow} {past : List (Made σ)} {s : σ}
    (hrecords : externalJobRecords w runId run outcome = .ok records)
    (hrows : trialShaped run = false → rows = records.rows) (known : Known outcome past)
    (hstored : RowsStored P runId rows (caseIds run) past s) :
    Finishes P w runId run (finishJob w runId run outcome records imported) past s (fun _ _ _ => True) := by
  have hframe := (framed_outcomes P [outcome]).and (framed_rowsStored P runId rows (caseIds run))
  refine Safe.bind (finishes_quiet L (quiet_honorCancellation runId) hframe ⟨known, hstored⟩)
    (fun cancelled past t h => ?_) (fun _ _ _ _ => trivial)
  cases cancelled with
  | some v => trivial
  | none =>
    refine Safe.bind (finishes_caseRowsOf h.1 h.2) (fun read past t h => ?_) (fun _ _ _ _ => trivial)
    have hread := h.2 read rfl
    have hframe := (framed_outcomes P [outcome]).and (framed_rowsRead P runId rows (caseIds run) read)
    refine safe_lift_bind (fun _ _ => ?_) (fun _ _ => trivial)
    refine Safe.bind (finishes_call L trivial hframe ⟨h.1, hread⟩) (fun _ past t h => ?_) (fun _ _ _ _ => trivial)
    refine Safe.bind (finishes_quiet L (asks_when (steady_emitRunEvent _ _ _).quiet) hframe h) (fun _ past t h => ?_)
      (fun _ _ _ _ => trivial)
    exact finishes_finishScored L hrecords hrows h.1 h.2 rfl

theorem finishes_settleJob (L : P.RowLaws) {outcome : Json} {past : List (Made σ)} {s : σ}
    (known : Known outcome past) :
    Finishes P w runId run (settleJob w runId run outcome) past s (fun _ _ _ => True) := by
  have hframe := framed_outcomes P [outcome]
  refine Safe.bind (finishes_quiet L (steady_reachScoring runId).quiet hframe known) (fun terminal past t known => ?_)
    (fun _ _ _ _ => trivial)
  refine safe_lift_bind (fun records hrecords => ?_) (fun _ _ => trivial)
  refine Safe.bind (finishes_call L trivial hframe known) (fun imported past t known => ?_) (fun _ _ _ _ => trivial)
  refine Safe.bind (finishes_call L trivial hframe known) (fun _ past t known => ?_) (fun _ _ _ _ => trivial)
  simp only
  generalize hrows : (if trialShaped run = true then _ else records.rows) = rows
  have hlegacy : trialShaped run = false → rows = records.rows := by
    intro shaped
    rw [← hrows, if_neg (by simp [shaped])]
  cases terminal with
  | true =>
    have hskip : Finishes P w runId run (when (true = false) (upsertRows rows (caseIds run))) past t
        (fun _ past _ => Known outcome past) := safe_when nofun (fun _ => known)
    refine Safe.bind hskip (fun _ past t known => ?_) (fun _ _ _ _ => trivial)
    refine Safe.bind (finishes_quiet L (asks_when (steady_emitRunEvent _ _ _).quiet) hframe known) (fun _ past t known => ?_)
      (fun _ _ _ _ => trivial)
    exact (finishes_quiet L (steady_finishAfterTerminalImport _ _ _ _).quiet hframe known).mono (fun _ _ _ _ => trivial)
  | false =>
    have hframe := hframe.and (framed_rowsStored P runId rows (caseIds run))
    have hnone : RowsStored P runId rows [] past t := fun _ hid => nomatch hid
    refine Safe.bind (safe_when (fun _ => finishes_upsertRows L rows (caseIds run) known hnone)
      (fun h => absurd rfl h)) (fun _ past t h => ?_) (fun _ _ _ _ => trivial)
    refine Safe.bind (finishes_quiet L (asks_when (steady_emitRunEvent _ _ _).quiet) hframe ⟨h.1, h.2 rfl⟩)
      (fun _ past t h => ?_) (fun _ _ _ _ => trivial)
    exact finishes_finishJob L hrecords hlegacy h.1 h.2

/-- Every call of an external job completes its run soundly, if the errors are shown. -/
theorem finishes_executeExternalJob (L : P.RowLaws) (s : σ) :
    Finishes P w runId run (executeExternalJob w runId run) [] s (fun _ _ _ => True) := by
  have hframe := framed_outcomes P []
  have hnone : ([] : List (Made σ)).filterMap jobOutcome? = [] := rfl
  refine safe_lift_bind (fun _ _ => ?_) (fun _ _ => trivial)
  refine Safe.bind (finishes_call L trivial hframe hnone) (fun _ past t h => ?_) (fun _ _ _ _ => trivial)
  refine safe_lift_bind (fun found _ => ?_) (fun _ _ => trivial)
  refine Safe.bind (finishes_quiet L (steady_startRunning runId found).quiet hframe h) (fun _ past t h => ?_)
    (fun _ _ _ _ => trivial)
  have hentry : Finishes P w runId run (call (.jobEntry run)) past t
      (fun result past _ => ∀ outcome, result = .ok outcome → Known outcome past) := by
    refine safe_call (fun t _ o => ⟨(fun h : false = true => nomatch h), fun outcome houtcome => ?_⟩)
    show (past ++ _).filterMap jobOutcome? = [outcome]
    rw [List.filterMap_append, h, List.nil_append, served, houtcome]
    rfl
  refine Safe.bind hentry.result (fun entry past t h => ?_) (fun _ _ _ _ => trivial)
  obtain ⟨_, hentry, h⟩ := h
  cases hentry
  cases entry with
  | error e =>
    have hframe : Framed P (fun _ (_ : σ) => True) := ⟨fun _ _ _ _ _ => trivial, fun _ _ _ _ _ => trivial⟩
    exact finishes_quiet L (quiet_failOrQuarantine runId e) hframe trivial
  | ok outcome =>
    refine safe_ite (fun _ => finishes_settleJob L (h outcome rfl)) (fun _ => ?_)
    have hframe : Framed P (fun _ (_ : σ) => True) := ⟨fun _ _ _ _ _ => trivial, fun _ _ _ _ _ => trivial⟩
    exact finishes_quiet L (quiet_fail runId _) hframe trivial

variable (P w runId run)

/-- In every execution, while others keep the rows of the store: when the call completes
the run, the job has returned an outcome, and the completion is sound if and only if
the errors of the outcome are shown. -/
def CompletionJudged : Prop :=
  ∀ s history, (executeExternalJob w runId run).Makes P.answer (RowsKept P) s history →
    ∀ before c after, history = before ++ c :: after → completes c.q = true →
      ∃ outcome, before.filterMap jobOutcome? = [outcome] ∧
        (SoundCompletion P w runId run outcome c.before ↔ ErrorsShown P w runId run outcome before)

variable {P w runId run}

theorem completionJudged (L : P.RowLaws) : CompletionJudged P w runId run := by
  intro s history makes before c after hsplit hcompletes
  obtain ⟨outcome, hreturned, hsound⟩ := Safe.of_makes (finishes_executeExternalJob L s) makes before c after hsplit
    hcompletes
  exact ⟨outcome, hreturned, fun h => h.errorsShown before, hsound⟩

end Completion

/-- For every run, outcome and store: an external job completes its run soundly if and
only if the errors of the outcome are shown. -/
theorem job_completed_soundly_iff (w : Writing) (runId : String) (run : Run) :
    CompletionJudged memory w runId run ∧ CompletionJudged sqlite w runId run :=
  ⟨completionJudged memoryRows, completionJudged sqliteRows⟩

/-! ### A failure that is overwritten -/

/-- A run of one case, without trials. -/
def oneCaseRun : Run where
  id := "run"
  status := some "queued"
  revision := 1
  schemaVersion := 2
  fields := (∅ : Fields).insert "case_ids" (.arr [.str "case"])

def oneCaseStore : Memory.Store := run Memory.step ∅ [.run (.create oneCaseRun.input none)]

/-- The case failed. -/
def failedReport : Json :=
  .obj [("case_id", .str "case"), ("error", .obj [("code", .str "OOM")]), ("status", .str "failed")]

/-- The failed case was reported once more. -/
def reportedTwice : Json := .obj [
  ("job_status", .str "settled"),
  ("results", .arr [failedReport, .obj [("case_id", .str "case"), ("output", .obj [("answer", .str "4")])]])]

/-- The calls of the job, when nobody else uses the store. -/
def reportedTwiceCalls : List (Made Memory.Store) :=
  exchanges memory.answer (List.replicate 39 {jobEntry := .ok reportedTwice})
    (executeExternalJob plainWriting "run" oneCaseRun) oneCaseStore

theorem overwritten_failure_completed :
    (executeExternalJob plainWriting "run" oneCaseRun).Makes memory.answer (RowsKept memory) oneCaseStore
      reportedTwiceCalls ∧
    ∃ before c after, reportedTwiceCalls = before ++ c :: after ∧ completes c.q = true ∧
      before.filterMap jobOutcome? = [reportedTwice] ∧
      ¬SoundCompletion memory plainWriting "run" oneCaseRun reportedTwice c.before := by
  have hlen : 36 < reportedTwiceCalls.length := by decide +kernel
  have hcompletes : (reportedTwiceCalls[36]?).map (fun c => completes c.q) = some true := by decide +kernel
  rw [List.getElem?_eq_getElem hlen, Option.map_some, Option.some_inj] at hcompletes
  have makes : (executeExternalJob plainWriting "run" oneCaseRun).Makes memory.answer (RowsKept memory) oneCaseStore
      reportedTwiceCalls := makes_exchanges RowsKept.refl _ _ _
  refine ⟨makes, reportedTwiceCalls.take 36, reportedTwiceCalls[36], reportedTwiceCalls.drop 37, ?_, hcompletes,
    by decide +kernel, fun h => ?_⟩
  · rw [← List.drop_eq_getElem_cons hlen, List.take_append_drop]
  · exact h.clean failedReport List.mem_cons_self ⟨rfl, .inl rfl⟩

end Motte.Service
