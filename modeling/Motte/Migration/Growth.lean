import Motte.Migration.Course

/-! What an import can do to the store.

A record that is to be created either leaves the store as it was, for a reason that the
store gives, or writes what it imports and then its mapping row. Nothing that is there is
ever taken away, and only the current scoring pass of a run moves. -/
namespace Motte.Migration
open Foundation

/-- The runs, case rows, scoring passes and mapping rows alone. -/
def Target.imported (t : Target) : Target where
  runs := t.runs
  caseRuns := t.caseRuns
  passes := t.passes
  mappings := t.mappings

section
variable {E : Setup} {S : LoadedSource} {session : Session} {r : SourceRecord} {m n t : Target}

/-! ### What is read -/

@[simp] theorem imported_imported : t.imported.imported = t.imported := rfl

@[simp] theorem imported_runs : t.imported.runs = t.runs := rfl

@[simp] theorem imported_caseRuns : t.imported.caseRuns = t.caseRuns := rfl

@[simp] theorem imported_passes : t.imported.passes = t.passes := rfl

@[simp] theorem imported_mappings : t.imported.mappings = t.mappings := rfl

theorem withMapping_imported (row : Mapping) : (t.withMapping row).imported = t.imported.withMapping row := by
  unfold Target.withMapping
  simp only [imported_mappings]
  split <;> rfl

theorem commitEffect_imported (row : Mapping) :
    (commitEffect row t).map Target.imported = commitEffect row t.imported := by
  unfold commitEffect
  by_cases hrow : row.valid
  · rw [if_pos hrow, if_pos hrow]
    exact congrArg Except.ok (withMapping_imported row)
  · rw [if_neg hrow, if_neg hrow]
    rfl

theorem upsertCase_imported (runId caseId : String) (row : CaseRow) :
    (t.upsertCase runId caseId row).imported = t.imported.upsertCase runId caseId row := by
  unfold Target.upsertCase
  simp only [imported_caseRuns]
  split <;> rfl

theorem withCases_imported (runId : String) (caseIds : List String) :
    (t.withCases S runId caseIds).imported = t.imported.withCases S runId caseIds := by
  induction caseIds generalizing t with
  | nil => rfl
  | cons caseId rest ih => rw [withCases_cons, withCases_cons, ih, upsertCase_imported]

/-- A mapping row that is put to stores that agree. -/
theorem commitEffect_alike (row : Mapping) (h : m.imported = n.imported) :
    (commitEffect row m).map Target.imported = (commitEffect row n).map Target.imported := by
  rw [commitEffect_imported, commitEffect_imported, h]

theorem appended_imported (pass : ScoringPass) (run : Run) (rows : List ScoreRow) :
    (if rows ≠ [] ∧ (t.passes.get pass.id).isNone then t.appendPass pass run else t).imported =
      (if rows ≠ [] ∧ (t.imported.passes.get pass.id).isNone then t.imported.appendPass pass run
        else t.imported).imported := by
  by_cases hnew : rows ≠ [] ∧ (t.passes.get pass.id).isNone
  · have hnew' : rows ≠ [] ∧ (t.imported.passes.get pass.id).isNone := hnew
    rw [if_pos hnew, if_pos hnew']
    rfl
  · have hold : ¬(rows ≠ [] ∧ (t.imported.passes.get pass.id).isNone) := hnew
    rw [if_neg hnew, if_neg hold]
    rfl

/-- Nothing else of the store is read by a record. -/
theorem recordEffect_imported :
    (recordEffect E S session r t).map Target.imported =
      (recordEffect E S session r t.imported).map Target.imported := by
  unfold recordEffect
  split
  · unfold artifactEffect
    split
    · rfl
    · split
      · rfl
      · exact commitEffect_alike _ rfl
  · split
    · unfold runEffect
      simp only [imported_runs]
      split
      · rfl
      · split
        · split
          · exact commitEffect_alike _ rfl
          · rfl
        · split
          · rfl
          · exact commitEffect_alike _ (by rw [withCases_imported, withCases_imported]; rfl)
    · split
      · unfold annotationEffect
        simp only [imported_runs]
        split
        · rfl
        · split
          · exact commitEffect_alike _ rfl
          · rfl
      · split
        · unfold scoreEffect
          simp only [imported_runs]
          split
          · rfl
          · split
            · rfl
            · rfl
            · exact commitEffect_alike _ (appended_imported (passOf S _ _) _ _)
        · exact commitEffect_alike _ rfl

/-! ### What a record can do -/

/-- Why a record that is to be created leaves the store as it was. -/
inductive Idle (E : Setup) (S : LoadedSource) (session : Session) (r : SourceRecord) (m : Target) : Prop
  | artifact (isArtifact : r.recordType = "artifact") (refused : importable E S r = none)
  | run (isRun : r.recordType = "run")
      (refused : r.status E ∉ terminalRunStatuses ∨
        ∃ run, m.runs.get (importedRunId r.sourceId) = some run ∧ run.contentHash ≠ some r.contentHash)
  | noted ( isAnnotation : r.recordType = "run_summary" ∨ r.recordType = "baseline")
      (refused : ∀ run, m.runs.get (importedRunId (annotationRef E r)) = some run → run.annotated r.recordType = false)
  | score (isScore : r.recordType = "score")
      (refused : ∀ run, m.runs.get (importedRunId (scoreRef E r)) = some run →
        verdictOf r (preparedFor S session (scoreRef E r) run) = .ok none)

/-- The store, with what a record writes before its mapping row. -/
def Written (E : Setup) (S : LoadedSource) (session : Session) (r : SourceRecord) (m n : Target) : Prop :=
  n = m ∨ Midway E S session r m n

theorem recordEffect_idle (h : Idle E S session r m) : recordEffect E S session r m = .ok m := by
  cases h with
  | artifact isArtifact refused => rw [recordEffect, if_pos isArtifact, artifactEffect, refused]
  | run isRun refused =>
    rw [recordEffect, if_neg (by rw [isRun]; decide), if_pos isRun, runEffect]
    by_cases hstatus : r.status E ∉ terminalRunStatuses
    · rw [if_pos hstatus]
    · rw [if_neg hstatus]
      rcases refused with hbad | ⟨run, hrun, hother⟩
      · exact absurd hbad hstatus
      · rw [hrun]
        exact if_neg hother
  | noted isAnnotation refused =>
    rw [recordEffect_note isAnnotation, annotationEffect]
    cases hrun : m.runs.get (importedRunId (annotationRef E r)) with
    | none => rfl
    | some run => exact if_neg (by rw [refused run hrun]; exact Bool.false_ne_true)
  | score isScore refused =>
    rw [recordEffect_score isScore, scoreEffect]
    cases hrun : m.runs.get (importedRunId (scoreRef E r)) with
    | none => rfl
    | some run => simp only [refused run hrun]

theorem commitEffect_ok {row : Mapping} (h : commitEffect row m = .ok n) : row.valid = true ∧ n = m.withMapping row := by
  unfold commitEffect at h
  split at h
  · rename_i hvalid
    exact ⟨hvalid, (Except.ok.inj h).symm⟩
  · cases h

/-- A record is idle, or writes what it imports and then puts its mapping row. -/
theorem recordEffect_ok (h : recordEffect E S session r m = .ok t) :
    (Idle E S session r m ∧ t = m) ∨
      ∃ n row, Written E S session r m n ∧ row.mappingKey = r.mappingKey ∧ row.contentHash = r.contentHash ∧
        row.valid = true ∧ t = n.withMapping row := by
  have hput {targetType targetId : String} {sha : Option String} {payload : Option Document} {n : Target}
      (hn : Written E S session r m n) (h : commitEffect (mappingOf E S r targetType targetId sha payload) n = .ok t) :
      ∃ n row, Written E S session r m n ∧ row.mappingKey = r.mappingKey ∧ row.contentHash = r.contentHash ∧
        row.valid = true ∧ t = n.withMapping row := by
    obtain ⟨hvalid, ht⟩ := commitEffect_ok h
    exact ⟨n, _, hn, rfl, rfl, hvalid, ht⟩
  unfold recordEffect at h
  split at h
  · rename_i hartifact
    unfold artifactEffect at h
    split at h
    · rename_i hrefused
      exact .inl ⟨.artifact hartifact hrefused, (Except.ok.inj h).symm⟩
    · rename_i sha content himported
      split at h
      · cases h
      · rename_i path hplaced
        exact .inr (hput (.inr (.file hartifact himported hplaced)) h)
  · split at h
    · rename_i hrun
      unfold runEffect at h
      split at h
      · rename_i hstatus
        exact .inl ⟨.run hrun (.inl hstatus), (Except.ok.inj h).symm⟩
      · rename_i hstatus
        split at h
        · rename_i run hfound
          split at h
          · exact .inr (hput (.inl rfl) h)
          · rename_i hother
            exact .inl ⟨.run hrun (.inr ⟨run, hfound, hother⟩), (Except.ok.inj h).symm⟩
        · rename_i habsent
          split at h
          · cases h
          · rename_i caseIds hread
            exact .inr (hput (.inr (.cases hrun (not_not.1 hstatus) habsent hread (List.append_nil _).symm)) h)
    · split at h
      · rename_i hnote
        unfold annotationEffect at h
        split at h
        · rename_i habsent
          exact .inl ⟨.noted hnote (fun run hrun => by rw [habsent] at hrun; cases hrun),
            (Except.ok.inj h).symm⟩
        · rename_i run hfound
          split at h
          · exact .inr (hput (.inl rfl) h)
          · rename_i hbare
            refine .inl ⟨.noted hnote (fun run' hrun => ?_), (Except.ok.inj h).symm⟩
            rw [hfound] at hrun
            cases hrun
            exact Bool.eq_false_iff.2 hbare
      · split at h
        · rename_i hscore
          unfold scoreEffect at h
          dsimp only at h
          split at h
          · rename_i habsent
            exact .inl ⟨.score hscore (fun run hrun => by rw [habsent] at hrun; cases hrun), (Except.ok.inj h).symm⟩
          · rename_i run hfound
            split at h
            · cases h
            · rename_i hrefused
              refine .inl ⟨.score hscore (fun run' hrun => ?_), (Except.ok.inj h).symm⟩
              rw [hfound] at hrun
              cases hrun
              exact hrefused
            · rename_i rows hverdict
              split at h
              · rename_i hnew
                exact .inr (hput (.inr (.pass hscore hfound hverdict hnew.1 (Option.isNone_iff_eq_none.1 hnew.2))) h)
              · exact .inr (hput (.inl rfl) h)
        · exact .inr (hput (.inl rfl) h)

/-! ### What stays -/

/-- The run, with at most its current scoring pass moved. -/
def Run.Continues (run run' : Run) : Prop :=
  run' = { run with revision := run'.revision, currentScoringPassId := run'.currentScoringPassId }

theorem Run.Continues.refl (run : Run) : run.Continues run := rfl

theorem Run.Continues.trans {a b c : Run} (h : a.Continues b) (h' : b.Continues c) : a.Continues c := by
  unfold Run.Continues at *
  rw [h'] at *
  rw [h]

/-- Everything that is there stays. -/
structure Grows (m n : Target) : Prop where
  mappings : ∀ key row, m.mappings.get key = some row → n.mappings.get key = some row
  runs : ∀ id run, m.runs.get id = some run → ∃ run', n.runs.get id = some run' ∧ run.Continues run'
  cases : ∀ key row, m.caseRuns.get key = some row → n.caseRuns.get key = some row

theorem Grows.refl (m : Target) : Grows m m :=
  ⟨fun _ _ h => h, fun _ run h => ⟨run, h, .refl run⟩, fun _ _ h => h⟩

theorem Grows.trans {a b c : Target} (h : Grows a b) (h' : Grows b c) : Grows a c where
  mappings := fun key row hrow => h'.mappings key row (h.mappings key row hrow)
  runs := by
    intro id run hrun
    obtain ⟨run', hrun', hsame⟩ := h.runs id run hrun
    obtain ⟨run'', hrun'', hsame'⟩ := h'.runs id run' hrun'
    exact ⟨run'', hrun'', hsame.trans hsame'⟩
  cases := fun key row hrow => h'.cases key row (h.cases key row hrow)

theorem runs_of_imported (h : m.imported = n.imported) : m.runs = n.runs := by
  rw [← imported_runs, h, imported_runs]

theorem caseRuns_of_imported (h : m.imported = n.imported) : m.caseRuns = n.caseRuns := by
  rw [← imported_caseRuns, h, imported_caseRuns]

theorem mappings_of_imported (h : m.imported = n.imported) : m.mappings = n.mappings := by
  rw [← imported_mappings, h, imported_mappings]

/-- Stores that agree on what is imported grow alike. -/
theorem Grows.of_imported (h : m.imported = n.imported) : Grows m n where
  mappings := fun _ _ hrow => mappings_of_imported h ▸ hrow
  runs := fun _ run hrun => ⟨run, runs_of_imported h ▸ hrun, .refl run⟩
  cases := fun _ _ hrow => caseRuns_of_imported h ▸ hrow

theorem get_withMapping (row : Mapping) (key : String) :
    (m.withMapping row).mappings.get key =
      if key = row.mappingKey then some ((m.mappings.get key).getD row) else m.mappings.get key := by
  unfold Target.withMapping
  cases hbound : m.mappings.get row.mappingKey with
  | none =>
    show (m.mappings.set row.mappingKey row).get key = _
    rw [Table.get_set]
    by_cases hkey : key = row.mappingKey
    · rw [if_pos hkey, if_pos hkey, hkey, hbound]
      rfl
    · rw [if_neg hkey, if_neg hkey]
  | some existing =>
    show m.mappings.get key = _
    by_cases hkey : key = row.mappingKey
    · rw [if_pos hkey, hkey, hbound]
      rfl
    · rw [if_neg hkey]

@[simp] theorem withMapping_runs (row : Mapping) : (m.withMapping row).runs = m.runs := by
  unfold Target.withMapping
  split <;> rfl

@[simp] theorem withMapping_caseRuns (row : Mapping) : (m.withMapping row).caseRuns = m.caseRuns := by
  unfold Target.withMapping
  split <;> rfl

theorem grows_withMapping (m : Target) (row : Mapping) : Grows m (m.withMapping row) where
  mappings := by
    intro key existing hrow
    rw [get_withMapping]
    split
    · rw [hrow]
      rfl
    · exact hrow
  runs := fun _ run hrun => ⟨run, by rw [withMapping_runs]; exact hrun, .refl run⟩
  cases := fun _ _ hrow => by rw [withMapping_caseRuns]; exact hrow

@[simp] theorem upsertCase_runs (runId caseId : String) (row : CaseRow) : (m.upsertCase runId caseId row).runs = m.runs := by
  unfold Target.upsertCase
  split <;> rfl

@[simp] theorem upsertCase_mappings (runId caseId : String) (row : CaseRow) :
    (m.upsertCase runId caseId row).mappings = m.mappings := by
  unfold Target.upsertCase
  split <;> rfl

theorem get_upsertCase (runId caseId : String) (row : CaseRow) (key : String × String) :
    (m.upsertCase runId caseId row).caseRuns.get key =
      if key = (runId, caseId) then some ((m.caseRuns.get key).getD row) else m.caseRuns.get key := by
  unfold Target.upsertCase
  cases hthere : m.caseRuns.get (runId, caseId) with
  | none =>
    show (m.caseRuns.set (runId, caseId) row).get key = _
    rw [Table.get_set]
    by_cases hkey : key = (runId, caseId)
    · rw [if_pos hkey, if_pos hkey, hkey, hthere]
      rfl
    · rw [if_neg hkey, if_neg hkey]
  | some existing =>
    show m.caseRuns.get key = _
    by_cases hkey : key = (runId, caseId)
    · rw [if_pos hkey, hkey, hthere]
      rfl
    · rw [if_neg hkey]

theorem grows_upsertCase (m : Target) (runId caseId : String) (row : CaseRow) :
    Grows m (m.upsertCase runId caseId row) where
  mappings := fun _ _ hrow => by rw [upsertCase_mappings]; exact hrow
  runs := fun _ run hrun => ⟨run, by rw [upsertCase_runs]; exact hrun, .refl run⟩
  cases := by
    intro key existing hrow
    rw [get_upsertCase]
    split
    · rw [hrow]
      rfl
    · exact hrow

@[simp] theorem withCases_runs (runId : String) (caseIds : List String) :
    (m.withCases S runId caseIds).runs = m.runs := by
  induction caseIds generalizing m with
  | nil => rfl
  | cons caseId rest ih => rw [withCases_cons, ih, upsertCase_runs]

@[simp] theorem withCases_mappings (runId : String) (caseIds : List String) :
    (m.withCases S runId caseIds).mappings = m.mappings := by
  induction caseIds generalizing m with
  | nil => rfl
  | cons caseId rest ih => rw [withCases_cons, ih, upsertCase_mappings]

theorem grows_withCases (m : Target) (runId : String) (caseIds : List String) :
    Grows m (m.withCases S runId caseIds) := by
  induction caseIds generalizing m with
  | nil => exact .refl m
  | cons caseId rest ih => exact (grows_upsertCase m runId caseId _).trans (ih _)

theorem grows_withRun {run : Run} (h : m.runs.get run.id = none) : Grows m (m.withRun run) where
  mappings := fun _ _ hrow => hrow
  runs := by
    intro id run' hrun
    refine ⟨run', ?_, .refl run'⟩
    show (m.runs.set run.id run).get id = _
    rw [Table.get_set_ne _ _ (fun hid => by rw [hid, h] at hrun; cases hrun)]
    exact hrun
  cases := fun _ _ hrow => hrow

theorem grows_appendPass {pass : ScoringPass} {run : Run} (h : m.runs.get pass.runId = some run) :
    Grows m (m.appendPass pass run) where
  mappings := fun _ _ hrow => hrow
  runs := by
    intro id run' hrun
    show ∃ run'', (m.runs.set pass.runId _).get id = some run'' ∧ _
    rw [Table.get_set]
    by_cases hid : id = pass.runId
    · rw [if_pos hid]
      rw [hid, h] at hrun
      cases hrun
      exact ⟨_, rfl, rfl⟩
    · rw [if_neg hid]
      exact ⟨run', hrun, .refl run'⟩
  cases := fun _ _ hrow => hrow

/-- What is half done has taken nothing away, and put no mapping row. -/
theorem Midway.grows (h : Midway E S session r m n) : Grows m n ∧ n.mappings = m.mappings := by
  cases h with
  | file => exact ⟨⟨fun _ _ h => h, fun _ run h => ⟨run, h, .refl run⟩, fun _ _ h => h⟩, rfl⟩
  | cases isRun status absent read split =>
    exact ⟨(grows_withRun absent).trans (grows_withCases _ _ _), withCases_mappings _ _⟩
  | pass isScore found => exact ⟨grows_appendPass found, rfl⟩

/-- The key under which the import of a unit is noted. -/
def SourceUnit.key : SourceUnit → Option String
  | .record r => some r.mappingKey
  | .reject _ => none

/-- What a unit does, with what is decided on it in this store. -/
theorem unitEffect_ok {s : Target} {x : SourceUnit} (h : unitEffect E S session (x.decided E s) m = .ok t) :
    t = m ∨ ∃ r n row, x = .record r ∧ (n = m ∨ (x.decided E s).created? = some r ∧ Midway E S session r m n) ∧
      row.mappingKey = r.mappingKey ∧ row.contentHash = r.contentHash ∧ t = n.withMapping row := by
  cases x with
  | reject => exact .inl (Except.ok.inj h).symm
  | record r =>
    have hrecord := unitDecision_record E s r
    unfold unitEffect at h
    simp only [SourceUnit.decided] at h
    split at h
    · rename_i hcreate
      rw [hrecord] at h
      rcases recordEffect_ok h with ⟨_, ht⟩ | ⟨n, row, hn, hkey, hhash, _, ht⟩
      · exact .inl ht
      · refine .inr ⟨r, n, row, rfl, hn.imp_right (fun hmid => ⟨?_, hmid⟩), hkey, hhash, ht⟩
        show (ImportUnit.planned (unitDecision E s r)).created? = some r
        cases hunit : unitDecision E s r with
        | mk record decision diagnostic =>
          rw [hunit] at hrecord hcreate
          cases hrecord
          cases hcreate
          rfl
    · split at h
      · rw [hrecord] at h
        obtain ⟨_, ht⟩ := commitEffect_ok h
        exact .inr ⟨r, m, _, rfl, .inl rfl, rfl, rfl, ht⟩
      · exact .inl (Except.ok.inj h).symm
    · exact .inl (Except.ok.inj h).symm
    · exact .inl (Except.ok.inj h).symm

theorem unitEffect_grows {s : Target} {x : SourceUnit} (h : unitEffect E S session (x.decided E s) m = .ok t) :
    Grows m t := by
  rcases unitEffect_ok h with rfl | ⟨r, n, row, _, hn, _, _, rfl⟩
  · exact .refl t
  · rcases hn with rfl | ⟨_, hmid⟩
    · exact grows_withMapping _ _
    · exact hmid.grows.1.trans (grows_withMapping _ _)

/-- A unit binds no key but its own. -/
theorem unitEffect_key {s : Target} {x : SourceUnit} (h : unitEffect E S session (x.decided E s) m = .ok t)
    {key : String} (hkey : x.key ≠ some key) : t.mappings.get key = m.mappings.get key := by
  rcases unitEffect_ok h with rfl | ⟨r, n, row, rfl, hn, hrow, _, rfl⟩
  · rfl
  · have hmappings : n.mappings = m.mappings := by
      rcases hn with rfl | ⟨_, hmid⟩
      · rfl
      · exact hmid.grows.2
    have hne : key ≠ row.mappingKey := fun h => hkey (by rw [h, hrow]; rfl)
    rw [get_withMapping, if_neg hne, hmappings]

/-- Nothing else of the store is read by a unit. -/
theorem unitEffect_imported (u : ImportUnit) :
    (unitEffect E S session u t).map Target.imported =
      (unitEffect E S session u t.imported).map Target.imported := by
  unfold unitEffect
  split
  · rfl
  · split
    · exact recordEffect_imported
    · rename_i unit _ _
      by_cases hlost : unit.record.recordType = "run" ∧ (t.mappings.get unit.record.mappingKey).isNone
      · have hlost' : unit.record.recordType = "run" ∧ (t.imported.mappings.get unit.record.mappingKey).isNone := hlost
        rw [if_pos hlost, if_pos hlost']
        exact commitEffect_alike _ rfl
      · have hkept : ¬(unit.record.recordType = "run" ∧ (t.imported.mappings.get unit.record.mappingKey).isNone) := hlost
        rw [if_neg hlost, if_neg hkept]
        rfl
    · rfl
    · rfl

theorem unitEffect_alike (u : ImportUnit) (h : m.imported = n.imported) :
    (unitEffect E S session u m).map Target.imported = (unitEffect E S session u n).map Target.imported := by
  rw [unitEffect_imported, h, ← unitEffect_imported]

end

end Motte.Migration
