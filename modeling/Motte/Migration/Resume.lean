import Motte.Migration.Call

/-! Importing again after a crash.

A unit that is done finds its key bound, or finds the reason again for which it did
nothing; a unit that is half done finds what it wrote. What a resumed import lacks is what
only the session knew: the case rows still owed to a run that is there, and the artifacts
that a run still to be created declares. -/
namespace Motte.Migration
open Foundation

section
variable {E : Setup} {S : LoadedSource} {s t m n a b : Target} {session : Session} {r : SourceRecord}
variable {x y : SourceUnit} {done rest us : List SourceUnit}

/-! ### Units with their own keys -/

theorem key_record (r : SourceRecord) : (SourceUnit.record r).key = some r.mappingKey := rfl

theorem keys_nodup (hS : S.Distinct) : ((sortedUnits S).filterMap SourceUnit.key).Nodup := by
  have hperm : ((sortedUnits S).filterMap SourceUnit.key).Perm (S.records.map (·.mappingKey)) := by
    refine ((List.perm_insertionSort _ _).filterMap _).trans (List.Perm.of_eq ?_)
    rw [List.filterMap_append, List.filterMap_map, List.filterMap_map]
    have hrejected : S.rejected.filterMap (SourceUnit.key ∘ SourceUnit.reject) = [] :=
      List.filterMap_eq_nil_iff.2 (fun _ _ => rfl)
    rw [hrejected, List.nil_append]
    exact congrFun (List.filterMap_eq_map (f := fun r : SourceRecord => r.mappingKey)) S.records
  exact hperm.nodup_iff.2 hS.keys

/-- No other unit has the key of a unit. -/
theorem key_apart (hnodup : ((done ++ x :: rest).filterMap SourceUnit.key).Nodup) {key : String}
    (hx : x.key = some key) {y : SourceUnit} (hy : y ∈ done ∨ y ∈ rest) : y.key ≠ some key := by
  intro hsame
  rw [List.filterMap_append, List.filterMap_cons_some hx] at hnodup
  obtain ⟨_, hright, hdisjoint⟩ := List.nodup_append.1 hnodup
  rcases hy with hy | hy
  · exact hdisjoint key (List.mem_filterMap.2 ⟨y, hy, hsame⟩) key (.head _) rfl
  · exact (List.nodup_cons.1 hright).1 (List.mem_filterMap.2 ⟨y, hy, hsame⟩)

/-! ### Folds of units -/

theorem fold_grows (h : us.foldlM (unitStep E S s) m = .ok n) : Grows m n := by
  induction us generalizing m with
  | nil =>
    cases h
    exact .refl _
  | cons x us ih =>
    rw [List.foldlM_cons] at h
    obtain ⟨m', hm', hrest⟩ := except_bind_ok_iff.1 h
    exact (unitEffect_grows hm').trans (ih hrest)

theorem fold_key {key : String} (hkey : ∀ y ∈ us, y.key ≠ some key) (h : us.foldlM (unitStep E S s) m = .ok n) :
    n.mappings.get key = m.mappings.get key := by
  induction us generalizing m with
  | nil =>
    cases h
    rfl
  | cons x us ih =>
    rw [List.foldlM_cons] at h
    obtain ⟨m', hm', hrest⟩ := except_bind_ok_iff.1 h
    rw [ih (fun y hy => hkey y (.tail _ hy)) hrest, unitEffect_key hm' (hkey x (.head _))]

/-- No run is there that was not. -/
def NoNewRun (m n : Target) : Prop := ∀ id, m.runs.get id = none → n.runs.get id = none

theorem Midway.noNewRun (h : Midway E S session r m n) (hr : r.recordType ≠ "run") : NoNewRun m n := by
  intro id hid
  cases h with
  | file => exact hid
  | cases isRun => exact absurd isRun hr
  | @pass run rows isScore found =>
    have hne : id ≠ importedRunId (scoreRef E r) := by
      intro hsame
      rw [hsame, found] at hid
      cases hid
    exact (Table.get_set_ne _ _ hne).trans hid

theorem unitEffect_noNewRun (h : unitEffect E S session (x.decided E s) m = .ok n) (hx : x.recordType ≠ "run") :
    NoNewRun m n := by
  rcases unitEffect_ok h with rfl | ⟨r, n', row, rfl, hn, _, _, rfl⟩
  · exact fun _ hid => hid
  · intro id hid
    rw [withMapping_runs]
    rcases hn with rfl | ⟨_, hmid⟩
    · exact hid
    · exact hmid.noNewRun hx id hid

theorem fold_noNewRun (hus : ∀ y ∈ us, y.recordType ≠ "run") (h : us.foldlM (unitStep E S s) m = .ok n) :
    NoNewRun m n := by
  induction us generalizing m with
  | nil =>
    cases h
    exact fun _ hid => hid
  | cons x us ih =>
    rw [List.foldlM_cons] at h
    obtain ⟨m', hm', hrest⟩ := except_bind_ok_iff.1 h
    exact fun id hid => ih (fun y hy => hus y (.tail _ hy)) hrest id (unitEffect_noNewRun hm' (hus x (.head _)) id hid)

/-! ### What is decided -/

theorem unbound_of_grows (h : Grows m n) {key : String} (hkey : n.mappings.get key = none) :
    m.mappings.get key = none := by
  cases hm : m.mappings.get key with
  | none => rfl
  | some row =>
    rw [h.mappings key row hm] at hkey
    cases hkey

theorem contentHash_continues {run run' : Run} (h : run.Continues run') : run'.contentHash = run.contentHash := by
  rw [h]
  rfl

/-- A record of which the row is there changes nothing. -/
theorem unitEffect_of_bound (ht : (t.mappings.get r.mappingKey).isSome) (hn : (n.mappings.get r.mappingKey).isSome) :
    unitEffect E S session ((SourceUnit.record r).decided E t) n = .ok n := by
  obtain ⟨row, hrow⟩ := Option.isSome_iff_exists.1 ht
  have hkept : ¬(r.recordType = "run" ∧ (n.mappings.get r.mappingKey).isNone) := by
    rintro ⟨_, hnone⟩
    rw [Option.isNone_iff_eq_none.1 hnone] at hn
    cases hn
  simp only [SourceUnit.decided, unitDecision]
  split
  · rfl
  · unfold ledgerDecision
    rw [hrow]
    dsimp only
    split
    · exact if_neg hkept
    · rfl

/-- A record of another type than a run is to be created while its row is missing. -/
theorem decided_unbound (hr : r.recordType ≠ "run") (ht : t.mappings.get r.mappingKey = none) :
    (SourceUnit.record r).decided E t = .planned { record := r } := by
  simp only [SourceUnit.decided, unitDecision, ledgerDecision, ht, if_neg hr]

/-- A run record whose status refuses it changes nothing. -/
theorem unitEffect_of_refused (hr : r.recordType = "run") {diagnostic : String}
    (hstatus : statusRefusal E r = some diagnostic) :
    unitEffect E S session ((SourceUnit.record r).decided E t) n = .ok n := by
  simp only [SourceUnit.decided, unitDecision, if_pos hr, hstatus]
  rfl

theorem terminal_of_accepted (h : statusRefusal E r = none) : r.status E ∈ terminalRunStatuses := by
  unfold statusRefusal at h
  dsimp only at h
  split at h
  · cases h
  · split at h
    · cases h
    · rename_i hterminal
      exact not_not.1 hterminal

/-- How a run record is decided while its row is missing. -/
theorem decided_run (hr : r.recordType = "run") (hstatus : statusRefusal E r = none)
    (ht : t.mappings.get r.mappingKey = none) :
    (SourceUnit.record r).decided E t = .planned (match t.runs.get (importedRunId r.sourceId) with
      | none => { record := r }
      | some run =>
        if run.contentHash = some r.contentHash then { record := r, decision := .reused }
        else { record := r, decision := .conflicted, diagnostic := some s!"run_id_content_conflict:{r.unitRef}" }) := by
  cases hrun : t.runs.get (importedRunId r.sourceId) with
  | none => simp only [SourceUnit.decided, unitDecision, if_pos hr, hstatus, ledgerDecision, ht, hrun]
  | some run => simp only [SourceUnit.decided, unitDecision, if_pos hr, hstatus, ledgerDecision, ht, hrun]

theorem unitEffect_run_other (hr : r.recordType = "run") (hstatus : statusRefusal E r = none)
    (ht : t.mappings.get r.mappingKey = none) {run : Run} (hrun : t.runs.get (importedRunId r.sourceId) = some run)
    (hother : run.contentHash ≠ some r.contentHash) :
    unitEffect E S session ((SourceUnit.record r).decided E t) n = .ok n := by
  rw [decided_run hr hstatus ht, hrun]
  simp only [if_neg hother]
  rfl

theorem unitEffect_run_same (hr : r.recordType = "run") (hstatus : statusRefusal E r = none)
    (ht : t.mappings.get r.mappingKey = none) {run : Run} (hrun : t.runs.get (importedRunId r.sourceId) = some run)
    (hsame : run.contentHash = some r.contentHash) (hn : n.mappings.get r.mappingKey = none) :
    unitEffect E S session ((SourceUnit.record r).decided E t) n = commitEffect (runRow E S r) n := by
  rw [decided_run hr hstatus ht, hrun]
  simp only [if_pos hsame]
  exact if_pos ⟨hr, by rw [hn]; rfl⟩

theorem unitEffect_run_new (hr : r.recordType = "run") (hstatus : statusRefusal E r = none)
    (ht : t.mappings.get r.mappingKey = none) (hrun : t.runs.get (importedRunId r.sourceId) = none) :
    unitEffect E S session ((SourceUnit.record r).decided E t) n = recordEffect E S session r n := by
  rw [decided_run hr hstatus ht, hrun]
  rfl

/-- The scores that an import into a store begins without. -/
theorem verdict_given (s : Target) (runRef : String) (run : Run) :
    preparedFor S (givenSession E S s) runRef run = ownScores S runRef run := rfl

/-! ### Units that are done -/

theorem bound_of_row {n : Target} {row : Mapping} (hrow : row.mappingKey = r.mappingKey) :
    ((n.withMapping row).mappings.get r.mappingKey).isSome := by
  rw [get_withMapping, if_pos hrow.symm]
  rfl

/-- A record that was idle is idle again, when no run has come since. -/
theorem Idle.again (h : Idle E S (givenSession E S s) r m) (hr : r.recordType ≠ "run") (hgrows : Grows m t)
    (hruns : isAttachedType r.recordType → NoNewRun m t) : Idle E S (givenSession E S t) r t := by
  have hback {runId : String} {run' : Run} (hattached : isAttachedType r.recordType)
      (hrun' : t.runs.get runId = some run') : ∃ run, m.runs.get runId = some run ∧ run.Continues run' := by
    cases hm : m.runs.get runId with
    | none =>
      rw [hruns hattached runId hm] at hrun'
      cases hrun'
    | some run =>
      obtain ⟨run'', hrun'', hsame⟩ := hgrows.runs runId run hm
      rw [hrun'] at hrun''
      cases hrun''
      exact ⟨run, rfl, hsame⟩
  cases h with
  | artifact isArtifact refused => exact .artifact isArtifact refused
  | run isRun => exact absurd isRun hr
  | noted isAnnotation refused =>
    refine .noted isAnnotation (fun run' hrun' => ?_)
    obtain ⟨run, hrun, hsame⟩ := hback ( isAnnotation.elim .inl (fun h => .inr (.inl h))) hrun'
    rw [hsame]
    exact refused run hrun
  | score isScore refused =>
    refine .score isScore (fun run' hrun' => ?_)
    obtain ⟨run, hrun, hsame⟩ := hback (.inr (.inr isScore)) hrun'
    rw [verdict_given, ownScores_continues hsame, ← verdict_given (E := E) s]
    exact refused run hrun

/-- **A unit that is done changes nothing** when it is imported again. -/
theorem done_again (hstep : unitStep E S s a y = .ok b) (hbegan : Grows s a) (hgrows : Grows b t)
    (hruns : isAttachedType y.recordType → NoNewRun b t) : unitStep E S t t y = .ok t := by
  unfold unitStep at hstep ⊢
  cases y with
  | reject => rfl
  | record r =>
    cases hbound : t.mappings.get r.mappingKey with
    | some row => exact unitEffect_of_bound (by rw [hbound]; rfl) (by rw [hbound]; rfl)
    | none =>
      have hb : b.mappings.get r.mappingKey = none := unbound_of_grows hgrows hbound
      have ha : a.mappings.get r.mappingKey = none := unbound_of_grows (unitEffect_grows hstep) hb
      have hs : s.mappings.get r.mappingKey = none := unbound_of_grows hbegan ha
      -- had it put its row, the row would be there
      have hidle (h : recordEffect E S (givenSession E S s) r a = .ok b) : Idle E S (givenSession E S s) r a ∧ b = a := by
        rcases recordEffect_ok h with hidle | ⟨n, row, _, hrow, _, _, rfl⟩
        · exact hidle
        · have hput := bound_of_row (n := n) hrow
          rw [hb] at hput
          cases hput
      by_cases hr : r.recordType = "run"
      · cases hstatus : statusRefusal E r with
        | some diagnostic => exact unitEffect_of_refused hr hstatus
        | none =>
          have hother : ∃ run, b.runs.get (importedRunId r.sourceId) = some run ∧ run.contentHash ≠ some r.contentHash := by
            cases hrun : s.runs.get (importedRunId r.sourceId) with
            | none =>
              rw [unitEffect_run_new hr hstatus hs hrun] at hstep
              obtain ⟨h, rfl⟩ := hidle hstep
              cases h with
              | artifact isArtifact => exact absurd (hr.symm.trans isArtifact) (by decide)
              | run _ refused => exact refused.resolve_left (not_not.2 (terminal_of_accepted hstatus))
              | noted isAnnotation =>
                rw [hr] at isAnnotation
                exact absurd isAnnotation (by decide)
              | score isScore => exact absurd (hr.symm.trans isScore) (by decide)
            | some run =>
              by_cases hsame : run.contentHash = some r.contentHash
              · rw [unitEffect_run_same hr hstatus hs hrun hsame ha] at hstep
                obtain ⟨_, rfl⟩ := commitEffect_ok hstep
                have hput := @bound_of_row r a (runRow E S r) rfl
                rw [hb] at hput
                cases hput
              · obtain ⟨run', hrun', hcontinues⟩ := (hbegan.trans (unitEffect_grows hstep)).runs _ _ hrun
                exact ⟨run', hrun', by rw [contentHash_continues hcontinues]; exact hsame⟩
          obtain ⟨run, hrun, hdiffers⟩ := hother
          obtain ⟨run', hrun', hcontinues⟩ := hgrows.runs _ _ hrun
          exact unitEffect_run_other hr hstatus hbound hrun' (by rw [contentHash_continues hcontinues]; exact hdiffers)
      · rw [decided_unbound hr hs] at hstep
        rw [decided_unbound hr hbound]
        obtain ⟨h, rfl⟩ := hidle hstep
        exact recordEffect_idle (h.again hr hgrows hruns)

/-! ### Units that are still to come -/

/-- The run records that are still to be created in `t` get the artifacts that they get in `s`. -/
def ArtifactsKept (E : Setup) (S : LoadedSource) (s t : Target) : Prop :=
  ∀ r ∈ S.records, r.recordType = "run" → (unitDecision E t r).decision = .create →
    ∀ sha ∈ r.declaredShas,
      (commitsOf E S t (sortedUnits S)).get sha = (commitsOf E S s (sortedUnits S)).get sha

theorem refsOf_kept (h : ArtifactsKept E S s t) (hmem : r ∈ S.records) (hr : r.recordType = "run")
    (hcreate : (unitDecision E t r).decision = .create) :
    refsOf (givenSession E S s).committedArtifacts r = refsOf (givenSession E S t).committedArtifacts r := by
  refine List.filterMap_congr (fun sha hsha => ?_)
  show Option.map _ ((commitsOf E S s (sortedUnits S)).get sha) = Option.map _ ((commitsOf E S t (sortedUnits S)).get sha)
  rw [h r hmem hr hcreate sha hsha]

theorem recordEffect_alike (h : m.imported = n.imported) :
    (recordEffect E S session r m).map Target.imported = (recordEffect E S session r n).map Target.imported := by
  rw [recordEffect_imported, h, ← recordEffect_imported]

/-- **A unit that is still to come does what it would have done.** -/
theorem still_to_come (hagree : m.imported = n.imported) (ht : Grows t n) (hst : Grows s t)
    (hkept : ArtifactsKept E S s t) (hmem : x ∈ sortedUnits S)
    (hkey : ∀ key, x.key = some key → t.mappings.get key = s.mappings.get key ∧ m.mappings.get key = s.mappings.get key) :
    (unitStep E S s m x).map Target.imported = (unitStep E S t n x).map Target.imported := by
  unfold unitStep
  cases x with
  | reject => exact congrArg Except.ok hagree
  | record r =>
    obtain ⟨htkey, hmkey⟩ := hkey _ (key_record r)
    have hnkey : n.mappings.get r.mappingKey = s.mappings.get r.mappingKey := by
      rw [← mappings_of_imported hagree]
      exact hmkey
    cases hbound : s.mappings.get r.mappingKey with
    | some row =>
      rw [hbound] at htkey hmkey hnkey
      rw [unitEffect_of_bound (by rw [hbound]; rfl) (by rw [hmkey]; rfl),
        unitEffect_of_bound (by rw [htkey]; rfl) (by rw [hnkey]; rfl)]
      exact congrArg Except.ok hagree
    | none =>
      rw [hbound] at htkey hmkey hnkey
      by_cases hr : r.recordType = "run"
      · cases hstatus : statusRefusal E r with
        | some diagnostic =>
          rw [unitEffect_of_refused hr hstatus, unitEffect_of_refused hr hstatus]
          exact congrArg Except.ok hagree
        | none =>
          cases hrun : s.runs.get (importedRunId r.sourceId) with
          | some run =>
            obtain ⟨run', hrun', hcontinues⟩ := hst.runs _ _ hrun
            by_cases hsame : run.contentHash = some r.contentHash
            · rw [unitEffect_run_same hr hstatus hbound hrun hsame hmkey,
                unitEffect_run_same hr hstatus htkey hrun' (by rw [contentHash_continues hcontinues]; exact hsame) hnkey]
              exact commitEffect_alike _ hagree
            · rw [unitEffect_run_other hr hstatus hbound hrun hsame,
                unitEffect_run_other hr hstatus htkey hrun' (by rw [contentHash_continues hcontinues]; exact hsame)]
              exact congrArg Except.ok hagree
          | none =>
            rw [unitEffect_run_new hr hstatus hbound hrun]
            cases hrun' : t.runs.get (importedRunId r.sourceId) with
            | none =>
              rw [unitEffect_run_new hr hstatus htkey hrun']
              have hcreate : (unitDecision E t r).decision = .create := by
                have hdecided := decided_run hr hstatus htkey
                rw [hrun'] at hdecided
                simp only [SourceUnit.decided, ImportUnit.planned.injEq] at hdecided
                rw [hdecided]
              rw [recordEffect_run hr, recordEffect_run hr,
                refsOf_kept hkept (mem_sortedUnits.1 hmem) hr hcreate, ← recordEffect_run hr, ← recordEffect_run hr]
              exact recordEffect_alike hagree
            | some run =>
              obtain ⟨run', hfound, hcontinues⟩ := ht.runs _ _ hrun'
              rw [← runs_of_imported hagree] at hfound
              rw [recordEffect_run hr, runEffect, if_neg (not_not.2 (terminal_of_accepted hstatus)), hfound]
              by_cases hsame : run.contentHash = some r.contentHash
              · rw [unitEffect_run_same hr hstatus htkey hrun' hsame hnkey]
                simp only [contentHash_continues hcontinues, if_pos hsame]
                exact commitEffect_alike _ hagree
              · rw [unitEffect_run_other hr hstatus htkey hrun' hsame]
                simp only [contentHash_continues hcontinues, if_neg hsame]
                exact congrArg Except.ok hagree
      · rw [decided_unbound hr hbound, decided_unbound hr htkey]
        show (recordEffect E S (givenSession E S s) r m).map _ = (recordEffect E S (givenSession E S t) r n).map _
        have hgiven : recordEffect E S (givenSession E S s) r m = recordEffect E S (givenSession E S t) r m :=
          recordEffect_congr (fun h => absurd h hr) (fun _ _ _ => rfl)
        rw [hgiven]
        exact recordEffect_alike hagree

/-- All units that are still to come. -/
theorem rest_to_come (hagree : m.imported = n.imported) (hs : Grows s m) (ht : Grows t n) (hst : Grows s t)
    (hkept : ArtifactsKept E S s t) (hmem : ∀ x ∈ us, x ∈ sortedUnits S) (hnodup : (us.filterMap SourceUnit.key).Nodup)
    (hkey : ∀ x ∈ us, ∀ key, x.key = some key →
      t.mappings.get key = s.mappings.get key ∧ m.mappings.get key = s.mappings.get key) :
    (us.foldlM (unitStep E S s) m).map Target.imported = (us.foldlM (unitStep E S t) n).map Target.imported := by
  induction us generalizing m n with
  | nil => exact congrArg Except.ok hagree
  | cons x us ih =>
    have hstep := still_to_come hagree ht hst hkept (hmem x (.head _)) (hkey x (.head _))
    rw [List.foldlM_cons, List.foldlM_cons]
    rcases agree_iff.1 hstep with ⟨e, hm, hn⟩ | ⟨m', n', hm, hn, hagree'⟩
    · rw [hm, hn]
      show (Except.error e : Except Fault Target) = .error e
      rfl
    · rw [hm, hn]
      refine ih hagree' (hs.trans (unitEffect_grows hm)) (ht.trans (unitEffect_grows hn))
        (fun y hy => hmem y (.tail _ hy)) ?_ (fun y hy key hykey => ?_)
      · cases hx : x.key with
        | none =>
          rw [List.filterMap_cons_none hx] at hnodup
          exact hnodup
        | some key =>
          rw [List.filterMap_cons_some hx] at hnodup
          exact (List.nodup_cons.1 hnodup).2
      · obtain ⟨htkey, hmkey⟩ := hkey y (.tail _ hy) key hykey
        refine ⟨htkey, (unitEffect_key hm (fun hx => ?_)).trans hmkey⟩
        exact @key_apart _ [] _ hnodup _ hx _ (.inr hy) hykey

/-! ### A unit that is half done -/

theorem withCases_append (runId : String) (xs ys : List String) :
    m.withCases S runId (xs ++ ys) = (m.withCases S runId xs).withCases S runId ys := List.foldl_append

/-- Rows that are there are left. -/
theorem withCases_there {runId : String} {caseIds : List String}
    (h : ∀ c ∈ caseIds, (m.caseRuns.get (runId, c)).isSome) : m.withCases S runId caseIds = m := by
  induction caseIds with
  | nil => rfl
  | cons caseId rest ih =>
    obtain ⟨row, hrow⟩ := Option.isSome_iff_exists.1 (h caseId (.head _))
    rw [withCases_cons, Target.upsertCase, hrow]
    exact ih (fun c hc => h c (.tail _ hc))

/-- A run that is there with its case rows needs its mapping row alone. -/
theorem run_completed {caseIds upserted rest : List String} {run : Run} (hr : r.recordType = "run")
    (hstatus : statusRefusal E r = none) (habsent : m.runs.get (importedRunId r.sourceId) = none)
    (hread : caseIdsOf r = .ok caseIds) (hsplit : caseIds = upserted ++ rest)
    (hrun : run = runOf E S r caseIds (refsOf (givenSession E S s).committedArtifacts r))
    (ht : t = (m.withRun run).withCases S (importedRunId r.sourceId) upserted)
    (hkey : m.mappings.get r.mappingKey = none)
    (hcases : ∀ c ∈ caseIds, (t.caseRuns.get (importedRunId r.sourceId, c)).isSome) :
    recordEffect E S (givenSession E S s) r m = unitStep E S t t (.record r) := by
  have hthere : t.runs.get (importedRunId r.sourceId) = some run := by
    rw [ht, withCases_runs, hrun]
    exact Table.get_set_self _ _ _
  have hsame : run.contentHash = some r.contentHash := by rw [hrun]; rfl
  have htkey : t.mappings.get r.mappingKey = none := by
    rw [ht, withCases_mappings]
    exact hkey
  have hall : (m.withRun run).withCases S (importedRunId r.sourceId) caseIds = t := by
    rw [hsplit, withCases_append, ← ht]
    exact withCases_there (fun c hc => hcases c (by rw [hsplit]; exact List.mem_append_right _ hc))
  rw [recordEffect_run hr, runEffect, if_neg (not_not.2 (terminal_of_accepted hstatus)), habsent, hread]
  dsimp only
  rw [← hrun, hall, unitStep, unitEffect_run_same hr hstatus htkey hthere hsame htkey]

/-- A score of which the pass is there needs its mapping row alone. -/
theorem score_completed {run run' : Run} {rows : List ScoreRow} (hscore : r.recordType = "score")
    (hfound : m.runs.get (importedRunId (scoreRef E r)) = some run)
    (hverdict : verdictOf r (ownScores S (scoreRef E r) run) = .ok (some rows)) (hgiven : rows ≠ [])
    (habsent : m.passes.get (passIdOf (importedRunId (scoreRef E r))) = none)
    (ht : t = m.appendPass (passOf S (importedRunId (scoreRef E r)) rows) run)
    (hrun : t.runs.get (importedRunId (scoreRef E r)) = some run') (hsame : run.Continues run')
    (hkey : m.mappings.get r.mappingKey = none) :
    recordEffect E S (givenSession E S s) r m = unitStep E S t t (.record r) := by
  have hr : r.recordType ≠ "run" := by rw [hscore]; decide
  have htkey : t.mappings.get r.mappingKey = none := by rw [ht]; exact hkey
  have htaken : t.passes.get (passIdOf (importedRunId (scoreRef E r))) =
      some (passOf S (importedRunId (scoreRef E r)) rows) := by
    rw [ht]
    exact Table.get_set_self _ _ _
  have hagain : verdictOf r (ownScores S (scoreRef E r) run') = .ok (some rows) := by
    rw [ownScores_continues hsame]
    exact hverdict
  rw [unitStep, decided_unbound hr htkey]
  show _ = recordEffect E S (givenSession E S t) r t
  rw [recordEffect_score hscore, recordEffect_score hscore, scoreEffect, scoreEffect]
  simp only [hfound, hrun]
  rw [verdict_given, verdict_given, hverdict, hagain]
  dsimp only
  have hold : ¬(rows ≠ [] ∧ (t.passes.get (passIdOf (importedRunId (scoreRef E r)))).isNone) := by
    rw [htaken]
    exact fun h => Bool.false_ne_true h.2
  rw [if_pos ⟨hgiven, by rw [habsent]; rfl⟩, if_neg hold, ht]

/-- **A unit that is half done is completed**, unless a run lacks case rows. -/
theorem half_done (hmid : Midway E S (givenSession E S s) r m t)
    (hpending : ((SourceUnit.record r).decided E s).created? = some r) (hs : Grows s m)
    (hkey : m.mappings.get r.mappingKey = none)
    (hcases : ∀ id run, t.runs.get id = some run → s.runs.get id = none →
      ∀ c ∈ run.caseIds, (t.caseRuns.get (id, c)).isSome) :
    m.imported = t.imported ∨ unitStep E S s m (.record r) = unitStep E S t t (.record r) := by
  have hstep : unitStep E S s m (.record r) = recordEffect E S (givenSession E S s) r m := unitEffect_created hpending
  have hmidway := hmid
  cases hmid with
  | file => exact .inl rfl
  | @cases caseIds upserted rest isRun status absent read split =>
    right
    have hstatus : statusRefusal E r = none := by
      unfold statusRefusal
      dsimp only
      rw [if_neg (terminal_not_inFlight status), if_neg (not_not.2 status)]
    have hnew : s.runs.get (importedRunId r.sourceId) = none := by
      cases hrun : s.runs.get (importedRunId r.sourceId) with
      | none => rfl
      | some run =>
        obtain ⟨run', hrun', _⟩ := hs.runs _ _ hrun
        rw [absent] at hrun'
        cases hrun'
    rw [hstep]
    refine run_completed isRun hstatus absent read split rfl rfl hkey (fun c hc => ?_)
    refine hcases (importedRunId r.sourceId)
      (runOf E S r caseIds (refsOf (givenSession E S s).committedArtifacts r)) ?_ hnew c hc
    rw [withCases_runs]
    exact Table.get_set_self _ _ _
  | @pass run rows isScore found verdict given absent =>
    right
    obtain ⟨run', hrun', hsame⟩ := hmidway.grows.1.runs _ _ found
    rw [hstep]
    exact score_completed isScore found verdict given absent rfl hrun' hsame hkey

/-! ### An import that is resumed -/

/-- A crash after which nothing is missing that only the session knew. -/
structure Harmless (E : Setup) (S : LoadedSource) (s t : Target) : Prop where
  /-- A run that the call has created has its case rows. -/
  cases : ∀ id run, t.runs.get id = some run → s.runs.get id = none → ∀ c ∈ run.caseIds, (t.caseRuns.get (id, c)).isSome
  artifacts : ArtifactsKept E S s t

theorem Harmless.alike {s' : Target} (h : Harmless E S s t) (hs : s'.imported = s.imported) : Harmless E S s' t where
  cases := by
    intro id run hrun hnew
    refine h.cases id run hrun ?_
    rw [← imported_runs, ← hs, imported_runs]
    exact hnew
  artifacts := by
    have hcommits : commitsOf E S s' (sortedUnits S) = commitsOf E S s (sortedUnits S) :=
      congrArg Session.committedArtifacts (givenSession_alike hs)
    unfold ArtifactsKept
    rw [hcommits]
    exact h.artifacts

/-- The units that are done change nothing when they are imported again. -/
theorem all_done_again (h : done.foldlM (unitStep E S s) a = .ok b) (hbegan : Grows s a) (hgrows : Grows b t)
    (hruns : ∀ y ∈ done, ∀ before after c, done = before ++ y :: after → after.foldlM (unitStep E S s) c = .ok b →
      isAttachedType y.recordType → NoNewRun c t) : done.foldlM (unitStep E S t) t = .ok t := by
  induction done generalizing a with
  | nil => rfl
  | cons y us ih =>
    rw [List.foldlM_cons] at h ⊢
    obtain ⟨c, hc, hrest⟩ := except_bind_ok_iff.1 h
    have hy : unitStep E S t t y = .ok t :=
      done_again hc hbegan ((fold_grows hrest).trans hgrows) (hruns y (.head _) [] us c rfl hrest)
    rw [hy]
    refine ih hrest (hbegan.trans (unitEffect_grows hc)) (fun z hz before after c' hsplit hafter hattached => ?_)
    exact hruns z (.tail _ hz) (y :: before) after c' (by rw [hsplit]; rfl) hafter hattached

theorem sorted_nodup_tail (hS : S.Distinct) (hsplit : sortedUnits S = done ++ rest) :
    (rest.filterMap SourceUnit.key).Nodup := by
  have h := keys_nodup hS
  rw [hsplit, List.filterMap_append] at h
  exact (List.nodup_append.1 h).2.1

/-- What is still to come has its key as it was. -/
theorem key_to_come (hS : S.Distinct) (hsplit : sortedUnits S = done ++ rest) (hpast : done.foldlM (unitStep E S s) s = .ok m)
    (hx : x ∈ rest) {key : String} (hkey : x.key = some key) : m.mappings.get key = s.mappings.get key := by
  obtain ⟨before, after, rfl⟩ := List.append_of_mem hx
  have hnodup := keys_nodup hS
  rw [hsplit, ← List.append_assoc] at hnodup
  exact fold_key (fun y hy => key_apart hnodup hkey (.inl (List.mem_append_left _ hy))) hpast

/-- **Importing again after a harmless crash** does what the import would have done. -/
theorem resume_agrees (hS : S.Distinct) (h : Halted E S s t) (hharmless : Harmless E S s t) :
    (wholeImport E S t).map Target.imported = (wholeImport E S s).map Target.imported := by
  have hbetween {done rest : List SourceUnit} {m : Target} (hsplit : sortedUnits S = done ++ rest)
      (hpast : done.foldlM (unitStep E S s) s = .ok m) (hleft : m.imported = t.imported) :
      (wholeImport E S t).map Target.imported = (wholeImport E S s).map Target.imported := by
    have hs : Grows s m := fold_grows hpast
    have ht : Grows m t := .of_imported hleft
    have hagain : done.foldlM (unitStep E S t) t = .ok t := by
      refine all_done_again hpast (.refl s) ht (fun y _ before after c hdone hafter hattached id hid => ?_)
      have hsorted : sortedUnits S = before ++ y :: (after ++ rest) := by
        rw [hsplit, hdone, List.append_assoc]
        rfl
      rw [← imported_runs, ← hleft, imported_runs]
      exact fold_noNewRun (fun z hz => not_run_of_attached hsorted hattached (.tail _ (List.mem_append_left _ hz)))
        hafter id hid
    unfold wholeImport
    rw [hsplit, List.foldlM_append, List.foldlM_append, hagain, hpast]
    refine (rest_to_come hleft hs (.refl t) (hs.trans ht) hharmless.artifacts
      (fun x hx => by rw [hsplit]; exact List.mem_append_right _ hx) (sorted_nodup_tail hS hsplit)
      (fun x hx key hkey => ?_)).symm
    have hm := key_to_come hS hsplit hpast hx hkey
    refine ⟨?_, hm⟩
    rw [← hm, ← imported_mappings, ← hleft, imported_mappings]
  cases h with
  | between hsplit hpast hleft => exact hbetween hsplit hpast hleft
  | @within done rest m r hsplit hpast hpending hmid =>
    have hs : Grows s m := fold_grows hpast
    obtain ⟨ht, hmappings⟩ := hmid.grows
    have hmkey : m.mappings.get r.mappingKey = s.mappings.get r.mappingKey :=
      key_to_come hS hsplit hpast (.head _) (key_record r)
    have hunbound : s.mappings.get r.mappingKey = none := by
      cases hbound : s.mappings.get r.mappingKey with
      | none => rfl
      | some row =>
        simp only [SourceUnit.decided, unitDecision, ledgerDecision, hbound] at hpending
        split at hpending
        · cases hpending
        · split at hpending
          · cases hpending
          · cases hpending
    rcases half_done hmid hpending hs (hmkey.trans hunbound) hharmless.cases with hleft | hunit
    · exact hbetween hsplit hpast hleft
    · have hagain : done.foldlM (unitStep E S t) t = .ok t := by
        refine all_done_again hpast (.refl s) ht (fun y _ before after c hdone hafter hattached id hid => ?_)
        have hsorted : sortedUnits S = before ++ y :: (after ++ .record r :: rest) := by
          rw [hsplit, hdone, List.append_assoc]
          rfl
        have hlater {z : SourceUnit} (hz : z ∈ after ++ .record r :: rest) : z.recordType ≠ "run" :=
          not_run_of_attached hsorted hattached (.tail _ hz)
        exact hmid.noNewRun (hlater (List.mem_append_right _ (.head _))) id
          (fold_noNewRun (fun z hz => hlater (List.mem_append_left _ hz)) hafter id hid)
      unfold wholeImport
      rw [hsplit, List.foldlM_append, List.foldlM_append, hagain, hpast]
      show (((SourceUnit.record r) :: rest).foldlM (unitStep E S t) t).map _ =
        (((SourceUnit.record r) :: rest).foldlM (unitStep E S s) m).map _
      rw [List.foldlM_cons, List.foldlM_cons, ← hunit]
      cases hstep : unitStep E S s m (.record r) with
      | error e =>
        show (Except.error e : Except Fault Target) = .error e
        rfl
      | ok m' =>
        have htstep : unitStep E S t t (.record r) = .ok m' := hunit ▸ hstep
        refine (@rest_to_come _ _ _ _ _ _ rest rfl (hs.trans (unitEffect_grows hstep)) (unitEffect_grows htstep)
          (hs.trans ht) hharmless.artifacts (fun x hx => ?_) ?_ (fun x hx key hkey => ?_)).symm
        · rw [hsplit]
          exact List.mem_append_right _ (.tail _ hx)
        · refine @sorted_nodup_tail _ (done ++ [.record r]) _ hS ?_
          rw [hsplit, List.append_assoc]
          rfl
        · have hm := key_to_come hS hsplit hpast (.tail _ hx) hkey
          have hnodup := keys_nodup hS
          rw [hsplit] at hnodup
          refine ⟨by rw [hmappings]; exact hm, ?_⟩
          rw [unitEffect_key hstep (fun hr => key_apart hnodup hr (.inr hx) hkey)]
          exact hm

/-- The stores that crashes and calls in between leave, where every crash is harmless. -/
inductive Interrupted (E : Setup) (S : LoadedSource) (s : Target) : Target → Prop
  | start : Interrupted E S s s
  | crash {t t' : Target} (diskHash : String) (plan : Option PlanReport) (before : Interrupted E S s t)
      (died : t' ∈ (importPackage E S diskHash plan t).2.trail) (harmless : Harmless E S t t') : Interrupted E S s t'

theorem died_stops (hS : S.Distinct) {diskHash : String} {plan : Option PlanReport}
    (h : t ∈ (importPackage E S diskHash plan s).2.trail) : Stops E S s t :=
  Op.wp_state (Q := fun v => ∀ t ∈ v.trail, Stops E S s t)
    (Op.wp_mono (applyImport_ends hS diskHash plan s) (fun _ _ hv => hv.2) (fun _ _ hv => hv.2)) t h

theorem Interrupted.agrees (hS : S.Distinct) (h : Interrupted E S s t) :
    (wholeImport E S t).map Target.imported = (wholeImport E S s).map Target.imported := by
  induction h with
  | start => rfl
  | crash diskHash plan before died harmless ih =>
    obtain ⟨t₀, hsame, hhalted⟩ := died_stops hS died
    rw [resume_agrees hS hhalted (harmless.alike hsame), wholeImport_alike hsame, ih]

/-- **An import that crashes did not hurt ends as one that was never interrupted.** -/
theorem interrupted_import_agrees (hS : S.Distinct) (h : Interrupted E S s t) {diskHash : String}
    {plan : Option PlanReport} {report : ImportReport} (returned : (importPackage E S diskHash plan t).1 = .ok report)
    {diskHash' : String} {plan' : Option PlanReport} (startable : Startable S diskHash' plan' s) :
    (∃ report', (importPackage E S diskHash' plan' s).1 = .ok report') ∧
      (importPackage E S diskHash plan t).2.target.imported =
        (importPackage E S diskHash' plan' s).2.target.imported := by
  have hresumed := (Op.wp_returned (applyImport_ends hS diskHash plan t) returned).1
  rw [h.agrees hS] at hresumed
  have halone := applyImport_ends (E := E) hS diskHash' plan' s
  rcases hcall : importPackage E S diskHash' plan' s with ⟨e | report', v⟩
  · have herror := ((Op.wp_of_error hcall).1 halone).1 startable
    rw [hresumed] at herror
    cases herror
  · have hleft := ((Op.wp_of_ok hcall).1 halone).1
    rw [hresumed] at hleft
    exact ⟨⟨report', rfl⟩, Except.ok.inj hleft⟩

end

/-! ### A run of one case -/

/-- Texts are written as they are, every content has one hash, and artifacts lie where their ids say. -/
def plainSetup : Setup where
  str
    | .str s => s
    | _ => ""
  str_text := fun _ => rfl
  sha256 := fun _ => ""
  place := .ok
  operator := "operator"

def oneRun : LoadedSource where
  manifest := ⟨"batch", "legacy", "1", "1", "manifest"⟩
  contentSha256 := "content"
  records := [{
    recordType := "run"
    sourceId := "r"
    data := document [("status", .str "completed"), ("case_ids", .arr [.str "c"])]
    contentHash := "r"
    mappingKey := "run r" }]

theorem oneRun_distinct : oneRun.Distinct where
  keys := by decide
  scores := by
    intro r hr
    have hnone : oneRun.recordsOf "score" = [] := by decide
    rw [hnone] at hr
    cases hr

/-- The store after so many writes of a first import. -/
def oneRunAfter (writes : Nat) : Target := (importPackage plainSetup oneRun "content" none {}).2.trail[writes]?.getD {}

theorem oneRunAfter_died {writes : Nat} (h : writes < (importPackage plainSetup oneRun "content" none {}).2.trail.length) :
    oneRunAfter writes ∈ (importPackage plainSetup oneRun "content" none {}).2.trail := by
  unfold oneRunAfter
  rw [List.getElem?_eq_getElem h]
  exact List.getElem_mem h

/-- The case row is there, and the mapping row is not. -/
theorem case_row_harmless : Harmless plainSetup oneRun {} (oneRunAfter 2) where
  cases := by
    have hrows : ∀ row ∈ (oneRunAfter 2).runs.rows, ∀ c ∈ row.2.caseIds,
        ((oneRunAfter 2).caseRuns.get (row.1, c)).isSome := by decide +kernel
    exact fun id run hrun _ => hrows _ (Table.mem_of_get hrun)
  artifacts := by
    intro r hr _ _ sha hsha
    rw [List.mem_singleton.1 hr] at hsha
    cases hsha

theorem oneRun_startable (t : Target) (h : t.imports = ∅) : Startable oneRun "content" none t where
  source := rfl
  batch := by
    intro batch hbatch
    rw [h] at hbatch
    cases hbatch

theorem interrupted_import_agrees_oneRun :
    (∃ report, (importPackage plainSetup oneRun "content" none {}).1 = .ok report) ∧
      (importPackage plainSetup oneRun "content" none (oneRunAfter 2)).2.target.imported =
        (importPackage plainSetup oneRun "content" none {}).2.target.imported := by
  have hdied : oneRunAfter 2 ∈ (importPackage plainSetup oneRun "content" none {}).2.trail :=
    oneRunAfter_died (by decide +kernel)
  have hresumed : (importPackage plainSetup oneRun "content" none (oneRunAfter 2)).1.isOk = true := by decide +kernel
  rcases hcall : (importPackage plainSetup oneRun "content" none (oneRunAfter 2)).1 with e | report
  · rw [hcall] at hresumed
    cases hresumed
  · exact interrupted_import_agrees oneRun_distinct (.crash "content" none .start hdied case_row_harmless) hcall
      (oneRun_startable {} rfl)

/-- **A run that is there is not looked into**: a crash right after it was created leaves it without its case rows
for good. -/
theorem interrupted_import_loses_cases : ∃ t ∈ (importPackage plainSetup oneRun "content" none {}).2.trail,
    (importPackage plainSetup oneRun "content" none t).1.isOk = true ∧
      (importPackage plainSetup oneRun "content" none {}).1.isOk = true ∧
      (importPackage plainSetup oneRun "content" none t).2.target.imported ≠
        (importPackage plainSetup oneRun "content" none {}).2.target.imported := by
  refine ⟨oneRunAfter 1, oneRunAfter_died (by decide +kernel), by decide +kernel, by decide +kernel, fun hsame => ?_⟩
  have hrows : (importPackage plainSetup oneRun "content" none (oneRunAfter 1)).2.target.caseRuns.rows.map Prod.fst ≠
      (importPackage plainSetup oneRun "content" none {}).2.target.caseRuns.rows.map Prod.fst := by decide +kernel
  exact hrows (by rw [caseRuns_of_imported hsame])

end Motte.Migration
