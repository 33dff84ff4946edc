import Motte.Migration.Growth

/-! The scores of one run.

The scores of a run are prepared once in a session, and the refusals of all runs are noted
together. When a score id belongs to one run, what is found for a score is what its own
run gives alone, whatever was prepared before. -/
namespace Motte.Migration
open Foundation

/-- What the records of a package share: their keys are their own, and score records of one id name one run. -/
structure LoadedSource.Distinct (S : LoadedSource) : Prop where
  keys : (S.records.map (·.mappingKey)).Nodup
  scores : ∀ r ∈ S.recordsOf "score", ∀ r' ∈ S.recordsOf "score", r.sourceId = r'.sourceId →
    r.data.getOrNull "run_id" = r'.data.getOrNull "run_id"

/-- The scores of a run, and why others are refused, when nothing is noted. -/
def ownScores (S : LoadedSource) (runRef : String) (run : Run) : Except Fault (List ScoreRow × Table String String) :=
  prepareRows S run.caseIds (S.scoresOf runRef) [] ∅

section
variable {E : Setup} {S : LoadedSource}

/-! ### Preparing beside other refusals -/

/-- These refusals, beside which others stand. -/
def Beside (others : String → Prop) (rejects alone : Table String String) : Prop :=
  ∀ id, (rejects.get id).isSome ↔ (alone.get id).isSome ∨ others id

theorem Beside.set {others : String → Prop} {rejects alone : Table String String} (h : Beside others rejects alone)
    (id diagnostic : String) : Beside others (rejects.set id diagnostic) (alone.set id diagnostic) := by
  intro id'
  rw [Table.get_set, Table.get_set]
  by_cases hid : id' = id
  · rw [if_pos hid, if_pos hid]
    exact ⟨fun _ => .inl rfl, fun _ => rfl⟩
  · rw [if_neg hid, if_neg hid]
    exact h id'

/-- Refusals of other records change nothing of what is prepared. -/
theorem prepareRows_beside {caseIds : List String} {others : String → Prop} (records : List SourceRecord)
    (hrecords : ∀ r ∈ records, ¬others r.sourceId) {rows : List ScoreRow} {rejects alone : Table String String}
    (h : Beside others rejects alone) :
    (∃ e, prepareRows S caseIds records rows rejects = .error e ∧ prepareRows S caseIds records rows alone = .error e) ∨
      ∃ prepared rejects' alone', prepareRows S caseIds records rows rejects = .ok (prepared, rejects') ∧
        prepareRows S caseIds records rows alone = .ok (prepared, alone') ∧ Beside others rejects' alone' := by
  induction records generalizing rows rejects alone with
  | nil => exact .inr ⟨rows, rejects, alone, rfl, rfl, h⟩
  | cons r rest ih =>
    have hr : ¬others r.sourceId := hrecords r (.head _)
    have hrest : ∀ r' ∈ rest, ¬others r'.sourceId := fun r' hr' => hrecords r' (.tail _ hr')
    have hsame : (rejects.get r.sourceId).isSome = (alone.get r.sourceId).isSome :=
      Bool.eq_iff_iff.2 ((h r.sourceId).trans (or_iff_left hr))
    unfold prepareRows
    rw [hsame]
    split
    · exact ih hrest h
    · split
      · exact ih hrest (h.set _ _)
      · rename_i e _ _
        exact .inl ⟨e, rfl, rfl⟩
      · split
        · exact ih hrest (h.set _ _)
        · split
          · exact ih hrest (h.set _ _)
          · exact ih hrest h

/-- Who is refused has a record among those that are prepared. -/
theorem refused_of_prepareRows {caseIds : List String} (records : List SourceRecord) {rows prepared : List ScoreRow}
    {rejects rejects' : Table String String} (h : prepareRows S caseIds records rows rejects = .ok (prepared, rejects'))
    {id : String} (hid : (rejects'.get id).isSome) : (rejects.get id).isSome ∨ ∃ r ∈ records, r.sourceId = id := by
  have hset {rejects : Table String String} {r : SourceRecord} {rest : List SourceRecord} {diagnostic : String}
      (h : ((rejects.set r.sourceId diagnostic).get id).isSome ∨ ∃ r ∈ rest, r.sourceId = id) :
      (rejects.get id).isSome ∨ ∃ r' ∈ r :: rest, r'.sourceId = id := by
    rcases h with hold | ⟨r', hr', hid⟩
    · by_cases hsame : id = r.sourceId
      · exact .inr ⟨r, .head _, hsame.symm⟩
      · rw [Table.get_set_ne _ _ hsame] at hold
        exact .inl hold
    · exact .inr ⟨r', .tail _ hr', hid⟩
  induction records generalizing rows rejects with
  | nil =>
    cases h
    exact .inl hid
  | cons r rest ih =>
    have hkeep (h : (rejects.get id).isSome ∨ ∃ r ∈ rest, r.sourceId = id) :
        (rejects.get id).isSome ∨ ∃ r' ∈ r :: rest, r'.sourceId = id :=
      h.imp_right (fun ⟨r', hr', hid⟩ => ⟨r', .tail _ hr', hid⟩)
    unfold prepareRows at h
    split at h
    · exact hkeep (ih h)
    · split at h
      · exact hset (ih h)
      · cases h
      · split at h
        · exact hset (ih h)
        · split at h
          · exact hset (ih h)
          · exact hkeep (ih h)

/-! ### Records of one id -/

theorem mem_recordsOf {recordType : String} {r : SourceRecord} :
    r ∈ S.recordsOf recordType ↔ r ∈ S.records ∧ r.recordType = recordType := by
  simp [LoadedSource.recordsOf]

theorem names_iff {r : SourceRecord} {runRef : String} :
    r.names runRef = true ↔ r.data.getOrNull "run_id" = .str runRef ∧ runRef ≠ "" := by
  simp [SourceRecord.names]

theorem text_str (E : Setup) {s : String} (h : s ≠ "") : E.text (.str s) = s := by
  unfold Setup.text
  rw [if_pos (by simp [Value.truthy, h]), E.str_text]

/-- A score that has its id from a score of this run is a score of this run. -/
theorem same_run (hS : S.Distinct) {r r' : SourceRecord} (hr : r ∈ S.recordsOf "score") {runRef : String}
    (hr' : r' ∈ S.scoresOf runRef) (hid : r'.sourceId = r.sourceId) : scoreRef E r = runRef := by
  obtain ⟨hscore, hnames⟩ := List.mem_filter.1 hr'
  obtain ⟨hrun, hne⟩ := names_iff.1 hnames
  unfold scoreRef
  rw [hS.scores r hr r' hscore hid.symm, hrun, text_str E hne]

/-! ### What the session has noted -/

/-- The scores of a run are these. -/
def Scored (S : LoadedSource) (t : Target) (runRef : String) (rows : List ScoreRow) (rejects : Table String String) :
    Prop :=
  ∃ run, t.runs.get (importedRunId runRef) = some run ∧ ownScores S runRef run = .ok (rows, rejects)

/-- What is noted of each run is what its own scores give. -/
structure Faithful (S : LoadedSource) (noted : Table String (List ScoreRow)) (rejects : Table String String)
    (t : Target) : Prop where
  rows : ∀ runRef rows, noted.get runRef = some rows → ∃ alone, Scored S t runRef rows alone
  rejects : ∀ id, (rejects.get id).isSome ↔
    ∃ runRef rows alone, noted.get runRef = some rows ∧ Scored S t runRef rows alone ∧ (alone.get id).isSome

theorem Faithful.empty (S : LoadedSource) (t : Target) : Faithful S ∅ ∅ t where
  rows := fun _ _ h => by cases h
  rejects := by
    intro id
    constructor
    · intro h
      cases h
    · rintro ⟨_, _, _, h, _, _⟩
      cases h

variable {m n t : Target} {session : Session} {r : SourceRecord}

theorem Scored.unique {runRef : String} {rows rows' : List ScoreRow} {alone alone' : Table String String}
    (h : Scored S t runRef rows alone) (h' : Scored S t runRef rows' alone') : rows = rows' ∧ alone = alone' := by
  obtain ⟨run, hrun, hown⟩ := h
  obtain ⟨run', hrun', hown'⟩ := h'
  rw [hrun] at hrun'
  cases hrun'
  rw [hown] at hown'
  cases hown'
  exact ⟨rfl, rfl⟩

theorem ownScores_continues {run run' : Run} (h : run.Continues run') (runRef : String) :
    ownScores S runRef run' = ownScores S runRef run := by
  unfold ownScores
  rw [h]

theorem Scored.grows {runRef : String} {rows : List ScoreRow} {alone : Table String String}
    (h : Scored S m runRef rows alone) (hgrows : Grows m n) : Scored S n runRef rows alone := by
  obtain ⟨run, hrun, hown⟩ := h
  obtain ⟨run', hrun', hsame⟩ := hgrows.runs _ _ hrun
  exact ⟨run', hrun', (ownScores_continues hsame runRef).trans hown⟩

theorem Faithful.grows {noted : Table String (List ScoreRow)} {rejects : Table String String}
    (h : Faithful S noted rejects m) (hgrows : Grows m n) : Faithful S noted rejects n where
  rows := by
    intro runRef rows hrows
    obtain ⟨alone, hscored⟩ := h.rows runRef rows hrows
    exact ⟨alone, hscored.grows hgrows⟩
  rejects := by
    intro id
    rw [h.rejects id]
    constructor
    · rintro ⟨runRef, rows, alone, hrows, hscored, hid⟩
      exact ⟨runRef, rows, alone, hrows, hscored.grows hgrows, hid⟩
    · rintro ⟨runRef, rows, alone, hrows, hscored, hid⟩
      obtain ⟨alone', hscored'⟩ := h.rows runRef rows hrows
      obtain ⟨-, rfl⟩ := (hscored'.grows hgrows).unique hscored
      exact ⟨runRef, rows, _, hrows, hscored', hid⟩

/-- Who is refused under the id of a score is refused in the run of that score. -/
theorem Faithful.source (h : Faithful S session.scoreRowsByRun session.scoreRejects t) (hS : S.Distinct)
    (hr : r ∈ S.recordsOf "score") (hid : (session.scoreRejects.get r.sourceId).isSome) :
    ∃ rows alone, session.scoreRowsByRun.get (scoreRef E r) = some rows ∧ Scored S t (scoreRef E r) rows alone ∧
      (alone.get r.sourceId).isSome := by
  obtain ⟨runRef, rows, alone, hrows, hscored, hrefused⟩ := (h.rejects _).1 hid
  obtain ⟨run, hrun, hown⟩ := hscored
  rcases refused_of_prepareRows _ hown hrefused with hnone | ⟨r', hr', hsame⟩
  · cases hnone
  · have href : scoreRef E r = runRef := same_run hS hr hr' hsame
    rw [href]
    exact ⟨rows, alone, hrows, ⟨run, hrun, hown⟩, hrefused⟩

/-- The refusals that are noted stand beside those of a run that is not prepared yet. -/
theorem Faithful.beside (h : Faithful S session.scoreRowsByRun session.scoreRejects t) (hS : S.Distinct)
    (hfresh : session.scoreRowsByRun.get (scoreRef E r) = none) (run : Run) :
    (∃ e, prepareRows S run.caseIds (S.scoresOf (scoreRef E r)) [] session.scoreRejects = .error e ∧
        ownScores S (scoreRef E r) run = .error e) ∨
      ∃ rows rejects alone,
        prepareRows S run.caseIds (S.scoresOf (scoreRef E r)) [] session.scoreRejects = .ok (rows, rejects) ∧
        ownScores S (scoreRef E r) run = .ok (rows, alone) ∧
        Beside (fun id => (session.scoreRejects.get id).isSome) rejects alone := by
  refine prepareRows_beside _ (fun r' hr' hrefused => ?_) (fun id => ?_)
  · obtain ⟨rows, alone, hrows, _⟩ := h.source (E := E) hS (List.mem_filter.1 hr').1 hrefused
    rw [same_run hS (List.mem_filter.1 hr').1 hr' rfl, hfresh] at hrows
    cases hrows
  · exact ⟨.inr, fun h => h.resolve_left (fun h => by cases h)⟩

/-- **A score is found as its own run gives it**, whatever the session has prepared before. -/
theorem verdict_own (hS : S.Distinct) (h : Faithful S session.scoreRowsByRun session.scoreRejects t)
    (hr : r ∈ S.recordsOf "score") {run : Run} (hrun : t.runs.get (importedRunId (scoreRef E r)) = some run) :
    verdictOf r (preparedFor S session (scoreRef E r) run) = verdictOf r (ownScores S (scoreRef E r) run) := by
  unfold preparedFor
  split
  · rename_i rows hrows
    obtain ⟨alone, hscored⟩ := h.rows _ _ hrows
    have hown : ownScores S (scoreRef E r) run = .ok (rows, alone) := by
      obtain ⟨run', hrun', hown⟩ := hscored
      rw [hrun] at hrun'
      cases hrun'
      exact hown
    have hsame : (session.scoreRejects.get r.sourceId).isSome = (alone.get r.sourceId).isSome := by
      refine Bool.eq_iff_iff.2 ⟨fun hrefused => ?_, fun hrefused => ?_⟩
      · obtain ⟨rows', alone', hrows', hscored', hid⟩ := h.source (E := E) hS hr hrefused
        rw [(hscored.unique hscored').2]
        exact hid
      · exact (h.rejects _).2 ⟨_, rows, alone, hrows, hscored, hrefused⟩
    rw [hown]
    simp only [verdictOf, Except.map, hsame]
  · rename_i hfresh
    rcases h.beside hS hfresh run with ⟨e, hnow, hown⟩ | ⟨rows, rejects, alone, hnow, hown, hbeside⟩
    · rw [hnow, hown]
    · have hsame : (rejects.get r.sourceId).isSome = (alone.get r.sourceId).isSome := by
        refine Bool.eq_iff_iff.2 ((hbeside r.sourceId).trans (or_iff_left (fun hrefused => ?_)))
        obtain ⟨rows', alone', hrows', _⟩ := h.source (E := E) hS hr hrefused
        rw [hfresh] at hrows'
        cases hrows'
      rw [hnow, hown]
      simp only [verdictOf, Except.map, hsame]

/-- What a record notes is faithful again. -/
theorem Faithful.after (h : Faithful S session.scoreRowsByRun session.scoreRejects t) (hS : S.Distinct) :
    Faithful S (preparedAfter E S r session t).1 (preparedAfter E S r session t).2 t := by
  unfold preparedAfter
  split
  · split
    · exact h
    · rename_i run hrun
      split
      · exact h
      · rename_i hfresh
        rcases h.beside hS hfresh run with ⟨e, hnow, _⟩ | ⟨rows, rejects, alone, hnow, hown, hbeside⟩
        · rw [hnow]
          exact h
        · rw [hnow]
          have hscored : Scored S t (scoreRef E r) rows alone := ⟨run, hrun, hown⟩
          refine ⟨fun runRef rows' hrows' => ?_, fun id => ?_⟩
          · rw [Table.get_set] at hrows'
            split at hrows'
            · rename_i href
              cases hrows'
              exact ⟨alone, href ▸ hscored⟩
            · exact h.rows runRef rows' hrows'
          · refine ((hbeside id).trans (or_congr_right (h.rejects id))).trans ?_
            constructor
            · rintro (hid | ⟨runRef, rows', alone', hrows', hscored', hid⟩)
              · exact ⟨_, rows, alone, Table.get_set_self _ _ _, hscored, hid⟩
              · refine ⟨runRef, rows', alone', ?_, hscored', hid⟩
                rw [Table.get_set_ne _ _ (fun href => by rw [href, hfresh] at hrows'; cases hrows')]
                exact hrows'
            · rintro ⟨runRef, rows', alone', hrows', hscored', hid⟩
              rw [Table.get_set] at hrows'
              split at hrows'
              · rename_i href
                cases hrows'
                rw [href] at hscored'
                rw [(hscored.unique hscored').2]
                exact .inl hid
              · exact .inr ⟨runRef, rows', alone', hrows', hscored', hid⟩
  · exact h

end

end Motte.Migration
