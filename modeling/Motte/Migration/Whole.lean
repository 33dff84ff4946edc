import Motte.Migration.Scores

/-! An import without its session.

What a session notes is a function of the package and the store it began in: the artifacts
that come before the runs, and for each score what its own run gives. So an import is a
fold over the units of the package, in which a unit reads nothing but the store. -/
namespace Motte.Migration
open Foundation

section
variable (E : Setup) (S : LoadedSource)

/-- The artifacts that are committed, after one more unit. -/
def unitCommits (s : Target) (committed : Table String String) (x : SourceUnit) : Table String String :=
  match (x.decided E s).created? with
  | some r => commitsAfter E S r committed
  | none => committed

/-- The artifacts that an import into this store commits in these units. -/
def commitsOf (s : Target) (us : List SourceUnit) : Table String String := us.foldl (unitCommits E S s) ∅

/-- What an import into this store has noted once its artifacts are done. -/
def givenSession (s : Target) : Session := { committedArtifacts := commitsOf E S s (sortedUnits S) }

/-- What a unit does to the store, in an import that began in `s`. -/
def unitStep (s m : Target) (x : SourceUnit) : Except Fault Target :=
  unitEffect E S (givenSession E S s) (x.decided E s) m

/-- All units of the package, imported into this store. -/
def wholeImport (s : Target) : Except Fault Target := (sortedUnits S).foldlM (unitStep E S s) s

end

section
variable {E : Setup} {S : LoadedSource} {s m n t : Target} {w v : World} {session session' : Session} {r : SourceRecord}
variable {x : SourceUnit} {done rest us : List SourceUnit}

/-! ### The order of the units -/

theorem typeRank_le_of_sorted (h : sortedUnits S = done ++ x :: rest) {y : SourceUnit} (hy : y ∈ rest) :
    typeRank x.recordType ≤ typeRank y.recordType := by
  have hsorted : (sortedUnits S).Pairwise (fun a b => a.sortKey ≤ b.sortKey) := List.pairwise_insertionSort _ _
  rw [h] at hsorted
  have hle := (List.pairwise_cons.1 (List.pairwise_append.1 hsorted).2.1).1 y hy
  rcases Prod.Lex.toLex_le_toLex.1 hle with hlt | ⟨heq, _⟩
  · exact le_of_lt hlt
  · exact le_of_eq heq

/-- No artifact comes after a run. -/
theorem not_artifact_of_run (h : sortedUnits S = done ++ x :: rest) (hx : x.recordType = "run") {y : SourceUnit}
    (hy : y ∈ x :: rest) : y.recordType ≠ "artifact" := by
  intro hartifact
  rcases List.mem_cons.1 hy with rfl | hy
  · rw [hx] at hartifact
    exact absurd hartifact (by decide)
  · have hle := typeRank_le_of_sorted h hy
    rw [hx, hartifact] at hle
    exact absurd hle (by decide)

/-- The types of the records that are attached to a run. -/
def isAttachedType (recordType : String) : Prop :=
  recordType = "run_summary" ∨ recordType = "baseline" ∨ recordType = "score"

/-- No run comes after what is attached to runs. -/
theorem not_run_of_attached (h : sortedUnits S = done ++ x :: rest) (hx : isAttachedType x.recordType) {y : SourceUnit}
    (hy : y ∈ x :: rest) : y.recordType ≠ "run" := by
  intro hrun
  rcases List.mem_cons.1 hy with rfl | hy
  · rcases hx with h | h | h <;> rw [h] at hrun <;> exact absurd hrun (by decide)
  · have hle := typeRank_le_of_sorted h hy
    rw [hrun] at hle
    rcases hx with h | h | h <;> rw [h] at hle <;> exact absurd hle (by decide)

/-! ### What a unit reads of the session -/

/-- A record reads no more of the session than its own artifacts and scores. -/
theorem recordEffect_congr
    (hrefs : r.recordType = "run" → m.runs.get (importedRunId r.sourceId) = none →
      refsOf session.committedArtifacts r = refsOf session'.committedArtifacts r)
    (hscores : r.recordType = "score" → ∀ run, m.runs.get (importedRunId (scoreRef E r)) = some run →
      verdictOf r (preparedFor S session (scoreRef E r) run) = verdictOf r (preparedFor S session' (scoreRef E r) run)) :
    recordEffect E S session r m = recordEffect E S session' r m := by
  unfold recordEffect
  split
  · rfl
  · split
    · rename_i hrun
      unfold runEffect
      split
      · rfl
      · split
        · rfl
        · rename_i habsent
          rw [hrefs hrun habsent]
    · split
      · rfl
      · split
        · rename_i hscore
          unfold scoreEffect
          dsimp only
          split
          · rfl
          · rename_i run hfound
            rw [hscores hscore run hfound]
        · rfl

theorem unitEffect_congr {u : ImportUnit}
    (h : ∀ r, u.created? = some r → recordEffect E S session r m = recordEffect E S session' r m) :
    unitEffect E S session u m = unitEffect E S session' u m := by
  unfold unitEffect
  split
  · rfl
  · rename_i unit
    obtain ⟨record, decision, diagnostic⟩ := unit
    cases decision with
    | create => exact h record rfl
    | reused => rfl
    | conflicted => rfl
    | rejected => rfl

theorem created_record {y : SourceUnit} (h : (y.decided E s).created? = some r) : y = .record r := by
  cases y with
  | reject => cases h
  | record r' =>
    have hrecord := unitDecision_record E s r'
    simp only [SourceUnit.decided] at h
    cases hunit : unitDecision E s r' with
    | mk record decision diagnostic =>
      rw [hunit] at h hrecord
      cases hrecord
      cases decision with
      | create =>
        cases h
        rfl
      | reused => cases h
      | conflicted => cases h
      | rejected => cases h

/-- Only artifacts are committed. -/
theorem unitCommits_of_ne {y : SourceUnit} (hy : y.recordType ≠ "artifact") (committed : Table String String) :
    unitCommits E S s committed y = committed := by
  unfold unitCommits
  split
  · rename_i r hr
    cases created_record hr
    exact commitsAfter_of_ne hy committed
  · rfl

theorem foldl_unitCommits_of_ne (h : ∀ y ∈ us, y.recordType ≠ "artifact") (committed : Table String String) :
    us.foldl (unitCommits E S s) committed = committed := by
  induction us generalizing committed with
  | nil => rfl
  | cons y rest ih =>
    rw [List.foldl_cons, unitCommits_of_ne (h y (.head _)), ih (fun z hz => h z (.tail _ hz))]

/-- When a run is reached, all artifacts are committed. -/
theorem commitsOf_run (h : sortedUnits S = done ++ x :: rest) (hx : x.recordType = "run") :
    commitsOf E S s done = commitsOf E S s (sortedUnits S) := by
  unfold commitsOf
  rw [h, List.foldl_append, foldl_unitCommits_of_ne (fun y hy => not_artifact_of_run h hx hy)]

/-! ### The session of an import -/

/-- The artifacts that are committed have a place. -/
def Placed (E : Setup) (committed : Table String String) : Prop :=
  ∀ row ∈ committed.rows, ∃ path, E.place row.2 = .ok path

/-- An import that began in `s`, after these units. -/
structure Along (E : Setup) (S : LoadedSource) (s : Target) (done : List SourceUnit) (w : World) : Prop where
  committed : w.session.committedArtifacts = commitsOf E S s done
  faithful : Faithful S w.session.scoreRowsByRun w.session.scoreRejects w.target
  resolves : w.session.Resolves
  placed : Placed E w.session.committedArtifacts

theorem Along.start (E : Setup) (S : LoadedSource) (s : Target) (w : World) (h : w.session = {}) : Along E S s [] w := by
  refine ⟨?_, ?_, ?_, ?_⟩ <;> rw [h]
  · rfl
  · exact .empty S w.target
  · intro runRef runId h
    cases h
  · intro row h
    cases h

/-- The session of an import stands for what is given by the store it began in. -/
theorem Along.own (h : Along E S s done w) (hS : S.Distinct) (hsplit : sortedUnits S = done ++ x :: rest) {r : SourceRecord}
    (hr : (x.decided E s).created? = some r) :
    (r.recordType = "run" → refsOf w.session.committedArtifacts r = refsOf (givenSession E S s).committedArtifacts r) ∧
      (r.recordType = "score" → ∀ run, w.target.runs.get (importedRunId (scoreRef E r)) = some run →
        verdictOf r (preparedFor S w.session (scoreRef E r) run) =
          verdictOf r (preparedFor S (givenSession E S s) (scoreRef E r) run)) := by
  cases created_record hr
  constructor
  · intro hrun
    rw [h.committed, commitsOf_run hsplit hrun]
    rfl
  · intro hscore run hfound
    have hmem : r ∈ S.recordsOf "score" :=
      mem_recordsOf.2 ⟨mem_sortedUnits.1 (by rw [hsplit]; exact List.mem_append_right _ (.head _)), hscore⟩
    rw [verdict_own hS h.faithful hmem hfound,
      @verdict_own _ _ _ (givenSession E S s) _ hS (Faithful.empty S w.target) hmem _ hfound]

theorem Along.step_eq (h : Along E S s done w) (hS : S.Distinct) (hsplit : sortedUnits S = done ++ x :: rest) :
    unitEffect E S w.session (x.decided E s) w.target = unitStep E S s w.target x := by
  refine unitEffect_congr (fun r hr => ?_)
  obtain ⟨hrefs, hscores⟩ := h.own hS hsplit hr
  exact recordEffect_congr (fun hrun _ => hrefs hrun) hscores

theorem placed_after (h : Placed E session.committedArtifacts) (hok : recordEffect E S session r m = .ok t) :
    Placed E (commitsAfter E S r session.committedArtifacts) := by
  unfold commitsAfter
  split
  · rename_i hartifact
    split
    · exact h
    · rename_i sha content himported
      rw [recordEffect, if_pos hartifact, artifactEffect, himported] at hok
      dsimp only at hok
      split at hok
      · cases hok
      · rename_i path hplaced
        rintro ⟨sha', artifactId'⟩ hrow
        have hget := Table.get_of_mem hrow
        rw [Table.get_set] at hget
        split at hget
        · cases hget
          exact ⟨path, hplaced⟩
        · exact h _ (Table.mem_of_get hget)
  · exact h

theorem unitEffect_created {u : ImportUnit} (h : u.created? = some r) :
    unitEffect E S session u m = recordEffect E S session r m := by
  cases u with
  | loadReject => cases h
  | planned unit =>
    obtain ⟨record, decision, diagnostic⟩ := unit
    cases decision with
    | create =>
      cases h
      rfl
    | reused => cases h
    | conflicted => cases h
    | rejected => cases h

/-- One more unit of an import. -/
theorem Along.next (h : Along E S s done w) (hS : S.Distinct) (hsplit : sortedUnits S = done ++ x :: rest)
    (hok : processUnit E S (x.decided E s) w = (.ok (), v)) :
    unitStep E S s w.target x = .ok v.target ∧ Along E S s (done ++ [x]) v := by
  have hend := unit_ok h.resolves hok
  have hstep : unitStep E S s w.target x = .ok v.target := by rw [← h.step_eq hS hsplit, hend.effect]
  have hgrows : Grows w.target v.target := unitEffect_grows hend.effect
  refine ⟨hstep, ?_, ?_, hend.resolves, ?_⟩
  · rw [hend.committed v.target rfl, commitsOf, List.foldl_append, h.committed]
    rfl
  · have hprepared := hend.prepared v.target rfl
    split at hprepared
    · rename_i r _
      have hafter := (h.faithful.after (E := E) (r := r) hS).grows hgrows
      rw [← hprepared] at hafter
      exact hafter
    · have hbefore := h.faithful.grows hgrows
      rw [← (Prod.mk.inj hprepared).1, ← (Prod.mk.inj hprepared).2] at hbefore
      exact hbefore
  · have hcommitted := hend.committed v.target rfl
    split at hcommitted
    · rename_i r hr
      have hrecord : recordEffect E S w.session r w.target = .ok v.target := by
        rw [← unitEffect_created hr]
        exact hend.effect
      rw [hcommitted]
      exact placed_after h.placed hrecord
    · rw [hcommitted]
      exact h.placed

theorem Along.unit_raised (h : Along E S s done w) (hS : S.Distinct) (hsplit : sortedUnits S = done ++ x :: rest)
    {e : Fault} (herror : processUnit E S (x.decided E s) w = (.error e, v)) : unitStep E S s w.target x = .error e := by
  rw [← h.step_eq hS hsplit]
  exact (unit_error h.resolves herror).effect

/-- **An import is the fold of its units** over the store it began in. -/
theorem Along.processUnits (h : Along E S s done w) (hS : S.Distinct) (hsplit : sortedUnits S = done ++ us ++ rest) :
    (processUnits E S (us.map (SourceUnit.decided E s))).wp w
      (fun _ v => us.foldlM (unitStep E S s) w.target = .ok v.target ∧ Along E S s (done ++ us) v)
      (fun e _ => us.foldlM (unitStep E S s) w.target = .error e) := by
  induction us generalizing done w with
  | nil => exact ⟨rfl, by rw [List.append_nil]; exact h⟩
  | cons x us ih =>
    have hhead : sortedUnits S = done ++ x :: (us ++ rest) := by
      rw [hsplit, List.append_assoc, List.cons_append]
    have htail : sortedUnits S = (done ++ [x]) ++ us ++ rest := by
      rw [hhead, List.append_assoc, List.append_assoc]
      rfl
    rw [List.map_cons, List.foldlM_cons]
    refine Op.wp_bind.2 ?_
    rcases hx : processUnit E S (x.decided E s) w with ⟨e | _, v⟩
    · rw [Op.wp_of_error hx, h.unit_raised hS hhead hx]
      rfl
    · obtain ⟨hstep, halong⟩ := h.next hS hhead hx
      rw [Op.wp_of_ok hx, hstep]
      refine Op.wp_mono (ih halong htail) (fun _ u hu => ⟨hu.1, ?_⟩) (fun _ _ herror => herror)
      rw [List.append_assoc] at hu
      exact hu.2

/-! ### Stores that agree -/

/-- What is decided depends on what is imported alone. -/
theorem decided_alike (h : s.imported = t.imported) (x : SourceUnit) : x.decided E s = x.decided E t := by
  have himported (s : Target) : x.decided E s.imported = x.decided E s := by
    cases x <;> rfl
  rw [← himported s, h, himported]

theorem givenSession_alike (h : s.imported = t.imported) : givenSession E S s = givenSession E S t := by
  have hcommits : unitCommits E S s = unitCommits E S t := by
    funext committed x
    unfold unitCommits
    rw [decided_alike h]
  unfold givenSession commitsOf
  rw [hcommits]

theorem unitStep_alike (h : s.imported = t.imported) (hm : m.imported = n.imported) :
    (unitStep E S s m x).map Target.imported = (unitStep E S t n x).map Target.imported := by
  unfold unitStep
  rw [givenSession_alike h, decided_alike h]
  exact unitEffect_alike _ hm

/-- Results that agree have raised the same or left stores that agree. -/
theorem agree_iff {a b : Except Fault Target} :
    a.map Target.imported = b.map Target.imported ↔
      (∃ e, a = .error e ∧ b = .error e) ∨ ∃ m n, a = .ok m ∧ b = .ok n ∧ m.imported = n.imported := by
  cases a with
  | error e =>
    cases b with
    | error e' => simp [Except.map, eq_comm]
    | ok n => simp [Except.map]
  | ok m =>
    cases b with
    | error e' => simp [Except.map]
    | ok n => simp [Except.map]

/-- Steps that agree make folds that agree. -/
theorem fold_alike {f g : Target → SourceUnit → Except Fault Target}
    (h : ∀ x ∈ us, ∀ m n, m.imported = n.imported → (f m x).map Target.imported = (g n x).map Target.imported)
    (hm : m.imported = n.imported) : (us.foldlM f m).map Target.imported = (us.foldlM g n).map Target.imported := by
  induction us generalizing m n with
  | nil => exact congrArg Except.ok hm
  | cons x us ih =>
    rw [List.foldlM_cons, List.foldlM_cons]
    rcases agree_iff.1 (h x (.head _) m n hm) with ⟨e, hf, hg⟩ | ⟨m', n', hf, hg, hm'⟩
    · rw [hf, hg]
      rfl
    · rw [hf, hg]
      exact ih (fun y hy => h y (.tail _ hy)) hm'

theorem wholeImport_alike (h : s.imported = t.imported) :
    (wholeImport E S s).map Target.imported = (wholeImport E S t).map Target.imported :=
  fold_alike (fun _ _ _ _ hm => unitStep_alike h hm) h

end

end Motte.Migration
