import Motte.Migration.Whole

/-! One call of the import.

A call that can start ends as its units do: what it leaves is what they leave, and where
it can die is between two of them, or within one. -/
namespace Motte.Migration
open Foundation

/-- A call that is refused neither for its package nor for its batch. -/
structure Startable (S : LoadedSource) (diskHash : String) (plan : Option PlanReport) (s : Target) : Prop where
  source : checkSource S diskHash plan = .ok ()
  batch : match plan with
    | none => ∀ batch, s.imports.get S.manifest.importId = some batch → batch.manifestSha256 = S.manifest.manifestHash
    | some _ => (s.imports.get S.manifest.importId).isSome

/-- Where an import that began in `s` can be when the process dies. -/
inductive Halted (E : Setup) (S : LoadedSource) (s t : Target) : Prop
  /-- Between two units. -/
  | between {done rest : List SourceUnit} {m : Target} (split : sortedUnits S = done ++ rest)
      (past : done.foldlM (unitStep E S s) s = .ok m) (left : m.imported = t.imported)
  /-- Within a unit. -/
  | within {done rest : List SourceUnit} {m : Target} {r : SourceRecord}
      (split : sortedUnits S = done ++ .record r :: rest) (past : done.foldlM (unitStep E S s) s = .ok m)
      (pending : ((SourceUnit.record r).decided E s).created? = some r) (midway : Midway E S (givenSession E S s) r m t)

section
variable {E : Setup} {S : LoadedSource} {s m t : Target} {w v : World} {r : SourceRecord}
variable {diskHash : String} {plan : Option PlanReport}

/-! ### The parts of a call -/

/-- The batch is begun, and nothing else is done. -/
structure Began (S : LoadedSource) (w v : World) : Prop where
  imported : v.target.imported = w.target.imported
  files : v.target.files = w.target.files
  batch : (v.target.imports.get S.manifest.importId).isSome
  session : v.session = w.session
  trail : ∀ t ∈ v.trail, t ∈ w.trail ∨ t = v.target
  landings : v.landings = w.landings

theorem planImport_begins (w : World) :
    (planImport E S).wp w (fun _ v => Began S w v)
      (fun _ v => v = w ∧ ¬∀ batch, w.target.imports.get S.manifest.importId = some batch →
        batch.manifestSha256 = S.manifest.manifestHash) := by
  refine Op.wp_bind.2 (Op.wp_bind.2 (Op.wp_gets.2 ?_))
  split
  · refine Op.wp_modify.2 (Op.wp_bind.2 (Op.wp_gets.2 (Op.wp_pure.2 ?_)))
    refine ⟨rfl, rfl, ?_, rfl, fun t ht => ?_, rfl⟩
    · show ((w.target.imports.set S.manifest.importId _).get S.manifest.importId).isSome
      rw [Table.get_set_self]
      rfl
    · exact (List.mem_append.1 ht).imp_right List.mem_singleton.1
  · rename_i existing hthere
    refine Op.wp_lift.2 ⟨fun _ hsame => ?_, fun e hother => ?_⟩
    · refine Op.wp_bind.2 (Op.wp_gets.2 (Op.wp_pure.2 ?_))
      exact ⟨rfl, rfl, by rw [hthere]; rfl, rfl, fun t ht => .inl ht, rfl⟩
    · exact ⟨rfl, fun h => (ensure_error_iff.1 hother).1 (h existing hthere)⟩

theorem verifyHashes_silent {rows : List (String × String)} (h : ∀ row ∈ rows, ∃ path, E.place row.2 = .ok path)
    (v : World) : (verifyHashes E rows).wp v (fun _ v' => Silent v v') (fun _ _ => False) := by
  induction rows generalizing v with
  | nil => exact .refl v
  | cons row rest ih =>
    obtain ⟨sha, artifactId⟩ := row
    obtain ⟨path, hpath⟩ := h _ (.head _)
    have hrest : ∀ row ∈ rest, ∃ path, E.place row.2 = .ok path := fun row hrow => h row (.tail _ hrow)
    have hwarned {v u : World} (hv : Silent v u) :
        (do let _ ← verifyHashes E rest; return false : Task Bool).wp u (fun _ v' => Silent v v') (fun _ _ => False) :=
      Op.wp_bind.2 (Op.wp_mono (ih hrest u) (fun _ _ hsilent => hv.trans hsilent) (fun _ _ h => h))
    refine Op.wp_bind.2 (Op.wp_bind.2 (Op.wp_lift.2 ⟨fun path' _ => ?_, fun e herror => ?_⟩))
    · refine Op.wp_gets.2 ?_
      split
      · exact Op.wp_bind.2 (Op.wp_modify.2 (hwarned ⟨rfl, rfl, rfl, rfl, rfl, rfl, rfl⟩))
      · refine Op.wp_ite (fun _ => ?_) (fun _ => ih hrest v)
        exact Op.wp_bind.2 (Op.wp_modify.2 (hwarned ⟨rfl, rfl, rfl, rfl, rfl, rfl, rfl⟩))
    · rw [hpath] at herror
      cases herror

/-- Verifying writes nothing, and cannot fail. -/
theorem verify_silent (h : Placed E v.session.committedArtifacts) (planned : Nat) (pending : Int) (counts : Counts) :
    (verify E planned pending counts).wp v (fun _ v' => Silent v v') (fun _ _ => False) := by
  refine Op.wp_bind.2 (Op.wp_gets.2 (Op.wp_bind.2 (Op.wp_mono (verifyHashes_silent h v) (fun _ v' hv => ?_)
    (fun _ _ h => h))))
  exact Op.wp_bind.2 (Op.wp_gets.2 (Op.wp_pure.2 hv))

theorem unitEffect_imports {session : Session} {x : SourceUnit}
    (h : unitEffect E S session (x.decided E s) m = .ok t) : t.imports = m.imports := by
  have hput (row : Mapping) (n : Target) : (n.withMapping row).imports = n.imports := by
    unfold Target.withMapping
    split <;> rfl
  have hcases (runId : String) (caseIds : List String) (n : Target) :
      (n.withCases S runId caseIds).imports = n.imports := by
    induction caseIds generalizing n with
    | nil => rfl
    | cons caseId rest ih =>
      rw [withCases_cons, ih]
      unfold Target.upsertCase
      split <;> rfl
  rcases unitEffect_ok h with rfl | ⟨r, n, row, _, hn, _, _, rfl⟩
  · rfl
  · rw [hput]
    rcases hn with rfl | ⟨_, hmid⟩
    · rfl
    · cases hmid with
      | file => rfl
      | cases => exact hcases _ _ _
      | pass => rfl

theorem fold_imports {us : List SourceUnit} (h : us.foldlM (unitStep E S s) m = .ok t) : t.imports = m.imports := by
  induction us generalizing m with
  | nil =>
    cases h
    rfl
  | cons x us ih =>
    rw [List.foldlM_cons] at h
    obtain ⟨n, hn, hrest⟩ := except_bind_ok_iff.1 h
    exact (ih hrest).trans (unitEffect_imports hn)

/-! ### Where it can die -/

theorem Along.midway {done rest : List SourceUnit} (h : Along E S s done w) (hS : S.Distinct)
    (hsplit : sortedUnits S = done ++ .record r :: rest)
    (hpending : ((SourceUnit.record r).decided E s).created? = some r) (hmid : Midway E S w.session r w.target t) :
    Midway E S (givenSession E S s) r w.target t := by
  obtain ⟨hrefs, hscores⟩ := h.own hS hsplit hpending
  cases hmid with
  | file artifact imported placed => exact .file artifact imported placed
  | cases isRun status absent read split =>
    rw [hrefs isRun]
    exact .cases isRun status absent read split
  | pass isScore found verdict given absent =>
    rw [hscores isScore _ found] at verdict
    exact .pass isScore found verdict given absent

/-- Where the units can be when the process dies. -/
theorem Along.halted (h : Along E S s [] w) (hS : S.Distinct) (htarget : w.target = s)
    (ht : t ∈ (Migration.processUnits E S ((sortedUnits S).map (SourceUnit.decided E s)) w).2.trail) :
    t ∈ w.trail ∨ Halted E S s t := by
  rcases trail_located h.resolves ht with hold | ⟨done, u, rest, m, hsplit, hdone, _, hend⟩
  · exact .inl hold
  · right
    obtain ⟨done, rest', hsorted, rfl, hrest⟩ := List.map_eq_append_iff.1 hsplit
    obtain ⟨x, rest, rfl, rfl, rfl⟩ := List.map_eq_cons_iff.1 hrest
    have hrun := @Along.processUnits _ _ _ _ _ (x :: rest) done h hS (by rw [hsorted]; rfl)
    obtain ⟨hpast, halong⟩ := (Op.wp_of_ok hdone).1 hrun
    rw [htarget] at hpast
    rw [List.nil_append] at halong
    rcases hend with ⟨v, hv, rfl⟩ | ⟨r, hr, hmid⟩
    · obtain ⟨hstep, _⟩ := halong.next hS hsorted hv
      refine @Halted.between _ _ _ _ (done ++ [x]) rest v.target ?_ ?_ rfl
      · rw [hsorted, List.append_assoc]
        rfl
      · rw [List.foldlM_append, hpast]
        show [x].foldlM (unitStep E S s) m.target = _
        rw [List.foldlM_cons, hstep]
        rfl
    · cases created_record hr
      exact .within hsorted hpast hr (halong.midway hS hsorted hr hmid)

/-! ### The call -/

/-- Where a call on this store can be when the process dies. -/
def Stops (E : Setup) (S : LoadedSource) (s t : Target) : Prop := ∃ s', s'.imported = s.imported ∧ Halted E S s' t

/-- **A call that can start ends as its units do.** -/
theorem applyImport_ends (hS : S.Distinct) (diskHash : String) (plan : Option PlanReport) (s : Target) :
    (applyImport E S diskHash plan).wp { target := s }
      (fun _ v => (wholeImport E S s).map Target.imported = .ok v.target.imported ∧ ∀ t ∈ v.trail, Stops E S s t)
      (fun e v => (Startable S diskHash plan s → (wholeImport E S s).map Target.imported = .error e) ∧
        ∀ t ∈ v.trail, Stops E S s t) := by
  have hstart {v : World} (hv : Began S { target := s } v) (t : Target) (ht : t ∈ v.trail) : Stops E S s t := by
    rcases hv.trail t ht with hnone | rfl
    · cases hnone
    · exact ⟨v.target, hv.imported, @Halted.between _ _ _ _ [] (sortedUnits S) _ rfl rfl rfl⟩
  -- from the first unit on
  have hunits {v : World} (hv : v.target.imported = s.imported) (hsession : v.session = {})
      (htrail : ∀ t ∈ v.trail, Stops E S s t)
      (hbatch : Startable S diskHash plan s → (v.target.imports.get S.manifest.importId).isSome) (plan' : PlanReport) :
      Op.wp (do
        let t ← Op.gets (·.target)
        let units := orderedUnits (unitDecisions E t S)
        processUnits E S units
        let session ← Op.gets (·.session)
        let pending : Int := session.createUnits - session.counts.total
        let counts := session.counts.plus session.preDecided
        let verification ← verify E units.length pending counts
        setStatus S.manifest.importId "applied"
        let session ← Op.gets (·.session)
        return {
          importId := S.manifest.importId
          sourceSystem := S.manifest.sourceSystem
          contentSha256 := diskHash
          planned := units.length
          created := counts.created
          reused := counts.reused
          rejected := counts.rejected
          conflicted := counts.conflicted
          pending := pending
          missingArtifacts := plan'.missingArtifacts ++ session.missingArtifacts
          warnings := plan'.warnings ++ session.warnings
          diagnostics := plan'.diagnostics ++ session.diagnostics
          checkpoint := counts.created + counts.reused
          verification := verification } : Task ImportReport) v
        (fun _ v => (wholeImport E S s).map Target.imported = .ok v.target.imported ∧ ∀ t ∈ v.trail, Stops E S s t)
        (fun e v => (Startable S diskHash plan s → (wholeImport E S s).map Target.imported = .error e) ∧
          ∀ t ∈ v.trail, Stops E S s t) := by
    have halong : Along E S v.target [] v := .start E S v.target v hsession
    have hwhole : (wholeImport E S s).map Target.imported = (wholeImport E S v.target).map Target.imported :=
      wholeImport_alike hv.symm
    have hrun := @Along.processUnits _ _ _ _ _ [] (sortedUnits S) halong hS (by rw [List.append_nil]; rfl)
    have hstops (t : Target)
        (ht : t ∈ (processUnits E S ((sortedUnits S).map (SourceUnit.decided E v.target)) v).2.trail) :
        Stops E S s t := by
      rcases halong.halted hS rfl ht with hold | hhalted
      · exact htrail t hold
      · exact ⟨v.target, hv, hhalted⟩
    refine Op.wp_bind.2 (Op.wp_gets.2 ?_)
    dsimp only
    rw [orderedUnits_eq]
    refine Op.wp_bind.2 (Op.wp_mono (Op.wp_and hrun (Op.wp_of_state (Q := fun u => ∀ t ∈ u.trail, Stops E S s t) hstops))
      (fun _ u hu => ?_) (fun e u hu => ?_))
    · obtain ⟨⟨hfold, hend⟩, htrail⟩ := hu
      have hout {u' : Target} (hu' : u'.imported = u.target.imported) : Stops E S s u' :=
        ⟨v.target, hv, @Halted.between _ _ _ _ (sortedUnits S) [] _ (List.append_nil _).symm hfold hu'.symm⟩
      have hleft : (wholeImport E S s).map Target.imported = .ok u.target.imported := by
        rw [hwhole, wholeImport, hfold]
        rfl
      refine Op.wp_bind.2 (Op.wp_gets.2 (Op.wp_bind.2 (Op.wp_mono (verify_silent hend.placed _ _ _) (fun _ u' hu' => ?_)
        (fun _ _ h => h.elim))))
      refine Op.wp_bind.2 (Op.wp_bind.2 (Op.wp_gets.2 ?_))
      split
      · rename_i hlost
        refine ⟨fun hstartable => ?_, by rw [hu'.trail]; exact htrail⟩
        have hkept := hbatch hstartable
        rw [← fold_imports hfold, ← hu'.target, hlost] at hkept
        cases hkept
      · refine Op.wp_modify.2 (Op.wp_bind.2 (Op.wp_gets.2 (Op.wp_pure.2 ⟨?_, fun t ht => ?_⟩)))
        · show _ = Except.ok u'.target.imported
          rw [hleft, hu'.target]
        · rcases List.mem_append.1 ht with hold | hnew
          · exact htrail t (hu'.trail ▸ hold)
          · rw [List.mem_singleton.1 hnew]
            exact hout (by rw [← hu'.target]; rfl)
    · refine ⟨fun _ => ?_, hu.2⟩
      rw [hwhole, wholeImport, hu.1]
      rfl
  refine Op.wp_bind.2 (Op.wp_lift.2 ⟨fun _ hchecked => ?_, fun e hrefused => ?_⟩)
  · cases plan with
    | none =>
      refine Op.wp_bind.2 (Op.wp_mono (planImport_begins { target := s }) (fun plan' v hv => ?_) (fun e v hv => ?_))
      · exact hunits hv.imported hv.session (hstart hv) (fun _ => hv.batch) plan'
      · obtain ⟨rfl, hother⟩ := hv
        exact ⟨fun hstartable => absurd hstartable.batch hother, fun _ ht => by cases ht⟩
    | some plan => exact hunits rfl rfl (fun _ ht => by cases ht) (fun hstartable => hstartable.batch) plan
  · refine ⟨fun hstartable => ?_, fun _ ht => by cases ht⟩
    rw [hstartable.source] at hrefused
    cases hrefused

end

end Motte.Migration
