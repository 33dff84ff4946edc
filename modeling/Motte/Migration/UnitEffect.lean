import Motte.Migration.Effect

/-! Every unit has the effect that is said of it. -/
namespace Motte.Migration
open Foundation

section
variable {E : Setup} {S : LoadedSource} {r : SourceRecord} {w v : World}

/-- However the handler ends, the record has ended with its effect. -/
def Ends {α : Type} (E : Setup) (S : LoadedSource) (r : SourceRecord) (w : World) (x : Task α) (v : World) : Prop :=
  x.wp v (fun _ w' => Ended E S r w (.ok w'.target) w')
    (fun e w' => Ended E S r w (if e.isCaught then .ok w'.target else .error e) w')

/-- Only the mapping row is left to put. -/
structure Pending (E : Setup) (S : LoadedSource) (r : SourceRecord) (w : World) (m : Mapping) (v : World) : Prop where
  effect : recordEffect E S w.session r w.target = commitEffect m v.target
  committed : v.session.committedArtifacts = commitsAfter E S r w.session.committedArtifacts
  prepared : (v.session.scoreRowsByRun, v.session.scoreRejects) = preparedAfter E S r w.session w.target
  resolves : v.session.Resolves
  trail : ∀ t ∈ v.trail, t ∈ w.trail ∨ Midway E S w.session r w.target t
  landings : ∃ ls, v.landings = w.landings ++ ls ∧
    ∀ l ∈ ls, l = ⟨r.runRef E, importedRunId (r.runRef E)⟩ ∧ r.attached ∧ (w.target.runs.get l.runId).isSome

/-! ### The mapping row -/

theorem Pending.ended {m : Mapping} (h : Pending E S r w m v) {outcome : Except Fault Target}
    (heffect : commitEffect m v.target = outcome) {w' : World} (htarget : ∀ t, outcome = .ok t → w'.target = t)
    (hsession : w'.session = v.session) (htrail : ∀ t ∈ w'.trail, t ∈ v.trail ∨ outcome = .ok t)
    (hlandings : w'.landings = v.landings) : Ended E S r w outcome w' where
  effect := h.effect.trans heffect
  target := htarget
  committed := fun _ _ => by rw [hsession]; exact h.committed
  prepared := fun _ _ => by rw [hsession]; exact h.prepared
  resolves := by rw [hsession]; exact h.resolves
  trail := by
    intro t ht
    rcases htrail t ht with hold | hnew
    · rcases h.trail t hold with hbefore | hmid
      · exact .inl hbefore
      · exact .inr (.inr hmid)
    · exact .inr (.inl hnew)
  landings := by rw [hlandings]; exact h.landings

theorem commitRow_ends {m : Mapping} (h : Pending E S r w m v) : Ends E S r w (commitRow m) v := by
  unfold Ends commitRow
  refine Op.wp_bind.2 (Op.wp_lift.2 ⟨fun _ hvalid => ?_, fun e hinvalid => ?_⟩)
  · have hm : m.valid = true := ensure_ok_iff.1 hvalid
    refine Op.wp_bind.2 (Op.wp_gets.2 ?_)
    split
    · rename_i hfree
      have heffect : commitEffect m v.target =
          .ok { v.target with mappings := v.target.mappings.set m.mappingKey m } := by
        rw [commitEffect, if_pos hm, Target.withMapping, hfree]
      refine Op.wp_modify.2 (h.ended heffect (fun t ht => Except.ok.inj ht) rfl (fun t ht => ?_) rfl)
      rcases List.mem_append.1 ht with hold | hnew
      · exact .inl hold
      · rw [List.mem_singleton.1 hnew]
        exact .inr rfl
    · rename_i existing hbound
      have heffect : commitEffect m v.target = .ok v.target := by
        rw [commitEffect, if_pos hm, Target.withMapping, hbound]
      refine Op.wp_lift.2 ⟨fun _ _ => ?_, fun e hconflict => ?_⟩
      · exact h.ended heffect (fun t ht => Except.ok.inj ht) rfl (fun t ht => .inl ht) rfl
      · rw [← (ensure_error_iff.1 hconflict).2]
        exact h.ended heffect (fun t ht => Except.ok.inj ht) rfl (fun t ht => .inl ht) rfl
  · obtain ⟨hm, rfl⟩ := ensure_error_iff.1 hinvalid
    exact h.ended (by rw [commitEffect, if_neg hm]; rfl) (fun t ht => by cases ht) rfl (fun t ht => .inl ht) rfl

/-- Nothing is done to the store, and nothing is noted. -/
theorem Ended.still (heffect : recordEffect E S w.session r w.target = .ok w.target) (htarget : v.target = w.target)
    (hcommitted : v.session.committedArtifacts = commitsAfter E S r w.session.committedArtifacts)
    (hprepared : (v.session.scoreRowsByRun, v.session.scoreRejects) = preparedAfter E S r w.session w.target)
    (hresolves : v.session.Resolves) (htrail : v.trail = w.trail) (hlandings : v.landings = w.landings) :
    Ended E S r w (.ok v.target) v where
  effect := by rw [heffect, htarget]
  target := fun t ht => Except.ok.inj ht
  committed := fun _ _ => hcommitted
  prepared := fun _ _ => hprepared
  resolves := hresolves
  trail := fun t ht => .inl (htrail ▸ ht)
  landings := ⟨[], by rw [hlandings, List.append_nil], fun _ hl => by cases hl⟩

theorem Ends.bind {α β : Type} {x : Task α} {f : α → Task β} (hx : Ends E S r w x v)
    (hf : ∀ a w', Ended E S r w (.ok w'.target) w' → Ends E S r w (f a) w') : Ends E S r w (x >>= f) v :=
  Op.wp_bind.2 (Op.wp_mono hx (fun a w' h => hf a w' h) (fun _ _ h => h))

theorem Ends.pure {α : Type} {a : α} (h : Ended E S r w (.ok v.target) v) : Ends E S r w (Pure.pure a : Task α) v := h

/-- A record that is attached to its run. -/
theorem Ended.land (h : Ended E S r w (.ok v.target) v) (hattached : r.attached)
    (hrun : (w.target.runs.get (importedRunId (r.runRef E))).isSome) :
    Ended E S r w (.ok v.target)
      { v with landings := v.landings ++ [⟨r.runRef E, importedRunId (r.runRef E)⟩] } := {
  h with
  landings := by
    obtain ⟨ls, hls, hall⟩ := h.landings
    refine ⟨ls ++ [⟨r.runRef E, importedRunId (r.runRef E)⟩], ?_, fun l hl => ?_⟩
    · show v.landings ++ _ = _
      rw [hls, List.append_assoc]
    · rcases List.mem_append.1 hl with hold | hnew
      · exact hall l hold
      · rw [List.mem_singleton.1 hnew]
        exact ⟨rfl, hattached, hrun⟩ }

/-! ### Records that change nothing but their part -/

theorem commitsAfter_of_ne (hr : r.recordType ≠ "artifact") (committed : Table String String) :
    commitsAfter E S r committed = committed := if_neg hr

theorem preparedAfter_of_ne (hr : r.recordType ≠ "score") (session : Session) (t : Target) :
    preparedAfter E S r session t = (session.scoreRowsByRun, session.scoreRejects) := if_neg hr

theorem resolveRun_eq (hresolves : w.session.Resolves) (runRef : String) :
    ((w.session.runIdsBySource.get runRef).filter (· ≠ "")).getD (importedRunId runRef) = importedRunId runRef := by
  cases h : w.session.runIdsBySource.get runRef with
  | none => rfl
  | some runId =>
    rw [hresolves runRef runId h, Option.filter]
    split <;> rfl

theorem applyReference_ends (hresolves : w.session.Resolves) (hartifact : r.recordType ≠ "artifact")
    (hrun : r.recordType ≠ "run") (hnote : ¬(r.recordType = "run_summary" ∨ r.recordType = "baseline"))
    (hscore : r.recordType ≠ "score") : Ends E S r w (applyReference E S r) w := by
  have hpending : Pending E S r w
      (mappingOf E S r r.recordType s!"{r.recordType}:{r.sourceId}" none (some r.data)) w := {
    effect := by
      rw [recordEffect, if_neg hartifact, if_neg hrun, if_neg hnote, if_neg hscore]
      rfl
    committed := (commitsAfter_of_ne hartifact _).symm
    prepared := (preparedAfter_of_ne hscore _ _).symm
    resolves := hresolves
    trail := fun t ht => .inl ht
    landings := ⟨[], (List.append_nil _).symm, fun _ hl => by cases hl⟩ }
  exact (commitRow_ends hpending).bind (fun _ _ h => .pure h)

/-! ### Artifacts -/

theorem artifactSha_error {e : Fault} (h : artifactSha r = .error e) : e.isCaught = true := by
  unfold artifactSha at h
  split at h
  · cases h
    rfl
  · split at h
    · cases h
    · cases h
      rfl

/-- An artifact record that is refused before anything is written. -/
theorem artifact_refused (hresolves : w.session.Resolves) (hartifact : r.recordType = "artifact")
    (hrefused : importable E S r = none) {v : World} (htarget : v.target = w.target)
    (hsession : v.session.committedArtifacts = w.session.committedArtifacts ∧
      v.session.scoreRowsByRun = w.session.scoreRowsByRun ∧ v.session.scoreRejects = w.session.scoreRejects ∧
      v.session.runIdsBySource = w.session.runIdsBySource)
    (htrail : v.trail = w.trail) (hlandings : v.landings = w.landings) : Ended E S r w (.ok v.target) v := by
  obtain ⟨hcommitted, hrows, hrejects, hids⟩ := hsession
  refine .still ?_ htarget ?_ ?_ ?_ htrail hlandings
  · rw [recordEffect, if_pos hartifact, artifactEffect, hrefused]
  · rw [hcommitted, commitsAfter, if_pos hartifact, hrefused]
  · rw [hrows, hrejects, preparedAfter_of_ne (by rw [hartifact]; decide)]
  · unfold Session.Resolves
    rw [hids]
    exact hresolves

theorem storeArtifact_ends (hresolves : w.session.Resolves) (hartifact : r.recordType = "artifact") {sha : String}
    {content : Bytes} (himportable : importable E S r = some (sha, content)) (hsha : E.sha256 content = sha) :
    Ends E S r w (storeArtifact E S r sha content) w := by
  unfold storeArtifact putBytes readBytes
  refine Op.wp_bind.2 (Op.wp_bind.2 (Op.wp_lift.2 ⟨fun path hpath => ?_, fun e herror => ?_⟩))
  · cases hplace : E.place (artifactId S r) with
    | error message =>
      rw [hplace] at hpath
      cases hpath
    | ok path' =>
      rw [hplace] at hpath
      cases hpath
      have hread : (w.target.files.set path content).get path = some content := Table.get_set_self _ _ _
      refine Op.wp_modify.2 (Op.wp_bind.2 (Op.wp_bind.2 (Op.wp_lift.2 ⟨fun path' hpath' => ?_, fun _ herror => ?_⟩)))
      · cases hpath'
        refine Op.wp_gets.2 ?_
        dsimp only
        rw [hread]
        refine Op.wp_ite (fun hne => absurd hsha hne) (fun _ => Op.wp_bind.2 (Op.wp_modify.2 ?_))
        refine Ends.bind (commitRow_ends ?_) (fun _ _ h => .pure h)
        exact {
          effect := by
            rw [recordEffect, if_pos hartifact, artifactEffect, himportable]
            simp only [hplace]
            rfl
          committed := by
            rw [commitsAfter, if_pos hartifact, himportable]
          prepared := (preparedAfter_of_ne (by rw [hartifact]; decide) _ _).symm
          resolves := hresolves
          trail := by
            intro t ht
            rcases List.mem_append.1 ht with hold | hnew
            · exact .inl hold
            · rw [List.mem_singleton.1 hnew]
              exact .inr (.file hartifact himportable hplace)
          landings := ⟨[], (List.append_nil _).symm, fun _ hl => by cases hl⟩ }
      · cases herror
  · cases hplace : E.place (artifactId S r) with
    | ok path' =>
      rw [hplace] at herror
      cases herror
    | error message =>
      rw [hplace] at herror
      cases herror
      exact {
        effect := by
          rw [recordEffect, if_pos hartifact, artifactEffect, himportable]
          simp only [hplace]
          rfl
        target := fun _ ht => by cases ht
        committed := fun _ ht => by cases ht
        prepared := fun _ ht => by cases ht
        resolves := hresolves
        trail := fun t ht => .inl ht
        landings := ⟨[], (List.append_nil _).symm, fun _ hl => by cases hl⟩ }

theorem applyArtifact_ends (hresolves : w.session.Resolves) (hartifact : r.recordType = "artifact") :
    Ends E S r w (applyArtifact E S r) w := by
  refine Op.wp_bind.2 (Op.wp_lift.2 ⟨fun sha hsha => ?_, fun e herror => ?_⟩)
  · split
    · rename_i hmissing
      refine Op.wp_bind.2 (Op.wp_modify.2 ?_)
      exact artifact_refused hresolves hartifact (by rw [importable, hsha]; simp only [hmissing]) rfl
        ⟨rfl, rfl, rfl, rfl⟩ rfl rfl
    · rename_i content hcontent
      refine Op.wp_bind.2 (Op.wp_lift.2 ⟨fun _ hmatch => ?_, fun e hdiffers => ?_⟩)
      · have hsame : E.sha256 content = sha := ensure_ok_iff.1 hmatch
        exact storeArtifact_ends hresolves hartifact
          (by rw [importable, hsha]; simp only [hcontent, if_pos hsame]) hsame
      · obtain ⟨hne, rfl⟩ := ensure_error_iff.1 hdiffers
        exact artifact_refused hresolves hartifact
          (by rw [importable, hsha]; simp only [hcontent, if_neg hne]) rfl ⟨rfl, rfl, rfl, rfl⟩ rfl rfl
  · rw [if_pos (artifactSha_error herror)]
    exact artifact_refused hresolves hartifact (by rw [importable, herror]) rfl ⟨rfl, rfl, rfl, rfl⟩ rfl rfl

/-! ### Runs -/

/-- Nothing is written, and nothing noted that a later record reads. -/
structure Silent (v v' : World) : Prop where
  target : v'.target = v.target
  trail : v'.trail = v.trail
  landings : v'.landings = v.landings
  committed : v'.session.committedArtifacts = v.session.committedArtifacts
  rows : v'.session.scoreRowsByRun = v.session.scoreRowsByRun
  rejects : v'.session.scoreRejects = v.session.scoreRejects
  ids : v'.session.runIdsBySource = v.session.runIdsBySource

theorem Silent.refl (v : World) : Silent v v := ⟨rfl, rfl, rfl, rfl, rfl, rfl, rfl⟩

theorem Silent.trans {u v w : World} (h : Silent u v) (h' : Silent v w) : Silent u w where
  target := h'.target.trans h.target
  trail := h'.trail.trans h.trail
  landings := h'.landings.trans h.landings
  committed := h'.committed.trans h.committed
  rows := h'.rows.trans h.rows
  rejects := h'.rejects.trans h.rejects
  ids := h'.ids.trans h.ids

/-- A record that is refused, or found done, before anything is written or noted. -/
theorem Ended.of_silent (hsilent : Silent w v) (hresolves : w.session.Resolves)
    (heffect : recordEffect E S w.session r w.target = .ok w.target)
    (hcommitted : commitsAfter E S r w.session.committedArtifacts = w.session.committedArtifacts)
    (hprepared : preparedAfter E S r w.session w.target = (w.session.scoreRowsByRun, w.session.scoreRejects)) :
    Ended E S r w (.ok v.target) v := by
  refine .still heffect hsilent.target (hsilent.committed.trans hcommitted.symm) ?_ ?_ hsilent.trail hsilent.landings
  · rw [hsilent.rows, hsilent.rejects, hprepared]
  · unfold Session.Resolves
    rw [hsilent.ids]
    exact hresolves

theorem collectRefs_eq (runId : String) (shas : List String) (v : World) :
    (collectRefs runId shas).wp v
      (fun refs v' => refs = shas.filterMap (fun sha =>
          (v.session.committedArtifacts.get sha).map (fun artifactId => ⟨artifactId, sha, true⟩)) ∧ Silent v v')
      (fun _ _ => False) := by
  induction shas generalizing v with
  | nil => exact ⟨rfl, .refl v⟩
  | cons sha rest ih =>
    refine Op.wp_bind.2 (Op.wp_gets.2 ?_)
    split
    · rename_i hmissing
      refine Op.wp_bind.2 (Op.wp_modify.2 (Op.wp_mono (ih _) ?_ (fun _ _ h => h)))
      rintro refs v' ⟨rfl, hsilent⟩
      exact ⟨by rw [List.filterMap_cons, hmissing]; rfl, ⟨hsilent.target, hsilent.trail, hsilent.landings,
        hsilent.committed, hsilent.rows, hsilent.rejects, hsilent.ids⟩⟩
    · rename_i artifactId hfound
      refine Op.wp_bind.2 (Op.wp_mono (ih v) ?_ (fun _ _ h => h))
      rintro refs v' ⟨rfl, hsilent⟩
      exact ⟨by rw [List.filterMap_cons, hfound]; rfl, hsilent⟩

theorem withCases_cons (t : Target) (runId caseId : String) (rest : List String) :
    t.withCases S runId (caseId :: rest) = (t.upsertCase runId caseId (caseRowOf S caseId)).withCases S runId rest := rfl

theorem upsertCases_eq (runId : String) (caseIds : List String) (v : World) :
    (upsertCases S runId caseIds).wp v
      (fun _ v' => v'.target = v.target.withCases S runId caseIds ∧ v'.session = v.session ∧
        v'.landings = v.landings ∧
        ∀ t ∈ v'.trail, t ∈ v.trail ∨
          ∃ upserted rest, caseIds = upserted ++ rest ∧ t = v.target.withCases S runId upserted)
      (fun _ _ => False) := by
  induction caseIds generalizing v with
  | nil => exact ⟨rfl, rfl, rfl, fun t ht => .inl ht⟩
  | cons caseId rest ih =>
    refine Op.wp_bind.2 (Op.wp_modify.2 (Op.wp_mono (ih _) ?_ (fun _ _ h => h)))
    rintro _ v' ⟨htarget, hsession, hlandings, htrail⟩
    refine ⟨htarget, hsession, hlandings, fun t ht => ?_⟩
    rcases htrail t ht with hold | ⟨upserted, rest', rfl, rfl⟩
    · rcases List.mem_append.1 hold with hold | hnew
      · exact .inl hold
      · exact .inr ⟨[caseId], rest, rfl, List.mem_singleton.1 hnew⟩
    · exact .inr ⟨caseId :: upserted, rest', rfl, rfl⟩

theorem caseIdsOf_error {e : Fault} (h : caseIdsOf r = .error e) : e.isCaught = false := by
  unfold caseIdsOf at h
  cases hlist : (r.data.getOrNull "case_ids").list with
  | ok items =>
    rw [hlist] at h
    cases h
  | error access =>
    rw [hlist] at h
    cases h
    cases access <;> rfl

theorem Session.Resolves.note {session : Session} (h : session.Resolves) (sourceId : String) :
    Session.Resolves { session with
      runIdsBySource := session.runIdsBySource.set sourceId (importedRunId sourceId) } := by
  intro runRef runId hget
  rw [Table.get_set] at hget
  split at hget
  · rename_i heq
    cases hget
    rw [heq]
  · exact h runRef runId hget

theorem run_ne_artifact (hrun : r.recordType = "run") : r.recordType ≠ "artifact" := by
  rw [hrun]
  decide

theorem run_ne_score (hrun : r.recordType = "run") : r.recordType ≠ "score" := by
  rw [hrun]
  decide

theorem recordEffect_run (hrun : r.recordType = "run") (session : Session) (t : Target) :
    recordEffect E S session r t = runEffect E S (refsOf session.committedArtifacts r) r t := by
  rw [recordEffect, if_neg (run_ne_artifact hrun), if_pos hrun]

theorem createImported_ends (hresolves : w.session.Resolves) (hrun : r.recordType = "run")
    (hstatus : r.status E ∈ terminalRunStatuses) (habsent : w.target.runs.get (importedRunId r.sourceId) = none) :
    Ends E S r w (createImported E S r) w := by
  have heffect : recordEffect E S w.session r w.target = (caseIdsOf r).bind (fun caseIds =>
      commitEffect (runRow E S r) ((w.target.withRun
        (runOf E S r caseIds (refsOf w.session.committedArtifacts r))).withCases S (importedRunId r.sourceId) caseIds)) := by
    rw [recordEffect_run hrun, runEffect, if_neg (not_not.2 hstatus), habsent]
    cases caseIdsOf r <;> rfl
  refine Op.wp_bind.2 (Op.wp_lift.2 ⟨fun caseIds hread => ?_, fun e herror => ?_⟩)
  · refine Op.wp_bind.2 (Op.wp_mono (collectRefs_eq _ _ w) ?_ (fun _ _ h => h.elim))
    rintro refs v ⟨hrefs, hsilent⟩
    have hrefs' : refs = refsOf w.session.committedArtifacts r := hrefs
    subst hrefs'
    refine Op.wp_bind.2 (Op.wp_bind.2 (Op.wp_gets.2 ?_))
    have hfree : v.target.runs.get (runOf E S r caseIds (refsOf w.session.committedArtifacts r)).id = none := by
      rw [hsilent.target]
      exact habsent
    rw [hfree]
    refine Op.wp_modify.2 (Op.wp_bind.2 (Op.wp_mono (upsertCases_eq _ _ _) ?_ (fun _ _ h => h.elim)))
    rintro _ u ⟨htarget, hsession, hlandings, htrail⟩
    refine Op.wp_bind.2 (Op.wp_modify.2 (Op.wp_bind.2 (Op.wp_modify.2 ?_)))
    refine Ends.bind (commitRow_ends ?_) (fun _ _ h => .pure h)
    have hmid (t : Target) (ht : t ∈ u.trail) : t ∈ w.trail ∨ Midway E S w.session r w.target t := by
      rcases htrail t ht with hold | ⟨upserted, rest, hsplit, rfl⟩
      · rcases List.mem_append.1 hold with hold | hnew
        · exact .inl (hsilent.trail ▸ hold)
        · refine .inr ?_
          rw [List.mem_singleton.1 hnew, hsilent.target]
          exact .cases hrun hstatus habsent hread (show _ = [] ++ _ from rfl)
      · refine .inr ?_
        rw [hsilent.target]
        exact .cases hrun hstatus habsent hread hsplit
    exact {
      effect := by
        rw [heffect, hread]
        show commitEffect (runRow E S r) _ = commitEffect (runRow E S r) u.target
        rw [htarget, hsilent.target]
        rfl
      committed := by
        rw [commitsAfter_of_ne (run_ne_artifact hrun)]
        show u.session.committedArtifacts = _
        rw [hsession]
        exact hsilent.committed
      prepared := by
        rw [preparedAfter_of_ne (run_ne_score hrun)]
        show (u.session.scoreRowsByRun, u.session.scoreRejects) = _
        rw [hsession]
        exact Prod.ext hsilent.rows hsilent.rejects
      resolves := by
        have hv : u.session.Resolves := by
          rw [hsession]
          unfold Session.Resolves
          rw [show v.session.runIdsBySource = w.session.runIdsBySource from hsilent.ids]
          exact hresolves
        exact hv.note r.sourceId
      trail := hmid
      landings := ⟨[], by
        show u.landings = _
        rw [hlandings, List.append_nil]
        exact hsilent.landings, fun _ hl => by cases hl⟩ }
  · rw [if_neg (by rw [caseIdsOf_error herror]; decide)]
    exact {
      effect := by
        rw [heffect, herror]
        rfl
      target := fun _ ht => by cases ht
      committed := fun _ ht => by cases ht
      prepared := fun _ ht => by cases ht
      resolves := hresolves
      trail := fun t ht => .inl ht
      landings := ⟨[], (List.append_nil _).symm, fun _ hl => by cases hl⟩ }

/-- A state that is terminal is none of those in flight. -/
theorem terminal_not_inFlight {status : String} (h : status ∈ terminalRunStatuses) : status ∉ inFlightRunStatuses := by
  intro hflight
  simp only [terminalRunStatuses, inFlightRunStatuses, List.mem_cons, List.not_mem_nil, or_false] at h hflight
  rcases h with rfl | rfl | rfl <;> simp at hflight

theorem applyRun_ends (hresolves : w.session.Resolves) (hrun : r.recordType = "run") :
    Ends E S r w (applyRun E S r) w := by
  have hrefused (heffect : runEffect E S (refsOf w.session.committedArtifacts r) r w.target = .ok w.target) :
      Ended E S r w (.ok w.target) w :=
    .of_silent (.refl w) hresolves ((recordEffect_run hrun _ _).trans heffect)
      (commitsAfter_of_ne (run_ne_artifact hrun) _) (preparedAfter_of_ne (run_ne_score hrun) _ _)
  have hbad (h : r.status E ∉ terminalRunStatuses) :
      runEffect E S (refsOf w.session.committedArtifacts r) r w.target = .ok w.target := by
    rw [runEffect, if_pos h]
  refine Op.wp_bind.2 (Op.wp_lift.2 ⟨fun _ _ => ?_, fun e hflight => ?_⟩)
  · refine Op.wp_bind.2 (Op.wp_lift.2 ⟨fun _ hterminal => ?_, fun e hunknown => ?_⟩)
    · have hstatus : r.status E ∈ terminalRunStatuses := ensure_ok_iff.1 hterminal
      refine Op.wp_bind.2 (Op.wp_gets.2 ?_)
      split
      · rename_i habsent
        exact createImported_ends hresolves hrun hstatus habsent
      · rename_i run hfound
        refine Op.wp_ite (fun hsame => ?_) (fun hdiffers => ?_)
        · refine Op.wp_bind.2 (Op.wp_modify.2 (Ends.bind (commitRow_ends ?_) (fun _ _ h => .pure h)))
          exact {
            effect := by
              rw [recordEffect_run hrun, runEffect, if_neg (not_not.2 hstatus), hfound]
              simp only [if_pos hsame]
              rfl
            committed := (commitsAfter_of_ne (run_ne_artifact hrun) _).symm
            prepared := (preparedAfter_of_ne (run_ne_score hrun) _ _).symm
            resolves := hresolves.note r.sourceId
            trail := fun t ht => .inl ht
            landings := ⟨[], (List.append_nil _).symm, fun _ hl => by cases hl⟩ }
        · refine hrefused ?_
          rw [runEffect, if_neg (not_not.2 hstatus), hfound]
          simp only [if_neg hdiffers]
    · obtain ⟨hother, rfl⟩ := ensure_error_iff.1 hunknown
      exact hrefused (hbad hother)
  · obtain ⟨hin, rfl⟩ := ensure_error_iff.1 hflight
    exact hrefused (hbad (fun hterminal => hin (terminal_not_inFlight hterminal)))

/-! ### Annotations -/

theorem recordEffect_note (hnote : r.recordType = "run_summary" ∨ r.recordType = "baseline")
    (session : Session) (t : Target) : recordEffect E S session r t = annotationEffect E S r t := by
  rw [recordEffect, if_neg (by rcases hnote with h | h <;> rw [h] <;> decide),
    if_neg (by rcases hnote with h | h <;> rw [h] <;> decide), if_pos hnote]

theorem applyRunAnnotation_ends (hresolves : w.session.Resolves)
    (hnote : r.recordType = "run_summary" ∨ r.recordType = "baseline") :
    Ends E S r w ( applyRunAnnotation E S r) w := by
  have hartifact : r.recordType ≠ "artifact" := by rcases hnote with h | h <;> rw [h] <;> decide
  have hscore : r.recordType ≠ "score" := by rcases hnote with h | h <;> rw [h] <;> decide
  have hattached : r.attached := by
    rcases hnote with h | h <;> simp [SourceRecord.attached, h]
  have href : r.runRef E = annotationRef E r := if_neg hscore
  have hrefused (heffect : annotationEffect E S r w.target = .ok w.target) : Ended E S r w (.ok w.target) w :=
    .of_silent (.refl w) hresolves ((recordEffect_note hnote _ _).trans heffect)
      (commitsAfter_of_ne hartifact _) (preparedAfter_of_ne hscore _ _)
  refine Op.wp_bind.2 (Op.wp_gets.2 ?_)
  rw [resolveRun_eq hresolves]
  refine Op.wp_bind.2 (Op.wp_gets.2 ?_)
  split
  · rename_i hmissing
    exact hrefused (by rw [annotationEffect]; simp only [annotationRef, hmissing])
  · rename_i run hfound
    refine Op.wp_bind.2 (Op.wp_lift.2 ⟨fun _ hmarked => ?_, fun e hunmarked => ?_⟩)
    · have hkey : run.annotated r.recordType = true := ensure_ok_iff.1 hmarked
      refine Ends.bind (commitRow_ends ?_) (fun _ u hu => ?_)
      · exact {
          effect := by
            rw [recordEffect_note hnote, annotationEffect]
            simp only [annotationRef, hfound, if_pos hkey]
          committed := (commitsAfter_of_ne hartifact _).symm
          prepared := (preparedAfter_of_ne hscore _ _).symm
          resolves := hresolves
          trail := fun t ht => .inl ht
          landings := ⟨[], (List.append_nil _).symm, fun _ hl => by cases hl⟩ }
      · refine Op.wp_bind.2 (Op.wp_modify.2 (Op.wp_pure.2 ?_))
        have hland := hu.land hattached (by rw [href, annotationRef, hfound]; rfl)
        rw [href] at hland
        exact hland
    · obtain ⟨hkey, rfl⟩ := ensure_error_iff.1 hunmarked
      exact hrefused (by rw [annotationEffect]; simp only [annotationRef, hfound, if_neg hkey])

/-! ### Scores -/

theorem scoreRow_error {e : Fault} (h : scoreRow S r = .error e) : (∃ d, e = .rejected d) ∨ e = .overflow := by
  unfold scoreRow at h
  split at h
  · split at h
    · cases h
      exact .inl ⟨_, rfl⟩
    · cases hnumber : finiteNumber (r.data.getOrNull "value") with
      | ok value =>
        rw [hnumber] at h
        cases h
      | error fault =>
        rw [hnumber] at h
        cases h
        unfold finiteNumber at hnumber
        split at hnumber
        · split at hnumber
          · cases hnumber
            exact .inr rfl
          · cases hnumber
        · cases hnumber
        · cases hnumber
  · cases h
    exact .inl ⟨_, rfl⟩

theorem prepareRows_error {caseIds : List String} {records : List SourceRecord} {rows : List ScoreRow}
    {rejects : Table String String} {e : Fault} (h : prepareRows S caseIds records rows rejects = .error e) :
    e = .overflow := by
  induction records generalizing rows rejects with
  | nil => cases h
  | cons r rest ih =>
    unfold prepareRows at h
    split at h
    · exact ih h
    · split at h
      · exact ih h
      · rename_i fault hnot hrow
        cases h
        rcases scoreRow_error hrow with ⟨d, rfl⟩ | rfl
        · exact (hnot d rfl).elim
        · rfl
      · split at h
        · exact ih h
        · split at h
          · exact ih h
          · exact ih h

/-- The scores of the run are prepared, and noted. -/
structure Prepared (E : Setup) (S : LoadedSource) (r : SourceRecord) (w : World) (run : Run) (rows : List ScoreRow)
    (v : World) : Prop where
  target : v.target = w.target
  trail : v.trail = w.trail
  landings : v.landings = w.landings
  committed : v.session.committedArtifacts = w.session.committedArtifacts
  ids : v.session.runIdsBySource = w.session.runIdsBySource
  ready : preparedFor S w.session (scoreRef E r) run = .ok (rows, v.session.scoreRejects)
  noted : (v.session.scoreRowsByRun, v.session.scoreRejects) = preparedAfter E S r w.session w.target

theorem prepareScoreRows_eq (hscore : r.recordType = "score") {run : Run}
    (hrun : w.target.runs.get (importedRunId (scoreRef E r)) = some run) :
    (prepareScoreRows S (scoreRef E r) run).wp w (fun rows v => Prepared E S r w run rows v)
      (fun e v => v = w ∧ e = .overflow ∧ preparedFor S w.session (scoreRef E r) run = .error e) := by
  refine Op.wp_bind.2 (Op.wp_gets.2 ?_)
  split
  · rename_i rows hcached
    refine Op.wp_pure.2 ⟨rfl, rfl, rfl, rfl, rfl, by rw [preparedFor, hcached], ?_⟩
    rw [preparedAfter, if_pos hscore, hrun]
    simp only [hcached]
  · rename_i hfresh
    refine Op.wp_bind.2 (Op.wp_gets.2 (Op.wp_bind.2 (Op.wp_lift.2 ⟨fun prepared hprepared => ?_, fun e herror => ?_⟩)))
    · refine Op.wp_bind.2 (Op.wp_modify.2 (Op.wp_pure.2 ⟨rfl, rfl, rfl, rfl, rfl, ?_, ?_⟩))
      · rw [preparedFor, hfresh]
        exact hprepared
      · rw [preparedAfter, if_pos hscore, hrun]
        simp only [hfresh, hprepared]
    · exact ⟨rfl, prepareRows_error herror, by rw [preparedFor, hfresh]; exact herror⟩

theorem recordEffect_score (hscore : r.recordType = "score") (session : Session) (t : Target) :
    recordEffect E S session r t =
      scoreEffect E S (fun run => verdictOf r (preparedFor S session (scoreRef E r) run)) r t := by
  rw [recordEffect, if_neg (by rw [hscore]; decide), if_neg (by rw [hscore]; decide),
    if_neg (by rw [hscore]; decide), if_pos hscore]

theorem applyScore_ends (hresolves : w.session.Resolves) (hscore : r.recordType = "score") :
    Ends E S r w (applyScore E S r) w := by
  have hartifact : r.recordType ≠ "artifact" := by rw [hscore]; decide
  have href : r.runRef E = scoreRef E r := if_pos hscore
  have hattached : r.attached := by simp [SourceRecord.attached, hscore]
  refine Op.wp_bind.2 (Op.wp_gets.2 ?_)
  rw [resolveRun_eq hresolves]
  refine Op.wp_bind.2 (Op.wp_gets.2 ?_)
  split
  · rename_i hmissing
    refine Ended.of_silent (.refl w) hresolves ?_ (commitsAfter_of_ne hartifact _) ?_
    · rw [recordEffect_score hscore, scoreEffect]
      simp only [scoreRef, hmissing]
    · rw [preparedAfter, if_pos hscore]
      simp only [scoreRef, hmissing]
  · rename_i run hfound
    have hfound' : w.target.runs.get (importedRunId (scoreRef E r)) = some run := hfound
    refine Op.wp_bind.2 (Op.wp_mono (prepareScoreRows_eq hscore hfound') (fun rows v hprepared => ?_) ?_)
    · have hresolves' : v.session.Resolves := by
        unfold Session.Resolves
        rw [hprepared.ids]
        exact hresolves
      have hverdict (verdict : Option (List ScoreRow))
          (h : (if (v.session.scoreRejects.get r.sourceId).isSome then none else some rows) = verdict) :
          verdictOf r (preparedFor S w.session (scoreRef E r) run) = .ok verdict := by
        rw [hprepared.ready, ← h]
        rfl
      refine Op.wp_bind.2 (Op.wp_gets.2 ?_)
      split
      · rename_i diagnostic hreject
        refine .still ?_ hprepared.target ?_ hprepared.noted hresolves' hprepared.trail hprepared.landings
        · rw [recordEffect_score hscore, scoreEffect]
          simp only [hfound', hverdict none (by rw [hreject]; rfl)]
        · rw [hprepared.committed, commitsAfter_of_ne hartifact]
      · rename_i haccepted
        have hok := hverdict (some rows) (by rw [haccepted]; rfl)
        have heffect : recordEffect E S w.session r w.target =
            commitEffect (mappingOf E S r "score" s!"{passIdOf (importedRunId (scoreRef E r))}:{r.sourceId}" none none)
              (if rows ≠ [] ∧ (w.target.passes.get (passIdOf (importedRunId (scoreRef E r)))).isNone
                then w.target.appendPass (passOf S (importedRunId (scoreRef E r)) rows) run else w.target) := by
          rw [recordEffect_score hscore, scoreEffect]
          simp only [hfound', hok]
        have hcommit {u : World} (hpending : Pending E S r w
            (mappingOf E S r "score" s!"{passIdOf (importedRunId (scoreRef E r))}:{r.sourceId}" none none) u) :
            Ends E S r w (do
              commit E S r "score" s!"{passIdOf (importedRunId (scoreRef E r))}:{r.sourceId}" none none
              land (scoreRef E r) (importedRunId (scoreRef E r))
              return Outcome.created) u := by
          refine Ends.bind (commitRow_ends hpending) (fun _ u' hu' => ?_)
          refine Op.wp_bind.2 (Op.wp_modify.2 (Op.wp_pure.2 ?_))
          have hland := hu'.land hattached (by rw [href, hfound']; rfl)
          rw [href] at hland
          exact hland
        refine Op.wp_bind.2 (Op.wp_bind.2 (Op.wp_gets.2 (Op.wp_ite (fun hnew => ?_) (fun hold => ?_))))
        · -- the pass of the run is appended
          obtain ⟨hgiven, habsent⟩ := hnew
          have habsent' : w.target.passes.get (passIdOf (importedRunId (scoreRef E r))) = none := by
            rw [hprepared.target] at habsent
            exact Option.isNone_iff_eq_none.1 habsent
          have hcurrent : v.target.runs.get (passOf S (importedRunId (scoreRef E r)) rows).runId = some run := by
            rw [hprepared.target]
            exact hfound'
          refine Op.wp_bind.2 (Op.wp_bind.2 (Op.wp_gets.2 (Op.wp_bind.2 (Op.wp_lift.2 ⟨fun _ _ => ?_, fun e htaken => ?_⟩))))
          · refine Op.wp_bind.2 (Op.wp_gets.2 ?_)
            rw [show v.target.runs.get (passOf S (importedRunId (E.text (r.data.getOrNull "run_id"))) rows).runId =
              some run from hcurrent]
            refine Op.wp_bind.2 (Op.wp_lift.2 ⟨fun _ _ => Op.wp_modify.2 (Op.wp_modify.2 (hcommit ?_)), fun e hchanged => ?_⟩)
            · exact {
                effect := by
                  rw [heffect, if_pos ⟨hgiven, by rw [habsent']; rfl⟩, ← hprepared.target]
                  rfl
                committed := by
                  rw [commitsAfter_of_ne hartifact]
                  exact hprepared.committed
                prepared := hprepared.noted
                resolves := hresolves'
                trail := by
                  intro t ht
                  rcases List.mem_append.1 ht with hold | hnew
                  · exact .inl (hprepared.trail ▸ hold)
                  · refine .inr ?_
                    rw [List.mem_singleton.1 hnew, hprepared.target]
                    exact .pass hscore hfound' hok hgiven habsent'
                landings := by
                  refine ⟨[⟨scoreRef E r, importedRunId (scoreRef E r)⟩], ?_, fun l hl => ?_⟩
                  · show v.landings ++ _ = _
                    rw [hprepared.landings]
                    rfl
                  · rw [List.mem_singleton.1 hl, href]
                    exact ⟨rfl, hattached, by rw [hfound']; rfl⟩ }
            · exact absurd ⟨rfl, rfl⟩ (ensure_error_iff.1 hchanged).1
          · exact absurd habsent (ensure_error_iff.1 htaken).1
        · refine Op.wp_pure.2 (hcommit ?_)
          have hsame : ¬(rows ≠ [] ∧ (w.target.passes.get (passIdOf (importedRunId (scoreRef E r)))).isNone) := by
            rw [← hprepared.target]
            exact hold
          exact {
            effect := by rw [heffect, if_neg hsame, hprepared.target]
            committed := by rw [hprepared.committed, commitsAfter_of_ne hartifact]
            prepared := hprepared.noted
            resolves := hresolves'
            trail := fun t ht => .inl (hprepared.trail ▸ ht)
            landings := ⟨[], by rw [hprepared.landings, List.append_nil], fun _ hl => by cases hl⟩ }
    · rintro e v ⟨rfl, rfl, herror⟩
      exact {
        effect := by
          rw [recordEffect_score hscore, scoreEffect]
          simp only [hfound', herror]
          rfl
        target := fun _ ht => by cases ht
        committed := fun _ ht => by cases ht
        prepared := fun _ ht => by cases ht
        resolves := hresolves
        trail := fun t ht => .inl ht
        landings := ⟨[], (List.append_nil _).symm, fun _ hl => by cases hl⟩ }

/-! ### Units -/

theorem applyRecord_ends (hresolves : w.session.Resolves) (r : SourceRecord) : Ends E S r w (applyRecord E S r) w := by
  refine Op.wp_ite (fun hartifact => applyArtifact_ends hresolves hartifact) (fun hartifact => ?_)
  refine Op.wp_ite (fun hrun => applyRun_ends hresolves hrun) (fun hrun => ?_)
  refine Op.wp_ite (fun hnote => applyRunAnnotation_ends hresolves hnote) (fun hnote => ?_)
  refine Op.wp_ite (fun hscore => applyScore_ends hresolves hscore) (fun hscore => ?_)
  exact applyReference_ends hresolves hartifact hrun hnote hscore

/-- Counting and diagnosing change nothing that is read again. -/
theorem Ended.silent (h : Ended E S r w (.ok v.target) v) {u : World} (hsilent : Silent v u) :
    Ended E S r w (.ok u.target) u where
  effect := by rw [hsilent.target]; exact h.effect
  target := fun t ht => Except.ok.inj ht
  committed := fun _ _ => hsilent.committed.trans (h.committed _ rfl)
  prepared := fun _ _ => by rw [hsilent.rows, hsilent.rejects]; exact h.prepared _ rfl
  resolves := by
    unfold Session.Resolves
    rw [hsilent.ids]
    exact h.resolves
  trail := by
    rw [hsilent.target, hsilent.trail]
    exact h.trail
  landings := by rw [hsilent.landings]; exact h.landings

/-- A unit that is to be created: what is refused in it does not end the import. -/
theorem applyUnit_ends (hresolves : w.session.Resolves) (r : SourceRecord) :
    (applyUnit E S r).wp w (fun _ w' => Ended E S r w (.ok w'.target) w')
      (fun e w' => Ended E S r w (.error e) w') := by
  refine Op.wp_bind.2 (Op.wp_result_iff.2 (Op.wp_mono (applyRecord_ends hresolves r) (fun outcome v h => ?_) (fun e v h => ?_)))
  · exact Op.wp_modify.2 (h.silent ⟨rfl, rfl, rfl, rfl, rfl, rfl, rfl⟩)
  · have hsilent (u : World) (hu : Silent v u) (hcaught : e.isCaught = true) : Ended E S r w (.ok u.target) u := by
      rw [if_pos hcaught] at h
      exact h.silent hu
    cases e with
    | rejected | conflicted | mappingConflict =>
      exact Op.wp_bind.2 (Op.wp_modify.2 (Op.wp_modify.2 (hsilent _ ⟨rfl, rfl, rfl, rfl, rfl, rfl, rfl⟩ rfl)))
    | importConflict | sourceChanged | runConflict | notConfirmed | key | value | attributeError | typeError | overflow =>
      exact h

end

end Motte.Migration
