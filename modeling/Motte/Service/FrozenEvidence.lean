import Motte.Trace.Collection

/-! The evidence that a settled external job keeps, and the collector.

A settlement freezes the raw output of the job and the outcome as artifacts and
records both in the job's checkpoint. Whether the collector of artifact
references finds them there depends on the keys they are recorded under. -/
namespace Motte.Service
open Foundation Trace

/-- An artifact as it was stored, under a path. -/
structure FrozenArtifact where
  id : String
  sha256 : String
  named : id ≠ ""

/-- Where the raw output comes from when a job is settled for the first time. -/
inductive RawEvidence where
  /-- bytes that were frozen before they were parsed -/
  | frozen (artifact hash : Value) (files : Value) (complete : Bool)
  /-- the working directory, read again after the parse -/
  | bundled (bundle : FrozenArtifact) (files : List String) (complete : Bool)

/-- What `_settle` records of the raw output. -/
def rawMembers : RawEvidence → List (String × Value)
  | .frozen artifact hash files complete =>
    [("raw_bundle_artifact", artifact), ("raw_bundle_hash", hash), ("raw_files", files), ("complete", .bool complete),
      ("frozen_before_parse", .bool true)]
  | .bundled bundle files complete =>
    [("raw_bundle_artifact", .str bundle.id), ("raw_bundle_sha256", .str bundle.sha256),
      ("raw_files", .arr (files.map .str)), ("complete", .bool complete), ("frozen_before_parse", .bool false)]

/-- What it records of the outcome, if there is an artifact store. -/
def outcomeMembers : Option FrozenArtifact → List (String × Value)
  | none => []
  | some outcome => [("outcome_artifact", .str outcome.id), ("outcome_sha256", .str outcome.sha256)]

def evidenceMembers (raw : RawEvidence) (outcome : Option FrozenArtifact) : List (String × Value) :=
  rawMembers raw ++ outcomeMembers outcome

/-- The parts of a job that are not its evidence. -/
structure JobParts where
  jobId : String
  runId : String
  status : String
  launchToken : String
  spec : Value
  handle : Value
  /-- the members of the checkpoint on both sides of the evidence -/
  before : List (String × Value)
  after : List (String × Value)
  createdAt : String
  updatedAt : String

/-- The stored job. -/
def jobRecord (job : JobParts) (evidence : List (String × Value)) : Value :=
  .obj [("job_id", .str job.jobId), ("run_id", .str job.runId), ("status", .str job.status),
    ("launch_token", .str job.launchToken), ("spec", job.spec), ("handle", job.handle),
    ("checkpoint", .obj (job.before ++ ("evidence", .obj evidence) :: job.after)),
    ("created_at", .str job.createdAt), ("updated_at", .str job.updatedAt)]

/-- The artifacts that the evidence records. -/
def recordedArtifacts (evidence : List (String × Value)) : List String :=
  ["raw_bundle_artifact", "outcome_artifact"].filterMap (Value.obj evidence).textAt?

/-- The file is among the references. -/
def Referenced (refs : References) (id : String) : Prop :=
  ∃ file, canonicalArtifactId id = some file ∧ refs.refs.get file ≠ none

/-- The record names the file. -/
def Names (record : Value) (id : String) : Prop :=
  ∃ m ∈ mentions false record, ∃ file, canonicalArtifactId id = some file ∧ m.id? = some file

/-! ### What the collector finds in a job -/

variable {job : JobParts} {raw : RawEvidence} {outcome : Option FrozenArtifact} {refs : References}

/-- The two keys of the outcome say nothing to the collector. -/
theorem mentions_evidence (raw : RawEvidence) (outcome : Option FrozenArtifact) :
    mentions false (.obj (evidenceMembers raw outcome)) = mentions false (.obj (rawMembers raw)) := by
  cases outcome with
  | none => rw [evidenceMembers, outcomeMembers, List.append_nil]
  | some outcome =>
    rw [mentions, mentions, evidenceMembers, memberMentions_append]
    cases raw <;> exact List.append_nil _

theorem mentions_job (job : JobParts) (raw : RawEvidence) (outcome : Option FrozenArtifact) :
    mentions false (jobRecord job (evidenceMembers raw outcome)) = mentions false (jobRecord job (rawMembers raw)) := by
  have plain : saysArtifact "evidence" = false ∧ saysArtifact "checkpoint" = false := by decide
  have evidence (digest : Option String) :
      memberMentions digest [("evidence", .obj (evidenceMembers raw outcome))] =
        memberMentions digest [("evidence", .obj (rawMembers raw))] := by
    simp only [memberMentions, plain.1, mentions_evidence raw outcome]
  have checkpoint (digest : Option String) :
      memberMentions digest
          [("checkpoint", .obj (job.before ++ ("evidence", .obj (evidenceMembers raw outcome)) :: job.after))] =
        memberMentions digest [("checkpoint", .obj (job.before ++ ("evidence", .obj (rawMembers raw)) :: job.after))] := by
    have inner : mentions false (.obj (job.before ++ ("evidence", .obj (evidenceMembers raw outcome)) :: job.after)) =
        mentions false (.obj (job.before ++ ("evidence", .obj (rawMembers raw)) :: job.after)) :=
      mentions_replace (by decide) evidence
    simp only [memberMentions, plain.2, inner]
  let head : List (String × Value) := [("job_id", .str job.jobId), ("run_id", .str job.runId), ("status", .str job.status),
    ("launch_token", .str job.launchToken), ("spec", job.spec), ("handle", job.handle)]
  let tail : List (String × Value) := [("created_at", .str job.createdAt), ("updated_at", .str job.updatedAt)]
  have outer : mentions false (.obj (head ++ ("checkpoint", _) :: tail)) =
      mentions false (.obj (head ++ ("checkpoint", _) :: tail)) := mentions_replace (by decide) checkpoint
  exact outer

/-- The raw bundle is recorded under a key the collector knows. -/
theorem raw_named {id : String} (h : (Value.obj (rawMembers raw)).textAt? "raw_bundle_artifact" = some id) :
    ⟨some id, none⟩ ∈ mentions false (.obj (rawMembers raw)) := by
  have first (v : Value) (rest : List (String × Value)) (hv : v.text? = some id) :
      ⟨some id, none⟩ ∈ memberMentions none (("raw_bundle_artifact", v) :: rest) := by
    cases v with
    | str s =>
      rw [memberMentions, if_pos (by decide), hv]
      exact List.mem_cons_self ..
    | _ => cases hv
  cases raw with
  | frozen artifact hash files complete => exact List.mem_append_right _ (first artifact _ h)
  | bundled bundle files complete => exact List.mem_append_right _ (first (.str bundle.id) _ h)

/-- In a job the collector finds what it finds in the evidence. -/
theorem mem_mentions_job {m : Mention} {evidence : List (String × Value)} (h : m ∈ mentions false (.obj evidence)) :
    m ∈ mentions false (jobRecord job evidence) := by
  have plain : saysArtifact "evidence" = false ∧ saysArtifact "checkpoint" = false := by decide
  have inner : m ∈ mentions false (.obj (job.before ++ ("evidence", .obj evidence) :: job.after)) := by
    rw [mentions, memberMentions_append, memberMentions, plain.1]
    exact List.mem_append_right _ (List.mem_append_right _ (List.mem_append_left _ h))
  let head : List (String × Value) := [("job_id", .str job.jobId), ("run_id", .str job.runId), ("status", .str job.status),
    ("launch_token", .str job.launchToken), ("spec", job.spec), ("handle", job.handle)]
  show m ∈ mentions false (.obj (head ++ ("checkpoint", _) :: _))
  rw [mentions, memberMentions_append, memberMentions, plain.2]
  exact List.mem_append_right _ (List.mem_append_right _ (List.mem_append_left _ inner))

theorem referenced_iff_names {record : Value} (h : collectArtifactRefs record .empty = .ok refs) (id : String) :
    Referenced refs id ↔ Names record id := by
  rcases collectArtifactRefs_spec record with ⟨r, hr, represents, -⟩ | ⟨⟨e, he⟩, -⟩
  · cases hr.symm.trans h
    simp only [Referenced, Names, represents.named]
    constructor
    · rintro ⟨file, hfile, m, hm, hid⟩
      exact ⟨m, hm, file, hfile, hid⟩
    · rintro ⟨m, hm, file, hfile, hid⟩
      exact ⟨file, hfile, m, hm, hid⟩
  · cases he.symm.trans h

theorem valid_of_collect {record : Value} (h : collectArtifactRefs record .empty = .ok refs) {m : Mention}
    (hm : m ∈ mentions false record) (id : String) (hid : m.identifier = some id) : canonicalArtifactId id ≠ none := by
  rcases collectArtifactRefs_spec record with ⟨r, -, -, agree⟩ | ⟨⟨e, he⟩, -⟩
  · exact agree.valid m hm id hid
  · cases he.symm.trans h

/-- What is recorded: the raw bundle, if it has an id, and the outcome. -/
theorem mem_recordedArtifacts {id : String} :
    id ∈ recordedArtifacts (evidenceMembers raw outcome) ↔
      (Value.obj (rawMembers raw)).textAt? "raw_bundle_artifact" = some id ∨ ∃ o ∈ outcome, o.id = id := by
  have hraw : (Value.obj (evidenceMembers raw outcome)).textAt? "raw_bundle_artifact" =
      (Value.obj (rawMembers raw)).textAt? "raw_bundle_artifact" := by
    cases raw <;> rfl
  have houtcome : (Value.obj (evidenceMembers raw outcome)).textAt? "outcome_artifact" = outcome.map (·.id) := by
    cases outcome with
    | none => cases raw <;> rfl
    | some o =>
      have text : (Value.str o.id).text? = some o.id := by simp [Value.text?, Value.str?, o.named]
      cases raw <;> exact text
  simp [recordedArtifacts, hraw, houtcome]

/-- The record of a job is not owned by an import. -/
theorem job_not_import_owned (job : JobParts) (evidence : List (String × Value)) (runId importId : String) :
    isImportOwned (jobRecord job evidence) runId importId = false := rfl

theorem archived_job {s : ReferenceStore} (job : JobParts) (evidence : List (String × Value)) (owner : Option String) :
    s.archived ⟨jobRecord job evidence, owner, none⟩ = ∅ := by
  have own (runs : List (String × String)) : ReferenceStore.ownImport runs ⟨jobRecord job evidence, owner, none⟩ = none := by
    cases owner with
    | none => rfl
    | some owner =>
      simp only [ReferenceStore.ownImport, job_not_import_owned, Option.bind_eq_bind, Option.bind_some]
      cases runs.lookup owner <;> rfl
  rw [ReferenceStore.archived, own]
  exact confirmed_none s

/-- Both frozen artifacts of a settled job are references of its record exactly if the outcome was
not recorded or the rest of the record names it too; then no plan deletes them. -/
theorem frozen_evidence_protected {τ : Type} [LinearOrder τ] (job : JobParts) (raw : RawEvidence)
    (outcome : Option FrozenArtifact) (refs : References)
    (collected : collectArtifactRefs (jobRecord job (evidenceMembers raw outcome)) .empty = .ok refs) :
    ((∀ id ∈ recordedArtifacts (evidenceMembers raw outcome), Referenced refs id) ↔
      ∀ o ∈ outcome, Names (jobRecord job (rawMembers raw)) o.id) ∧
    ((∀ o ∈ outcome, Names (jobRecord job (rawMembers raw)) o.id) →
      ∀ (s : ReferenceStore) (owner : Option String) (verified : Except RefError Unit) (root : ArtifactRoot τ)
        (importAuditProtected : Bool) (cutoff : τ) (deletable : List (GcFile τ)),
        ⟨jobRecord job (evidenceMembers raw outcome), owner, none⟩ ∈ s.records →
        planGc s verified root importAuditProtected cutoff = .ok deletable →
        ∀ id ∈ recordedArtifacts (evidenceMembers raw outcome), ∀ f ∈ deletable,
          canonicalArtifactId id ≠ some f.artifactId) := by
  have names (id : String) : Referenced refs id ↔ Names (jobRecord job (rawMembers raw)) id := by
    rw [referenced_iff_names collected, Names, mentions_job, Names]
  have protects : (∀ id ∈ recordedArtifacts (evidenceMembers raw outcome), Referenced refs id) ↔
      ∀ o ∈ outcome, Names (jobRecord job (rawMembers raw)) o.id := by
    constructor
    · intro h o ho
      exact (names o.id).1 (h o.id (mem_recordedArtifacts.2 (.inr ⟨o, ho, rfl⟩)))
    · intro h id hid
      rw [names]
      rcases mem_recordedArtifacts.1 hid with hraw | ⟨o, ho, rfl⟩
      · have mention : ⟨some id, none⟩ ∈ mentions false (jobRecord job (rawMembers raw)) :=
          mem_mentions_job (raw_named hraw)
        have valid := valid_of_collect collected (mentions_job job raw outcome ▸ mention) id rfl
        obtain ⟨file, hfile⟩ := Option.ne_none_iff_exists'.1 valid
        exact ⟨_, mention, file, hfile, hfile⟩
      · exact h o ho
  refine ⟨protects, fun rest s owner verified root audit cutoff deletable hjob hplan id hid f hf hfile => ?_⟩
  obtain ⟨m, hm, file, hfile', hmid⟩ := (referenced_iff_names collected id).1 (protects.2 rest id hid)
  cases hfile.symm.trans hfile'
  obtain ⟨found, hfound, unreferenced, -⟩ := planGc_unreferenced hplan hf
  exact referenced_of_mention hfound hjob (archived_job job _ owner) hm hmid unreferenced

/-! A job whose raw output and outcome were frozen, in a store with nothing else. -/

def sampleJob : JobParts :=
  ⟨"job-1", "run-1", "settled", "token", .obj [], .obj [], [("import_completed", .bool true)], [], "t0", "t1"⟩

def sampleBundle : FrozenArtifact := ⟨"external-jobs/run-1/job-1/evidence/raw-00.json", "aa", by decide⟩

def sampleOutcome : FrozenArtifact := ⟨"external-jobs/run-1/job-1/outcome-00.json", "bb", by decide⟩

def sampleEvidence (outcome : Option FrozenArtifact) : Value :=
  jobRecord sampleJob (evidenceMembers (.bundled sampleBundle ["out.json"] true) outcome)

def sampleStore (outcome : Option FrozenArtifact) : ReferenceStore :=
  ⟨[], [⟨sampleEvidence outcome, some "run-1", none⟩], [], []⟩

/-- Both files are older than the time to live. -/
def sampleRoot : ArtifactRoot Nat where
  files := [⟨sampleBundle.id, "aa", 0⟩, ⟨sampleOutcome.id, "bb", 0⟩]
  resolve id := some id
  resolve_file _ _ := rfl

/-- The outcome is recorded, the collector does not find it, and the plan deletes it. -/
theorem frozen_outcome_collected :
    sampleOutcome.id ∈ recordedArtifacts (evidenceMembers (.bundled sampleBundle ["out.json"] true) (some sampleOutcome)) ∧
    (∃ refs, collectArtifactRefs (sampleEvidence (some sampleOutcome)) .empty = .ok refs ∧
      ¬ Referenced refs sampleOutcome.id) ∧
    planGc (sampleStore (some sampleOutcome)) (.ok ()) sampleRoot true 1 = .ok [⟨sampleOutcome.id, "bb", 0⟩] := by
  refine ⟨by decide +kernel, ?_, by decide +kernel⟩
  have hok : (collectArtifactRefs (sampleEvidence (some sampleOutcome)) .empty).toOption.isSome := by decide +kernel
  cases hcollect : collectArtifactRefs (sampleEvidence (some sampleOutcome)) .empty with
  | error e =>
    rw [hcollect] at hok
    cases hok
  | ok refs =>
    refine ⟨refs, rfl, fun h => ?_⟩
    obtain ⟨m, hm, file, hfile, hid⟩ := (referenced_iff_names hcollect _).1 h
    have nowhere : ∀ m ∈ mentions false (sampleEvidence (some sampleOutcome)),
        m.id? ≠ canonicalArtifactId sampleOutcome.id := by
      decide +kernel
    exact nowhere m hm (hid.trans hfile.symm)

/-- Without an artifact store only the raw output is recorded, and it is found. -/
theorem frozen_bundle_kept :
    ∃ refs, collectArtifactRefs (sampleEvidence none) .empty = .ok refs ∧ Referenced refs sampleBundle.id := by
  have hok : (collectArtifactRefs (sampleEvidence none) .empty).toOption.isSome := by decide +kernel
  cases hcollect : collectArtifactRefs (sampleEvidence none) .empty with
  | error e =>
    rw [hcollect] at hok
    cases hok
  | ok refs =>
    have protects := frozen_evidence_protected (τ := Nat) sampleJob (.bundled sampleBundle ["out.json"] true) none refs hcollect
    exact ⟨refs, rfl, protects.1.2 (fun o ho => by cases ho) sampleBundle.id (by decide +kernel)⟩

end Motte.Service
