import Mathlib.Data.List.Infix
import Motte.Foundation.Json
import Motte.Foundation.Table
import Motte.Foundation.Value

/-! Artifact references: which files and which contents a record mentions.

The walk over a record decides what is mentioned by the shape of the record
alone, so it is a list of mentions; collecting takes them in one by one. Two
mentions of one file with different contents are a conflict. -/
namespace Motte.Trace
open Foundation

/-! ### Paths and digests -/

-- Membership of a component in a path.
local instance lawfulParts : LawfulBEq (List Char) := inferInstance

/-- `canonical_artifact_id`, without a root: the components of a relative path that stays below. -/
def canonicalArtifactId (identifier : String) : Option String :=
  let parts := (identifier.toList.splitOn '/').filter (fun p => p ≠ [] ∧ p ≠ ['.'])
  if identifier.toList.head? = some '/' ∨ ['.', '.'] ∈ parts ∨ parts = [] then none
  else some (String.ofList (['/'].intercalate parts))

/-- `digest.removeprefix("sha256:")` -/
def bare (digest : String) : String :=
  if starts "sha256:" digest then String.ofList (digest.toList.drop 7) else digest

/-! ### Mentions -/

/-- A call of `record`: a text that names a file, and one that names a content. -/
structure Mention where
  identifier : Option String
  digest : Option String
deriving DecidableEq, Repr

/-- `_ARTIFACT_STRING_KEYS` -/
def artifactStringKeys : List String :=
  ["artifact_id", "artifact_ids", "artifacts", "artifact", "raw_ref", "raw_bundle_artifact"]

/-- `"artifact" in key.lower()` -/
def saysArtifact (key : String) : Bool := decide ("artifact".toList <:+: key.toList.map Char.toLower)

/-- The files in an evidence allowlist. -/
def allowlisted (tokens : List Value) : List Mention :=
  tokens.filterMap fun token => match token with
    | .str s =>
      if starts "artifact:" s then some ⟨(Value.str (String.ofList (s.toList.drop 9))).text?, none⟩ else none
    | _ => none

/-- What an object mentions by its own members. -/
def ownMentions (artifactContext : Bool) (item : Value) : List Mention :=
  let isEvidence := item.get? "kind" = some (.str "artifact")
  let isArtifact := artifactContext ∨ isEvidence ∨
    (((item.get? "id").bind Value.str?).isSome ∧ (item.get? "kind").isSome ∧ (item.get? "uri").isSome)
  (if isArtifact then [⟨item.textAt? "id", item.textAt? "sha256"⟩] else []) ++
  (if isEvidence then [⟨item.textAt? "locator", item.textAt? "sha256"⟩] else []) ++
  (if item.get? "target_type" = some (.str "artifact") then
    [⟨item.textAt? "target_id", item.textAt? "artifact_sha256"⟩] else [])

mutual
/-- The mentions that `walk` comes by. -/
def mentions (artifactContext : Bool) : Value → List Mention
  | .obj members =>
    ownMentions artifactContext (.obj members) ++ memberMentions ((Value.obj members).textAt? "sha256") members
  | .arr items => itemMentions artifactContext items
  | _ => []

def itemMentions (artifactContext : Bool) : List Value → List Mention
  | [] => []
  | .str s :: rest =>
    (if artifactContext then [⟨(Value.str s).text?, none⟩] else []) ++ itemMentions artifactContext rest
  | child :: rest => mentions artifactContext child ++ itemMentions artifactContext rest

def memberMentions (digest : Option String) : List (String × Value) → List Mention
  | [] => []
  | (key, .arr items) :: rest =>
    (if key = "evidence_allowlist" then allowlisted items
      else itemMentions (saysArtifact key) items) ++ memberMentions digest rest
  | (key, .obj members) :: rest => mentions (saysArtifact key) (.obj members) ++ memberMentions digest rest
  | (key, .str s) :: rest =>
    (if key ∈ artifactStringKeys then [⟨(Value.str s).text?, digest⟩] else []) ++ memberMentions digest rest
  | _ :: rest => memberMentions digest rest
end

theorem memberMentions_append (digest : Option String) (a b : List (String × Value)) :
    memberMentions digest (a ++ b) = memberMentions digest a ++ memberMentions digest b := by
  induction a with
  | nil => rfl
  | cons m rest ih =>
    obtain ⟨key, v⟩ := m
    cases v <;> simp only [List.cons_append, memberMentions, ih, List.append_assoc]

/-- The keys by which an object mentions something itself. -/
def ownKeys : List String :=
  ["kind", "id", "uri", "sha256", "locator", "target_type", "target_id", "artifact_sha256"]

theorem lookup_replace {before after : List (String × Value)} {key k : String} {v w : Value} (h : k ≠ key) :
    (before ++ (key, v) :: after).lookup k = (before ++ (key, w) :: after).lookup k := by
  have hne : (k == key) = false := by simpa using h
  rw [List.lookup_append, List.lookup_append, List.lookup_cons, List.lookup_cons, hne]

/-- A member under any other key can be exchanged for one that mentions the same. -/
theorem mentions_replace {artifactContext : Bool} {before after : List (String × Value)} {key : String} {v w : Value}
    (other : key ∉ ownKeys) (same : ∀ digest, memberMentions digest [(key, v)] = memberMentions digest [(key, w)]) :
    mentions artifactContext (.obj (before ++ (key, v) :: after)) =
      mentions artifactContext (.obj (before ++ (key, w) :: after)) := by
  have get (k : String) (hk : k ∈ ownKeys) :
      (Value.obj (before ++ (key, v) :: after)).get? k = (Value.obj (before ++ (key, w) :: after)).get? k :=
    lookup_replace (fun h => other (h ▸ hk))
  have text (k : String) (hk : k ∈ ownKeys) :
      (Value.obj (before ++ (key, v) :: after)).textAt? k = (Value.obj (before ++ (key, w) :: after)).textAt? k := by
    rw [Value.textAt?, Value.textAt?, get k hk]
  have own : ownMentions artifactContext (.obj (before ++ (key, v) :: after)) =
      ownMentions artifactContext (.obj (before ++ (key, w) :: after)) := by
    simp only [ownMentions, get "kind" (by decide), get "id" (by decide), get "uri" (by decide),
      get "target_type" (by decide), text "id" (by decide), text "sha256" (by decide), text "locator" (by decide),
      text "target_id" (by decide), text "artifact_sha256" (by decide)]
  have split (digest : Option String) (x : Value) : memberMentions digest (before ++ (key, x) :: after) =
      memberMentions digest before ++ (memberMentions digest [(key, x)] ++ memberMentions digest after) := by
    rw [memberMentions_append, ← memberMentions_append digest [(key, x)] after]
    rfl
  rw [mentions, mentions, own, text "sha256" (by decide), split, split, same]

/-! ### Collecting -/

/-- `ArtifactReferenceConflict`, or a path that names no file below the root -/
inductive RefError where
  | conflict (artifactId : String) (hashes : String × String)
  | path (identifier : String)
deriving DecidableEq, Repr

/-- The files with the content each is said to have, and all contents. -/
structure References where
  refs : Table String (Option String)
  hashes : List String

namespace References

def empty : References := ⟨∅, []⟩

def addHash (digest : Option String) (r : References) : References :=
  match digest with
  | none => r
  | some digest => { r with hashes := r.hashes.insert (bare digest) }

/-- `record` -/
def record (m : Mention) (r : References) : Except RefError References :=
  match m.identifier with
  | none => .ok (r.addHash m.digest)
  | some identifier =>
    match canonicalArtifactId identifier with
    | none => .error (.path identifier)
    | some id =>
      match (r.refs.get id).join, m.digest with
      | some previous, some digest =>
        if bare previous ≠ bare digest then .error (.conflict id (bare previous, bare digest))
        else .ok (r.addHash m.digest)
      | some _, none => .ok r
      | none, digest => .ok { r.addHash digest with refs := r.refs.set id digest }

def recordAll : List Mention → References → Except RefError References
  | [], r => .ok r
  | m :: rest, r => (r.record m).bind (recordAll rest)

end References

/-- `collect_artifact_refs` -/
def collectArtifactRefs (v : Value) (r : References) : Except RefError References :=
  r.recordAll (mentions false v)

/-! ### Canonical paths -/

theorem not_mem_of_mem_splitOn {sep : Char} {text part : List Char} (h : part ∈ text.splitOn sep) : sep ∉ part := by
  induction text generalizing part with
  | nil =>
    rw [List.splitOn_nil, List.mem_singleton] at h
    rw [h]
    exact List.not_mem_nil
  | cons c rest ih =>
    rw [List.splitOn_cons_eq_if_modifyHead] at h
    split at h
    · rcases List.mem_cons.1 h with rfl | h
      · exact List.not_mem_nil
      · exact ih h
    · rename_i hc
      cases hrest : rest.splitOn sep with
      | nil => exact absurd hrest (List.splitOn_ne_nil sep rest)
      | cons first others =>
        rw [hrest, List.modifyHead_cons] at h
        have first_clean : sep ∉ first := ih (hrest ▸ List.mem_cons_self ..)
        rcases List.mem_cons.1 h with rfl | h
        · rintro (_ | ⟨_, hmem⟩)
          · exact hc (beq_self_eq_true sep)
          · exact first_clean hmem
        · exact ih (hrest ▸ List.mem_cons_of_mem first h)

/-- A canonical path is its own canonical path. -/
theorem canonicalArtifactId_idem {identifier id : String} (h : canonicalArtifactId identifier = some id) :
    canonicalArtifactId id = some id := by
  unfold canonicalArtifactId at h
  dsimp only at h
  generalize hparts : (identifier.toList.splitOn '/').filter (fun p => p ≠ [] ∧ p ≠ ['.']) = parts at h
  split at h
  · cases h
  · rename_i hgood
    simp only [not_or] at hgood
    obtain ⟨-, noParent, nonempty⟩ := hgood
    cases h
    have clean (p : List Char) (hp : p ∈ parts) : '/' ∉ p ∧ p ≠ [] ∧ p ≠ ['.'] := by
      rw [← hparts, List.mem_filter, decide_eq_true_eq] at hp
      exact ⟨not_mem_of_mem_splitOn hp.1, hp.2⟩
    have split : (['/'].intercalate parts).splitOn '/' = parts :=
      List.splitOn_intercalate '/' (fun p hp => (clean p hp).1) nonempty
    have kept : parts.filter (fun p => p ≠ [] ∧ p ≠ ['.']) = parts :=
      List.filter_eq_self.2 (fun p hp => decide_eq_true (clean p hp).2)
    have relative : (['/'].intercalate parts).head? ≠ some '/' := by
      cases parts with
      | nil => exact absurd rfl nonempty
      | cons first rest =>
        obtain ⟨noSlash, hfirst, -⟩ := clean first (List.mem_cons_self ..)
        cases first with
        | nil => exact absurd rfl hfirst
        | cons c cs =>
          have hc : c ≠ '/' := fun hc => noSlash (hc ▸ List.mem_cons_self ..)
          cases rest <;> simpa [List.intercalate, List.intersperse] using hc
    unfold canonicalArtifactId
    simp only [String.toList_ofList, split, kept]
    rw [if_neg]
    rintro (h | h | h)
    · exact relative h
    · exact noParent h
    · exact nonempty h

/-! ### What was collected -/

/-- The file that is meant. -/
def Mention.id? (m : Mention) : Option String := m.identifier.bind canonicalArtifactId

/-- Every mention names a file that can be there, and no file is given two contents. -/
structure Agree (ms : List Mention) : Prop where
  valid : ∀ m ∈ ms, ∀ i, m.identifier = some i → canonicalArtifactId i ≠ none
  same : ∀ m ∈ ms, ∀ m' ∈ ms, ∀ id d d', m.id? = some id → m'.id? = some id → m.digest = some d →
    m'.digest = some d' → bare d = bare d'

/-- The files stand for these mentions. -/
structure Represents (refs : Table String (Option String)) (ms : List Mention) : Prop where
  named : ∀ id, refs.get id ≠ none ↔ ∃ m ∈ ms, m.id? = some id
  stated : ∀ id d, refs.get id = some (some d) → ∃ m ∈ ms, m.id? = some id ∧ m.digest = some d
  asserted : ∀ m ∈ ms, ∀ id d, m.id? = some id → m.digest = some d →
    ∃ d', refs.get id = some (some d') ∧ bare d' = bare d

theorem agree_nil : Agree [] where
  valid _ h := by cases h
  same _ h := by cases h

theorem represents_empty : Represents ∅ [] where
  named _ := by simp
  stated _ _ h := by cases h
  asserted _ h := by cases h

theorem Agree.of_subset {ms ms' : List Mention} (h : Agree ms') (sub : ∀ m ∈ ms, m ∈ ms') : Agree ms :=
  ⟨fun m hm => h.valid m (sub m hm), fun m hm m' hm' => h.same m (sub m hm) m' (sub m' hm')⟩

/-- The mention fits the others: its file can be there, and they give it no other content. -/
structure Fitting (ms : List Mention) (m : Mention) : Prop where
  valid : ∀ i, m.identifier = some i → canonicalArtifactId i ≠ none
  same : ∀ m' ∈ ms, ∀ id d d', m'.id? = some id → m.id? = some id → m'.digest = some d → m.digest = some d' →
    bare d = bare d'

theorem agree_concat {ms : List Mention} {m : Mention} : Agree (ms ++ [m]) ↔ Agree ms ∧ Fitting ms m := by
  constructor
  · intro h
    have last : m ∈ ms ++ [m] := List.mem_append_right ms (List.mem_singleton_self m)
    refine ⟨h.of_subset (fun m' hm' => List.mem_append_left [m] hm'), h.valid m last, fun m' hm' => ?_⟩
    exact h.same m' (List.mem_append_left [m] hm') m last
  · rintro ⟨h, fit⟩
    constructor
    · intro m' hm'
      rcases List.mem_append.1 hm' with hm' | hm'
      · exact h.valid m' hm'
      · rw [List.mem_singleton.1 hm']
        exact fit.valid
    · intro a ha b hb id d d' hia hib hda hdb
      rcases List.mem_append.1 ha with ha | ha <;> rcases List.mem_append.1 hb with hb | hb
      · exact h.same a ha b hb id d d' hia hib hda hdb
      · rw [List.mem_singleton.1 hb] at hib hdb
        exact fit.same a ha id d d' hia hib hda hdb
      · rw [List.mem_singleton.1 ha] at hia hda
        exact (fit.same b hb id d' d hib hia hdb hda).symm
      · rw [List.mem_singleton.1 ha] at hda
        rw [List.mem_singleton.1 hb, hda] at hdb
        cases hdb
        rfl

namespace References
variable {r : References} {ms : List Mention} {m : Mention}

@[simp] theorem addHash_refs (digest : Option String) (r : References) : (r.addHash digest).refs = r.refs := by
  cases digest <;> rfl

theorem mem_addHash {digest : Option String} {h : String} :
    h ∈ (r.addHash digest).hashes ↔ h ∈ r.hashes ∨ ∃ d, digest = some d ∧ bare d = h := by
  cases digest with
  | none => simp [addHash]
  | some d =>
    simp only [addHash, List.mem_insert_iff, Option.some.injEq, exists_eq_left']
    constructor
    · rintro (rfl | h)
      · exact .inr rfl
      · exact .inl h
    · rintro (h | rfl)
      · exact .inr h
      · exact .inl rfl

/-- The files are the old ones and the one that is mentioned. -/
theorem represents_concat {t t' : Table String (Option String)} (h : Represents t ms)
    (named : ∀ id, t'.get id ≠ none ↔ t.get id ≠ none ∨ m.id? = some id)
    (stated : ∀ id d, t'.get id = some (some d) → t.get id = some (some d) ∨ m.id? = some id ∧ m.digest = some d)
    (kept : ∀ id d, t.get id = some (some d) → t'.get id = some (some d))
    (asserted : ∀ id d, m.id? = some id → m.digest = some d → ∃ d', t'.get id = some (some d') ∧ bare d' = bare d) :
    Represents t' (ms ++ [m]) := by
  constructor
  · intro id
    rw [named, h.named]
    simp [or_and_right, exists_or]
  · intro id d hd
    rcases stated id d hd with hd | hd
    · obtain ⟨m', hm', rest⟩ := h.stated id d hd
      exact ⟨m', List.mem_append_left _ hm', rest⟩
    · exact ⟨m, List.mem_append_right _ (List.mem_singleton_self m), hd⟩
  · intro m' hm' id d hid hd
    rcases List.mem_append.1 hm' with hm' | hm'
    · obtain ⟨d', hd', same⟩ := h.asserted m' hm' id d hid hd
      exact ⟨d', kept id d' hd', same⟩
    · rw [List.mem_singleton.1 hm'] at hid hd
      exact asserted id d hid hd

/-- A mention that fits is taken in; any other is refused. -/
theorem record_spec (h : Represents r.refs ms) (agree : Agree ms) :
    (∃ r', r.record m = .ok r' ∧ Represents r'.refs (ms ++ [m]) ∧ Agree (ms ++ [m])) ∨
      (∃ e, r.record m = .error e) ∧ ¬ Agree (ms ++ [m]) := by
  unfold record
  cases hident : m.identifier with
  | none =>
    have noId : m.id? = none := by
      rw [Mention.id?, hident]
      rfl
    refine .inl ⟨_, rfl, ?_, agree_concat.2 ⟨agree, fun i hi => ?_, fun m' _ id d d' _ hid => ?_⟩⟩
    · apply represents_concat h <;> simp [noId]
    · cases hident.symm.trans hi
    · cases noId.symm.trans hid
  | some identifier =>
    dsimp only
    cases hcanon : canonicalArtifactId identifier with
    | none => exact .inr ⟨⟨_, rfl⟩, fun bad => (agree_concat.1 bad).2.valid identifier hident hcanon⟩
    | some id =>
      have hid : m.id? = some id := by
        rw [Mention.id?, hident]
        exact hcanon
      have valid (i : String) (hi : m.identifier = some i) : canonicalArtifactId i ≠ none := by
        cases hident.symm.trans hi
        rw [hcanon]
        simp
      dsimp only
      cases hprev : (r.refs.get id).join with
      | some previous =>
        have hget : r.refs.get id = some (some previous) := Option.join_eq_some_iff.1 hprev
        have named (id' : String) : r.refs.get id' ≠ none ↔ r.refs.get id' ≠ none ∨ m.id? = some id' := by
          rw [hid, Option.some_inj]
          refine ⟨.inl, fun h => h.elim (fun h => h) ?_⟩
          rintro rfl
          simp [hget]
        cases hdig : m.digest with
        | none =>
          refine .inl ⟨r, rfl, ?_, agree_concat.2 ⟨agree, valid, fun _ _ _ _ _ _ _ _ hd => by cases hdig.symm.trans hd⟩⟩
          exact represents_concat h named (fun _ _ hd => .inl hd) (fun _ _ hd => hd)
            (fun _ _ _ hd => by cases hdig.symm.trans hd)
        | some digest =>
          dsimp only
          obtain ⟨first, hfirst, hfid, hfd⟩ := h.stated id previous hget
          by_cases hbare : bare previous = bare digest
          · rw [if_neg (not_not.2 hbare)]
            refine .inl ⟨_, rfl, ?_, agree_concat.2 ⟨agree, valid, fun m' hm' id' d d' hid' hmid hd hmd => ?_⟩⟩
            · rw [addHash_refs]
              refine represents_concat h named (fun _ _ hd => .inl hd) (fun _ _ hd => hd) (fun id' d hid' hd => ?_)
              cases hid.symm.trans hid'
              cases hdig.symm.trans hd
              exact ⟨previous, hget, hbare⟩
            · cases hid.symm.trans hmid
              cases hdig.symm.trans hmd
              exact (agree.same m' hm' first hfirst id d previous hid' hfid hd hfd).trans hbare
          · rw [if_pos hbare]
            refine .inr ⟨⟨_, rfl⟩, fun bad => hbare ?_⟩
            exact (agree_concat.1 bad).2.same first hfirst id previous digest hfid hid hfd hdig
      | none =>
        refine .inl ⟨_, rfl, ?_, agree_concat.2 ⟨agree, valid, fun m' hm' id' d d' hid' hmid hd _ => ?_⟩⟩
        · refine represents_concat h (fun id' => ?_) (fun id' d hd => ?_) (fun id' d hd => ?_) (fun id' d hid' hd => ?_)
          · rw [Table.get_set, hid, Option.some_inj]
            by_cases hi : id' = id
            · simp [hi]
            · simp [hi, Ne.symm hi]
          · rw [Table.get_set] at hd
            split at hd
            · rename_i hi
              exact .inr ⟨hi ▸ hid, Option.some_inj.1 hd⟩
            · exact .inl hd
          · have other : id' ≠ id := by
              rintro rfl
              rw [hd] at hprev
              cases hprev
            rw [Table.get_set, if_neg other]
            exact hd
          · cases hid.symm.trans hid'
            rw [Table.get_set, if_pos rfl, hd]
            exact ⟨d, rfl, rfl⟩
        · cases hid.symm.trans hmid
          obtain ⟨d', hget, -⟩ := h.asserted m' hm' id d hid' hd
          rw [hget] at hprev
          cases hprev

theorem record_hashes {r' : References} (h : r.record m = .ok r') (x : String) :
    x ∈ r'.hashes ↔ x ∈ r.hashes ∨ ∃ d, m.digest = some d ∧ bare d = x := by
  rw [← mem_addHash]
  unfold record at h
  split at h
  · cases h
    rfl
  · split at h
    · cases h
    · split at h
      · split at h
        · cases h
        · cases h
          rfl
      · rename_i hdigest
        cases h
        rw [hdigest]
        rfl
      · cases h
        rfl

theorem recordAll_spec {ms' : List Mention} (h : Represents r.refs ms) (agree : Agree ms) :
    (∃ r', r.recordAll ms' = .ok r' ∧ Represents r'.refs (ms ++ ms') ∧ Agree (ms ++ ms')) ∨
      (∃ e, r.recordAll ms' = .error e) ∧ ¬ Agree (ms ++ ms') := by
  induction ms' generalizing r ms with
  | nil => exact .inl ⟨r, rfl, by rwa [List.append_nil], by rwa [List.append_nil]⟩
  | cons m rest ih =>
    have assoc : ms ++ m :: rest = ms ++ [m] ++ rest := by simp
    rw [assoc, recordAll]
    rcases record_spec h agree with ⟨r', hr', h', agree'⟩ | ⟨⟨e, he⟩, bad⟩
    · rw [hr']
      exact ih h' agree'
    · rw [he]
      exact .inr ⟨⟨e, rfl⟩, fun good => bad (good.of_subset (fun m' hm' => List.mem_append_left rest hm'))⟩

theorem recordAll_hashes {r' : References} (h : r.recordAll ms = .ok r') (x : String) :
    x ∈ r'.hashes ↔ x ∈ r.hashes ∨ ∃ m ∈ ms, ∃ d, m.digest = some d ∧ bare d = x := by
  induction ms generalizing r with
  | nil =>
    cases h
    simp
  | cons m rest ih =>
    rw [recordAll] at h
    cases hrecord : r.record m with
    | error e =>
      rw [hrecord] at h
      cases h
    | ok r₁ =>
      rw [hrecord] at h
      rw [ih h, record_hashes hrecord, List.exists_mem_cons_iff, or_assoc]

end References

/-- Collecting from the start succeeds on mentions that agree, and then it has all of them. -/
theorem collectArtifactRefs_spec (v : Value) :
    (∃ r, collectArtifactRefs v .empty = .ok r ∧ Represents r.refs (mentions false v) ∧ Agree (mentions false v)) ∨
      (∃ e, collectArtifactRefs v .empty = .error e) ∧ ¬ Agree (mentions false v) :=
  References.recordAll_spec (r := .empty) represents_empty agree_nil

theorem collectArtifactRefs_hashes {v : Value} {r : References} (h : collectArtifactRefs v .empty = .ok r) (x : String) :
    x ∈ r.hashes ↔ ∃ m ∈ mentions false v, ∃ d, m.digest = some d ∧ bare d = x := by
  have hashes := References.recordAll_hashes h x
  simpa [References.empty] using hashes

end Motte.Trace
