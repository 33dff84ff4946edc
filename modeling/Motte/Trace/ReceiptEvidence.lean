import Motte.Trace.Edges

/-! The artifacts that the rows of a receipt refer to, and the record of the receipt.

The archive lists the files and the contents of its rows, the digests with their
name in front. The record of the receipt mentions each of them again, and the
archive itself. -/
namespace Motte.Trace
open Foundation

/-! ### Digests -/

theorem bare_of_isHex64 {s : String} (h : isHex64 s.toList) : bare s = s := by
  have hex := (of_decide_eq_true h).2
  refine if_neg (fun hstart => ?_)
  obtain ⟨rest, hrest⟩ := List.isPrefixOf_iff_prefix.1 hstart
  have first : 's' ∈ s.toList := by
    rw [← hrest]
    exact List.mem_append_left _ (List.mem_cons_self ..)
  exact absurd (List.all_eq_true.1 hex 's' first) (by decide)

/-- Naming a digest does not change what it says. -/
theorem bare_digest? {s d : String} (h : digest? s = some d) : bare d = bare s := by
  unfold digest? at h
  split at h
  · rename_i hex
    cases h
    rw [bare_named, bare_of_isHex64 hex]
  · split at h
    · cases h
      rfl
    · cases h

theorem isHex64_of_named {s d : String} (h : digest? ("sha256:" ++ s) = some d) : isHex64 s.toList := by
  unfold digest? at h
  split at h
  · rename_i hex
    have all := (of_decide_eq_true hex).2
    have first : 's' ∈ ("sha256:" ++ s).toList := by
      rw [String.toList_append]
      exact List.mem_append_left _ (List.mem_cons_self ..)
    exact absurd (List.all_eq_true.1 all 's' first) (by decide)
  · split at h
    · rename_i hnamed
      rw [← bare_named s]
      exact hnamed.2
    · cases h

theorem ne_empty_of_digest? {s d : String} (h : digest? s = some d) : d ≠ "" := by
  have again := digest?_idem h
  rintro rfl
  cases again

/-- The path of an archive is in canonical form. -/
theorem canonicalArtifactId_archive {hex : String} (h : isHex64 hex.toList) :
    canonicalArtifactId ("trace-archives/sha256/" ++ hex ++ ".json") =
      some ("trace-archives/sha256/" ++ hex ++ ".json") := by
  have noSlash : '/' ∉ hex.toList := by
    intro hmem
    exact absurd (List.all_eq_true.1 (of_decide_eq_true h).2 '/' hmem) (by decide)
  have parts : ("trace-archives/sha256/" ++ hex ++ ".json").toList =
      ['/'].intercalate ["trace-archives".toList, "sha256".toList, hex.toList ++ ".json".toList] := by
    simp [String.toList_append, List.intercalate]
  have last : '/' ∉ hex.toList ++ ".json".toList := by
    simp [noSlash]
  have split : ("trace-archives/sha256/" ++ hex ++ ".json").toList.splitOn '/' =
      ["trace-archives".toList, "sha256".toList, hex.toList ++ ".json".toList] := by
    rw [parts]
    refine List.splitOn_intercalate '/' (fun p hp => ?_) (by simp)
    simp only [List.mem_cons, List.not_mem_nil, or_false] at hp
    rcases hp with rfl | rfl | rfl
    · decide
    · decide
    · exact last
  have long : 5 ≤ (hex.toList ++ ".json".toList).length := by
    simp
  have short {p : List Char} (hp : p.length < 5) : hex.toList ++ ".json".toList ≠ p := by
    rintro rfl
    omega
  have kept : ["trace-archives".toList, "sha256".toList, hex.toList ++ ".json".toList].filter
      (fun p => p ≠ [] ∧ p ≠ ['.']) = ["trace-archives".toList, "sha256".toList, hex.toList ++ ".json".toList] := by
    refine List.filter_eq_self.2 (fun p hp => decide_eq_true ?_)
    simp only [List.mem_cons, List.not_mem_nil, or_false] at hp
    rcases hp with rfl | rfl | rfl
    · decide
    · decide
    · exact ⟨short (by decide), short (by decide)⟩
  have noParent : ['.', '.'] ∉ ["trace-archives".toList, "sha256".toList, hex.toList ++ ".json".toList] := by
    simp only [List.mem_cons, List.not_mem_nil, or_false, not_or]
    exact ⟨by decide, by decide, (short (by decide)).symm⟩
  have relative : ("trace-archives/sha256/" ++ hex ++ ".json").toList.head? ≠ some '/' := by
    rw [parts]
    simp [List.intercalate]
  unfold canonicalArtifactId
  simp only [split, kept]
  rw [if_neg, ← parts, String.ofList_toList]
  rintro (h | h | h)
  · exact relative h
  · exact noParent h
  · cases h

/-! ### Mentions of a row -/

section Row
variable {β τ : Type} (c : Codec β τ)

/-- A written row mentions what its payload mentions. -/
theorem mentions_dump {row : StoredTraceEvent τ} {members : List (String × Value)} (h : row.payload = .obj members) :
    mentions false (row.dump c) = mentions false row.payload := by
  have noOwn : ownMentions false (row.dump c) = [] := rfl
  have noArtifact : saysArtifact "payload" = false := by decide
  show ownMentions false (row.dump c) ++ memberMentions _ (row.members c) = _
  rw [noOwn, StoredTraceEvent.members, h, List.nil_append]
  cases row.storedAt with
  | none => simp [memberMentions, noArtifact, artifactStringKeys]
  | some t => simp [memberMentions, noArtifact, artifactStringKeys]

theorem mentions_rows {rows : List (StoredTraceEvent τ)} (h : ∀ row ∈ rows, ∃ members, row.payload = .obj members) :
    mentions false (.arr (rows.map (StoredTraceEvent.dump c))) = rows.flatMap (fun row => mentions false row.payload) := by
  rw [mentions]
  induction rows with
  | nil => rfl
  | cons row rest ih =>
    obtain ⟨members, hmembers⟩ := h row (List.mem_cons_self ..)
    have hrow := mentions_dump c hmembers
    rw [StoredTraceEvent.dump] at hrow
    rw [List.map_cons, StoredTraceEvent.dump, itemMentions, hrow, ih (fun row' hr => h row' (List.mem_cons_of_mem row hr)),
      List.flatMap_cons]
    exact fun _ h => by cases h

end Row

/-! ### Mentions of the record -/

section Receipt
variable {τ : Type}

/-- What a receipt mentions of a file. -/
def refMentions (ref : String × Value) : List Mention := [⟨none, ref.2.text?⟩, ⟨(Value.str ref.1).text?, ref.2.text?⟩]

theorem mentions_artifact {id : String} {v : Value} (h : digestOrNull v) :
    mentions true (.obj [("artifact_id", .str id), ("sha256", v)]) = refMentions (id, v) := by
  cases v with
  | null => rfl
  | str d => rfl
  | _ => cases h

theorem itemMentions_append {artifactContext : Bool} (a b : List Value) :
    itemMentions artifactContext (a ++ b) = itemMentions artifactContext a ++ itemMentions artifactContext b := by
  induction a with
  | nil => rfl
  | cons child rest ih => cases child <;> simp only [List.cons_append, itemMentions, ih, List.append_assoc]

/-- Objects in a list are taken one by one. -/
theorem itemMentions_map {α : Type} {artifactContext : Bool} {items : List α} {f : α → List (String × Value)}
    {g : α → List Mention} (h : ∀ x ∈ items, mentions artifactContext (.obj (f x)) = g x) :
    itemMentions artifactContext (items.map (fun x => .obj (f x))) = items.flatMap g := by
  induction items with
  | nil => rfl
  | cons x rest ih =>
    rw [List.map_cons, itemMentions, h x (List.mem_cons_self ..), ih (fun y hy => h y (List.mem_cons_of_mem x hy)),
      List.flatMap_cons]
    nofun

theorem itemMentions_strings (texts : List String) : itemMentions false (texts.map .str) = [] := by
  induction texts with
  | nil => rfl
  | cons x rest ih => simp [itemMentions, ih]

variable {r : TraceArchiveReceipt τ}

/-- What the record of a receipt mentions: its archive, then the files and contents of its rows. -/
theorem mentions_receiptMembers (hrefs : ∀ ref ∈ r.artifactRefs, digestOrNull ref.2) (runs : List String)
    (events : List (String × Nat)) (traceProtection : Bool) (document : ReferenceDocument) :
    mentions false (.obj (receiptMembers r runs events ++ passMembers traceProtection document)) =
      ⟨(Value.str r.artifactId).text?, (Value.str r.sha256).text?⟩ :: (r.artifactRefs.flatMap refMentions ++
        r.artifactHashes.map (fun h => ⟨none, (Value.str h).text?⟩)) := by
  have noOwn : ownMentions false (.obj (receiptMembers r runs events ++ passMembers traceProtection document)) = [] := by
    cases traceProtection <;> rfl
  have digest : (Value.obj (receiptMembers r runs events ++ passMembers traceProtection document)).textAt? "sha256" =
      (Value.str r.sha256).text? := rfl
  have artifacts : itemMentions true (r.artifactRefs.map (fun ref => .obj [("artifact_id", .str ref.1), ("sha256", ref.2)]) ++
      r.artifactHashes.map (fun h => .obj [("sha256", .str h)])) =
      r.artifactRefs.flatMap refMentions ++ r.artifactHashes.map (fun h => ⟨none, (Value.str h).text?⟩) := by
    rw [itemMentions_append, itemMentions_map (fun ref href => mentions_artifact (hrefs ref href)),
      itemMentions_map (g := fun h => [⟨none, (Value.str h).text?⟩]) (fun h _ => rfl), ← List.map_eq_flatMap]
  have eventRefs : itemMentions false ((ordered seqLe events).map fun e =>
      .obj [("kind", .str "event"), ("run_id", .str e.1), ("locator", .str (toString e.2))]) = [] := by
    rw [itemMentions_map (g := fun _ => []) (fun e _ => rfl)]
    simp
  have passRefs : memberMentions (Value.str r.sha256).text? (passMembers traceProtection document) = [] := by
    cases traceProtection with
    | true => rfl
    | false =>
      have items : itemMentions false
          (document.passReferences.map fun p => .obj [("source_pass_id", .str p.passId)]) = [] := by
        rw [itemMentions_map (g := fun _ => []) (fun p _ => rfl)]
        simp
      have notArtifact : saysArtifact "pass_refs" = false := by decide
      show memberMentions _ [("pass_refs", .arr _)] = []
      rw [memberMentions, if_neg (by decide), notArtifact, items]
      rfl
  have contexts : saysArtifact "artifacts" = true ∧ saysArtifact "referenced_run_ids" = false ∧
      saysArtifact "event_refs" = false := by decide
  rw [mentions, noOwn, digest, memberMentions_append, passRefs, receiptMembers]
  simp only [memberMentions, artifacts, eventRefs, contexts, itemMentions_strings, List.nil_append, List.append_nil]
  simp [artifactStringKeys]

end Receipt

/-! ### The same evidence -/

/-- Whatever file is mentioned on the left is mentioned on the right, up to how a digest is written. -/
structure Covered (ms ns : List Mention) : Prop where
  file : ∀ m ∈ ms, ∀ id, m.id? = some id → ∃ n ∈ ns, n.id? = some id
  stated : ∀ m ∈ ms, ∀ id d, m.id? = some id → m.digest = some d →
    ∃ n ∈ ns, ∃ d', n.id? = some id ∧ n.digest = some d' ∧ bare d' = bare d

/-- So is every content, as it is read or with its name taken off once more. -/
def ContentsCovered (ms ns : List Mention) : Prop :=
  ∀ m ∈ ms, ∀ d, m.digest = some d → ∃ n ∈ ns, ∃ d', n.digest = some d' ∧ (bare d' = bare d ∨ bare d' = bare (bare d))

/-- And no other content. -/
def ContentsListed (ns ms : List Mention) : Prop :=
  ∀ n ∈ ns, ∀ d', n.digest = some d' → ∃ m ∈ ms, ∃ d, m.digest = some d ∧ (bare d' = bare d ∨ bare d' = bare (bare d))

section Covered
variable {ms ns ls : List Mention}

theorem covered_of_subset (h : ∀ m ∈ ms, m ∈ ns) : Covered ms ns where
  file m hm _ hid := ⟨m, h m hm, hid⟩
  stated m hm _ d hid hd := ⟨m, h m hm, d, hid, hd, rfl⟩

theorem Covered.mono (h : Covered ms ns) (sub : ∀ m ∈ ns, m ∈ ls) : Covered ms ls where
  file m hm id hid := by
    obtain ⟨n, hn, hid'⟩ := h.file m hm id hid
    exact ⟨n, sub n hn, hid'⟩
  stated m hm id d hid hd := by
    obtain ⟨n, hn, rest⟩ := h.stated m hm id d hid hd
    exact ⟨n, sub n hn, rest⟩

theorem Covered.left (h : Covered ms ns) (sub : ∀ m ∈ ls, m ∈ ms) : Covered ls ns where
  file m hm := h.file m (sub m hm)
  stated m hm := h.stated m (sub m hm)

theorem Covered.trans (h : Covered ms ns) (h' : Covered ns ls) : Covered ms ls where
  file m hm id hid := by
    obtain ⟨n, hn, hid'⟩ := h.file m hm id hid
    exact h'.file n hn id hid'
  stated m hm id d hid hd := by
    obtain ⟨n, hn, e, hid', he, hbare⟩ := h.stated m hm id d hid hd
    obtain ⟨l, hl, e', hid'', he', hbare'⟩ := h'.stated n hn id e hid' he
    exact ⟨l, hl, e', hid'', he', hbare'.trans hbare⟩

/-- Mentions are covered if each of them is. -/
theorem covered_of_each (h : ∀ m ∈ ms, Covered [m] ns) : Covered ms ns where
  file m hm := (h m hm).file m (List.mem_singleton_self m)
  stated m hm := (h m hm).stated m (List.mem_singleton_self m)

/-- What is covered by mentions that agree, agrees. -/
theorem Covered.agree (h : Covered ms ns) (agree : Agree ns)
    (valid : ∀ m ∈ ms, ∀ i, m.identifier = some i → canonicalArtifactId i ≠ none) : Agree ms where
  valid := valid
  same m hm m' hm' id d d' hid hid' hd hd' := by
    obtain ⟨n, hn, e, hnid, hne, he⟩ := h.stated m hm id d hid hd
    obtain ⟨n', hn', e', hnid', hne', he'⟩ := h.stated m' hm' id d' hid' hd'
    exact he.symm.trans ((agree.same n hn n' hn' id e e' hnid hnid' hne hne').trans he')

end Covered

section Archived
variable {β τ : Type} {c : Codec β τ} {r : TraceArchiveReceipt τ} {a : TraceArchive τ}

/-- The mentions of the rows of an archive. -/
def rowMentions (rows : List (StoredTraceEvent τ)) : List Mention := rows.flatMap (fun row => mentions false row.payload)

/-- What the record of a receipt mentions of the rows. -/
def listedMentions (refs : List (String × Value)) (hashes : List String) : List Mention :=
  refs.flatMap refMentions ++ hashes.map (fun h => ⟨none, (Value.str h).text?⟩)

theorem text?_str {x : String} (h : x ≠ "") : (Value.str x).text? = some x := by
  show (some x).filter (· ≠ "") = some x
  rw [Option.filter_some, if_pos (decide_eq_true h)]

theorem ne_empty_of_canonical {id : String} (h : canonicalArtifactId id = some id) : id ≠ "" := by
  rintro rfl
  cases h

/-- The digest as an archive lists it. -/
def Named (digest : Option String) (v : Value) : Prop :=
  match digest with
  | none => v = .null
  | some d => ∃ d', digest? d = some d' ∧ v = .str d'

/-- The files and contents that were found are listed, each with its digest named, and no others. -/
structure Listed (found : References) (refs : List (String × Value)) (hashes : List String) : Prop where
  refSource : ∀ id v, (id, v) ∈ refs → ∃ digest, (id, digest) ∈ found.refs.rows ∧ Named digest v
  refImage : ∀ id digest, (id, digest) ∈ found.refs.rows → ∃ v, (id, v) ∈ refs ∧ Named digest v
  hashSource : ∀ x ∈ hashes, ∃ d ∈ found.hashes, digest? d = some x
  hashImage : ∀ d ∈ found.hashes, ∃ x ∈ hashes, digest? d = some x

theorem listed_of_named {found : References} {refs : List (String × Value)} {hashes : List String}
    (hrefs : namedRefs found = some refs) (hhashes : namedHashes found = some hashes) : Listed found refs hashes := by
  simp only [namedRefs, Option.bind_eq_bind, Option.bind_eq_some_iff, Option.some.injEq] at hrefs
  simp only [namedHashes, Option.bind_eq_bind, Option.bind_eq_some_iff, Option.some.injEq] at hhashes
  obtain ⟨named, hnamed, rfl⟩ := hrefs
  obtain ⟨listed, hlisted, rfl⟩ := hhashes
  refine ⟨fun id v hmem => ?_, fun id digest hrow => ?_, fun x hx => ?_, fun d hd => ?_⟩
  · rw [(Value.sortMembers_perm named).mem_iff] at hmem
    obtain ⟨⟨id', digest⟩, hrow, hname⟩ := source_of_mapM hnamed hmem
    cases digest with
    | none =>
      cases hname
      exact ⟨none, hrow, rfl⟩
    | some d =>
      obtain ⟨d', hd', heq⟩ := Option.map_eq_some_iff.1 hname
      cases heq
      exact ⟨some d, hrow, d', hd', rfl⟩
  · obtain ⟨y, hy, hname⟩ := image_of_mapM hnamed hrow
    cases digest with
    | none =>
      cases hname
      exact ⟨.null, (Value.sortMembers_perm named).mem_iff.2 hy, rfl⟩
    | some d =>
      obtain ⟨d', hd', rfl⟩ := Option.map_eq_some_iff.1 hname
      exact ⟨.str d', (Value.sortMembers_perm named).mem_iff.2 hy, d', hd', rfl⟩
  · rw [List.mem_insertionSort, List.mem_dedup] at hx
    exact source_of_mapM hlisted hx
  · obtain ⟨x, hx, hname⟩ := image_of_mapM hlisted hd
    exact ⟨x, by rwa [List.mem_insertionSort, List.mem_dedup], hname⟩

section Listed
variable {found : References} {ms : List Mention} {refs : List (String × Value)} {hashes : List String}

theorem mem_listedMentions {m : Mention} : m ∈ listedMentions refs hashes ↔
    (∃ ref ∈ refs, m ∈ refMentions ref) ∨ ∃ h ∈ hashes, (⟨none, (Value.str h).text?⟩ : Mention) = m := by
  rw [listedMentions, List.mem_append, List.mem_flatMap, List.mem_map]

/-- Everything that was mentioned is listed. -/
theorem covered_listed (represents : Represents found.refs ms)
    (listed : Listed found refs hashes) : Covered ms (listedMentions refs hashes) where
  file m hm id hid := by
    have hcanon : canonicalArtifactId id = some id := by
      obtain ⟨i, -, hi⟩ := Option.bind_eq_some_iff.1 hid
      exact canonicalArtifactId_idem hi
    obtain ⟨digest, hget⟩ := Option.ne_none_iff_exists'.1 ((represents.named id).2 ⟨m, hm, hid⟩)
    obtain ⟨v, hv, -⟩ := listed.refImage id digest (Table.mem_of_get hget)
    refine ⟨⟨(Value.str id).text?, v.text?⟩, mem_listedMentions.2 (.inl ⟨(id, v), hv, by simp [refMentions]⟩), ?_⟩
    rw [Mention.id?, text?_str (ne_empty_of_canonical hcanon)]
    exact hcanon
  stated m hm id d hid hd := by
    have hcanon : canonicalArtifactId id = some id := by
      obtain ⟨i, -, hi⟩ := Option.bind_eq_some_iff.1 hid
      exact canonicalArtifactId_idem hi
    obtain ⟨d₀, hget, hbare⟩ := represents.asserted m hm id d hid hd
    obtain ⟨v, hv, d', hd', rfl⟩ := listed.refImage id (some d₀) (Table.mem_of_get hget)
    refine ⟨⟨(Value.str id).text?, (Value.str d').text?⟩,
      mem_listedMentions.2 (.inl ⟨(id, .str d'), hv, by simp [refMentions]⟩), d', ?_, ?_, ?_⟩
    · rw [Mention.id?, text?_str (ne_empty_of_canonical hcanon)]
      exact hcanon
    · exact text?_str (ne_empty_of_digest? hd')
    · rw [bare_digest? hd', hbare]

theorem contents_listed
    (contents : ∀ x, x ∈ found.hashes ↔ ∃ m ∈ ms, ∃ d, m.digest = some d ∧ bare d = x)
    (listed : Listed found refs hashes) : ContentsCovered ms (listedMentions refs hashes) := by
  intro m hm d hd
  obtain ⟨x, hx, hname⟩ := listed.hashImage (bare d) ((contents (bare d)).2 ⟨m, hm, d, hd, rfl⟩)
  refine ⟨⟨none, (Value.str x).text?⟩, mem_listedMentions.2 (.inr ⟨x, hx, rfl⟩), x,
    text?_str (ne_empty_of_digest? hname), .inr ?_⟩
  rw [bare_digest? hname]

theorem listed_contents (represents : Represents found.refs ms)
    (contents : ∀ x, x ∈ found.hashes ↔ ∃ m ∈ ms, ∃ d, m.digest = some d ∧ bare d = x)
    (listed : Listed found refs hashes) : ContentsListed (listedMentions refs hashes) ms := by
  intro n hn d' hd'
  rcases mem_listedMentions.1 hn with ⟨⟨id, v⟩, hv, hmem⟩ | ⟨x, hx, rfl⟩
  · have htext : v.text? = some d' := by
      simp only [refMentions, List.mem_cons, List.not_mem_nil, or_false] at hmem
      rcases hmem with rfl | rfl <;> exact hd'
    obtain ⟨digest, hrow, hname⟩ := listed.refSource id v hv
    cases digest with
    | none =>
      rw [hname] at htext
      cases htext
    | some d =>
      obtain ⟨named, hnamed, rfl⟩ := hname
      cases (text?_str (ne_empty_of_digest? hnamed)).symm.trans htext
      obtain ⟨m, hm, -, hd⟩ := represents.stated id d (Table.get_of_mem hrow)
      exact ⟨m, hm, d, hd, .inl (bare_digest? hnamed)⟩
  · obtain ⟨d, hd, hname⟩ := listed.hashSource x hx
    cases (text?_str (ne_empty_of_digest? hname)).symm.trans hd'
    obtain ⟨m, hm, raw, hraw, rfl⟩ := (contents d).1 hd
    exact ⟨m, hm, raw, hraw, .inr (bare_digest? hname)⟩

/-- Nothing else is listed. -/
theorem listed_covered (represents : Represents found.refs ms)
    (listed : Listed found refs hashes) : Covered (listedMentions refs hashes) ms ∧
      ∀ m ∈ listedMentions refs hashes, ∀ i, m.identifier = some i → canonicalArtifactId i ≠ none := by
  have file {id : String} {v : Value} (hv : (id, v) ∈ refs) : ∃ digest, found.refs.get id = some digest ∧
      Named digest v ∧ (∃ m ∈ ms, m.id? = some id) ∧ canonicalArtifactId id = some id := by
    obtain ⟨digest, hrow, hname⟩ := listed.refSource id v hv
    have hget := Table.get_of_mem hrow
    obtain ⟨m, hm, hid⟩ := (represents.named id).1 (by simp [hget])
    obtain ⟨i, -, hi⟩ := Option.bind_eq_some_iff.1 hid
    exact ⟨digest, hget, hname, ⟨m, hm, hid⟩, canonicalArtifactId_idem hi⟩
  -- The digest that is listed for a file was stated for it.
  have stated {id d : String} {v : Value} (hv : (id, v) ∈ refs) (hd : v.text? = some d) :
      ∃ m ∈ ms, ∃ d', m.id? = some id ∧ m.digest = some d' ∧ bare d' = bare d := by
    obtain ⟨digest, hget, hname, -, -⟩ := file hv
    cases digest with
    | none =>
      rw [hname] at hd
      cases hd
    | some d₀ =>
      obtain ⟨d', hd', rfl⟩ := hname
      rw [text?_str (ne_empty_of_digest? hd')] at hd
      cases hd
      obtain ⟨m, hm, hid, hdigest⟩ := represents.stated id d₀ hget
      exact ⟨m, hm, d₀, hid, hdigest, (bare_digest? hd').symm⟩
  refine ⟨⟨fun m hm id hid => ?_, fun m hm id d hid hd => ?_⟩, fun m hm i hi => ?_⟩
  · rcases mem_listedMentions.1 hm with ⟨⟨id', v⟩, hv, hmem⟩ | ⟨h, -, rfl⟩
    · obtain ⟨digest, hget, -, hsource, hcanon⟩ := file hv
      simp only [refMentions, List.mem_cons, List.not_mem_nil, or_false] at hmem
      rcases hmem with rfl | rfl
      · cases hid
      · rw [Mention.id?, text?_str (ne_empty_of_canonical hcanon), Option.bind_some, hcanon] at hid
        cases hid
        exact hsource
    · cases hid
  · rcases mem_listedMentions.1 hm with ⟨⟨id', v⟩, hv, hmem⟩ | ⟨h, -, rfl⟩
    · obtain ⟨digest, hget, -, -, hcanon⟩ := file hv
      simp only [refMentions, List.mem_cons, List.not_mem_nil, or_false] at hmem
      rcases hmem with rfl | rfl
      · cases hid
      · rw [Mention.id?, text?_str (ne_empty_of_canonical hcanon), Option.bind_some, hcanon] at hid
        cases hid
        exact stated hv hd
    · cases hid
  · rcases mem_listedMentions.1 hm with ⟨⟨id', v⟩, hv, hmem⟩ | ⟨h, -, rfl⟩
    · obtain ⟨digest, hget, -, -, hcanon⟩ := file hv
      simp only [refMentions, List.mem_cons, List.not_mem_nil, or_false] at hmem
      rcases hmem with rfl | rfl
      · cases hi
      · cases (text?_str (ne_empty_of_canonical hcanon)).symm.trans hi
        rw [hcanon]
        simp
    · cases hi

end Listed

end Archived

/-! ### A committed receipt -/

section Committed
variable {β τ : Type} [LinearOrder τ] [DecidableEq β] {c : Codec β τ}

/-- The rows that a receipt covers. -/
def coveredRows (s : TraceStore β τ) (r : TraceArchiveReceipt τ) : List (StoredTraceEvent τ) :=
  (s.rowsOf r.range.runId).filter (fun row => r.range.firstSeq ≤ row.seq ∧ row.seq ≤ r.range.lastSeq)

/-- What they mention. -/
def coveredMentions (s : TraceStore β τ) (r : TraceArchiveReceipt τ) : List Mention :=
  (coveredRows s r).flatMap (fun row => mentions false row.payload.canon)

omit [LinearOrder τ] [DecidableEq β] in
theorem mem_coveredRows {s : TraceStore β τ} {r : TraceArchiveReceipt τ} {row : StoredTraceEvent τ} :
    row ∈ coveredRows s r ↔ row ∈ s.events ∧ inRange r row := by
  rw [coveredRows, List.mem_filter, TraceStore.mem_rowsOf, inRange, and_assoc, decide_eq_true_eq, decide_eq_true_eq]

omit [LinearOrder τ] [DecidableEq β] in
/-- Reading the rows puts their payloads into canonical form. -/
theorem payloads_of_validate {rows read : List (StoredTraceEvent τ)} (h : rows.mapM StoredTraceEvent.validate = some read)
    (p : StoredTraceEvent τ → Bool) (hp : ∀ row e, row.validate = some e → p e = p row) :
    (read.filter p).map (·.payload) = (rows.filter p).map (·.payload.canon) := by
  rw [mapM_eq_some_iff] at h
  induction h with
  | nil => rfl
  | @cons row e rest read' hrow _ ih =>
    rw [List.filter_cons, List.filter_cons, hp row e hrow]
    split
    · rw [List.map_cons, List.map_cons, ih, (StoredTraceEvent.validate_keeps hrow).2.2.2]
    · exact ih

/-- What the commit has made sure of a receipt. -/
structure Attested (s : TraceStore β τ) (r : TraceArchiveReceipt τ) (hex : String) (es : List Edge) : Prop where
  isHex : isHex64 hex.toList
  path : r.artifactId = "trace-archives/sha256/" ++ hex ++ ".json"
  sha256 : r.sha256 = "sha256:" ++ hex
  walked : edges ((coveredRows s r).map (fun row => (row.payload.canon, some r.range.runId))) = some es
  document : r.referenceDocument = some (documentOf es)
  documentValid : (documentOf es).valid
  runId : nonBlank r.range.runId
  digests : ∀ ref ∈ r.artifactRefs, digestOrNull ref.2
  lists : Covered (coveredMentions s r) (listedMentions r.artifactRefs r.artifactHashes)
  contents : ContentsCovered (coveredMentions s r) (listedMentions r.artifactRefs r.artifactHashes)
  listed : Covered (listedMentions r.artifactRefs r.artifactHashes) (coveredMentions s r)
  listedContents : ContentsListed (listedMentions r.artifactRefs r.artifactHashes) (coveredMentions s r)
  listedValid : ∀ m ∈ listedMentions r.artifactRefs r.artifactHashes, ∀ i, m.identifier = some i →
    canonicalArtifactId i ≠ none

omit [LinearOrder τ] [DecidableEq β] in
theorem digestOrNull_of_valid {r : TraceArchiveReceipt τ} (h : r.valid) : ∀ ref ∈ r.artifactRefs, digestOrNull ref.2 := by
  obtain ⟨-, -, -, -, -, -, hrefs, -⟩ := of_decide_eq_true h
  intro ref href
  obtain ⟨-, hnull | htext⟩ := of_decide_eq_true (List.all_eq_true.1 hrefs ref href)
  · rw [hnull]
    rfl
  · obtain ⟨d, -, hd⟩ := Option.map_eq_some_iff.1 htext
    rw [← hd]
    rfl

theorem Committed.attested {plan : TraceRetentionPlan τ} {receipts : List (TraceArchiveReceipt τ)} {stamp : τ}
    {s t : TraceStore β τ} {protection : TraceProtection} (h : Committed c plan receipts stamp s t protection)
    {r : TraceArchiveReceipt τ} (hr : r ∈ receipts) : ∃ hex es, Attested s r hex es := by
  obtain ⟨data, hfile, hverified⟩ := h.verified r hr
  obtain ⟨data', body, a, rows, hfile', hdecode, hcontents, hread, hevents, harchive⟩ :=
    unchangedRows_archived c (h.unchanged r hr)
  cases hfile.symm.trans hfile'
  obtain ⟨hvalid, -, -, -, hsome, -⟩ := of_decide_eq_true (h.pending r hr)
  obtain ⟨-, -, hrange, -, hdigest, -, -, -, -, -, hdocumentValid⟩ := of_decide_eq_true hvalid
  obtain ⟨⟨hrun, -⟩, -⟩ := TracePrefix.validate_eq_some.1 hrange
  obtain ⟨document, hdocument⟩ := Option.isSome_iff_exists.1 hsome
  simp only [verifyTraceArchive, hdecode, hcontents, decide_eq_true_eq, hdocument, Option.all_some] at hverified
  obtain ⟨-, hsha, hpath, -, hrefs, hhashes, hextract, -⟩ := hverified
  -- The rows of the archive are the covered rows, read.
  have hpayloads : a.events.map (·.payload) = (coveredRows s r).map (·.payload.canon) := by
    rw [hevents]
    refine payloads_of_validate hread _ (fun row e he => ?_)
    rw [(StoredTraceEvent.validate_keeps he).2.1]
  have hmentions : rowMentions a.events = coveredMentions s r := by
    have := congrArg (List.flatMap (mentions false)) hpayloads
    rwa [List.flatMap_map, List.flatMap_map] at this
  have hrecords : a.events.map (fun row => (row.payload, some r.range.runId)) =
      (coveredRows s r).map (fun row => (row.payload.canon, some r.range.runId)) := by
    have := congrArg (List.map (fun v => (v, some r.range.runId))) hpayloads
    rwa [List.map_map, List.map_map] at this
  rw [hrecords] at hextract
  obtain ⟨es, hes, -, rfl⟩ := extractReferenceDocument_eq_some.1 hextract
  simp only [archiveOf, Option.bind_eq_bind, Option.bind_eq_some_iff] at harchive
  obtain ⟨q, -, read, hread', harchive⟩ := harchive
  obtain ⟨-, hsame, found, hfound, hnamedRefs, hnamedHashes⟩ := archiveRows_eq_some c harchive
  have hobjects : ∀ row ∈ read, ∃ members, row.payload = .obj members := by
    intro row hrow
    obtain ⟨row', -, hrow'⟩ := source_of_mapM hread' hrow
    obtain ⟨-, members, hobj, -⟩ := StoredTraceEvent.validate_eq_some.1 (StoredTraceEvent.validate_idem hrow')
    exact ⟨members, hobj⟩
  have hlisted := listed_of_named hnamedRefs hnamedHashes
  rw [hrefs, hhashes] at hlisted
  have hms : mentions false (.arr (read.map (StoredTraceEvent.dump c))) = coveredMentions s r := by
    rw [mentions_rows c hobjects, ← hmentions, hsame]
    rfl
  have hhash := collectArtifactRefs_hashes hfound
  rcases collectArtifactRefs_spec (.arr (read.map (StoredTraceEvent.dump c))) with ⟨found', hfound', represents, -⟩ | ⟨⟨e, he⟩, -⟩
  · cases hfound.symm.trans hfound'
    rw [hms] at represents hhash
    obtain ⟨hback, hvalidMentions⟩ := listed_covered represents hlisted
    refine ⟨c.sha256 data, es, ?_, hpath, hsha.symm, hes, hdocument, ?_, hrun, digestOrNull_of_valid hvalid,
      covered_listed represents hlisted, contents_listed hhash hlisted, hback,
      listed_contents represents hhash hlisted, hvalidMentions⟩
    · exact isHex64_of_named (hsha ▸ hdigest)
    · rw [hdocument] at hdocumentValid
      exact hdocumentValid
  · cases hfound.symm.trans he

end Committed

end Motte.Trace
