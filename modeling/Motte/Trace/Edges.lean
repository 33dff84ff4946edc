import Motte.Trace.Commit

/-! What a reference document says, and what becomes of it in a receipt.

A document is a list of edges up to order and repetition; resolving it gives the
runs and the events that can be reached. A receipt keeps the resolved runs and the
events of the document of its rows, and its record is walked like any other: the
walk gives the same runs and events again. -/
namespace Motte.Trace
open Foundation

/-! ### Order -/

/-- A total order decides the ordered list by its items. -/
theorem ordered_congr {α : Type} [DecidableEq α] {r : α → α → Prop} [DecidableRel r] [Std.Total r] [IsTrans α r]
    [Std.Antisymm r] {a b : List α} (h : ∀ x, x ∈ a ↔ x ∈ b) : ordered r a = ordered r b := by
  have perm : a.dedup.Perm b.dedup := by
    refine (List.perm_ext_iff_of_nodup (List.nodup_dedup a) (List.nodup_dedup b)).2 (fun x => ?_)
    rw [List.mem_dedup, List.mem_dedup, h]
  exact ((List.perm_insertionSort r _).trans (perm.trans (List.perm_insertionSort r _).symm)).eq_of_pairwise'
    (List.pairwise_insertionSort r _) (List.pairwise_insertionSort r _)

instance : Std.Total seqLe where
  total a b := by
    rcases lt_trichotomy a.1 b.1 with h | h | h
    · exact .inl (.inl h)
    · rcases le_total a.2 b.2 with h' | h'
      · exact .inl (.inr ⟨h, h'⟩)
      · exact .inr (.inr ⟨h.symm, h'⟩)
    · exact .inr (.inl h)

instance : IsTrans (String × Nat) seqLe where
  trans a b c := by
    rintro (h | ⟨h, hseq⟩) (h' | ⟨h', hseq'⟩)
    · exact .inl (h.trans h')
    · exact .inl (h' ▸ h)
    · exact .inl (h ▸ h')
    · exact .inr ⟨h.trans h', hseq.trans hseq'⟩

instance : Std.Antisymm seqLe where
  antisymm a b := by
    rintro (h | ⟨h, hseq⟩) (h' | ⟨h', hseq'⟩)
    · exact absurd (h.trans h') (lt_irrefl _)
    · exact absurd h (h' ▸ lt_irrefl _)
    · exact absurd h' (h ▸ lt_irrefl _)
    · exact Prod.ext h (le_antisymm hseq hseq')

/-! ### Documents -/

section Documents
variable {records : List (Value × Option String)} {es : List Edge}

theorem mem_edges (h : edges records = some es) {e : Edge} :
    e ∈ es ↔ ∃ r ∈ records, ∃ found, walk r.2 true false r.1 = some found ∧ e ∈ found := by
  obtain ⟨lists, hlists, rfl⟩ := Option.map_eq_some_iff.1 h
  rw [List.mem_flatten]
  constructor
  · rintro ⟨found, hfound, he⟩
    obtain ⟨r, hr, hwalk⟩ := source_of_mapM hlists hfound
    exact ⟨r, hr, found, hwalk, he⟩
  · rintro ⟨r, hr, found, hwalk, he⟩
    obtain ⟨found', hfound', hwalk'⟩ := image_of_mapM hlists hr
    cases hwalk.symm.trans hwalk'
    exact ⟨found, hfound', he⟩

/-- Edges are there if every record can be walked. -/
theorem edges_of_walks (h : ∀ r ∈ records, ∃ found, walk r.2 true false r.1 = some found) :
    ∃ es, edges records = some es := by
  suffices ∃ lists, records.mapM (fun r => walk r.2 true false r.1) = some lists by
    obtain ⟨lists, hlists⟩ := this
    exact ⟨lists.flatten, by rw [edges, hlists]; rfl⟩
  induction records with
  | nil => exact ⟨[], rfl⟩
  | cons r rest ih =>
    obtain ⟨found, hfound⟩ := h r (List.mem_cons_self ..)
    obtain ⟨lists, hlists⟩ := ih (fun r' hr' => h r' (List.mem_cons_of_mem r hr'))
    exact ⟨found :: lists, by rw [List.mapM_cons, hfound, hlists]; rfl⟩

theorem extractReferenceDocument_eq_some {document : ReferenceDocument} :
    extractReferenceDocument records = some document ↔
      ∃ es, edges records = some es ∧ (∀ e ∈ es, e.valid) ∧ documentOf es = document := by
  simp only [extractReferenceDocument, Option.bind_eq_bind, Option.bind_eq_some_iff, guard_eq_some_iff, exists_const,
    Option.some.injEq, List.all_eq_true]

theorem mem_documentOf_runIds {x : String} : x ∈ (documentOf es).runIds ↔ Edge.run x ∈ es := by
  rw [documentOf, mem_ordered, List.mem_filterMap]
  constructor
  · rintro ⟨e, he, hx⟩
    split at hx
    · cases hx
      exact he
    · cases hx
  · exact fun h => ⟨_, h, rfl⟩

theorem mem_documentOf_eventSeqs {x : String × Nat} : x ∈ (documentOf es).eventSeqs ↔ Edge.event x.1 x.2 ∈ es := by
  rw [documentOf, mem_ordered, List.mem_filterMap]
  constructor
  · rintro ⟨e, he, hx⟩
    split at hx
    · cases hx
      exact he
    · cases hx
  · exact fun h => ⟨_, h, rfl⟩

theorem mem_documentOf_passReferences {p : PassReference} : p ∈ (documentOf es).passReferences ↔ Edge.pass p ∈ es := by
  rw [documentOf, mem_ordered, List.mem_filterMap]
  constructor
  · rintro ⟨e, he, hx⟩
    split at hx
    · cases hx
      exact he
    · cases hx
  · exact fun h => ⟨_, h, rfl⟩

/-! ### Resolution -/

variable {getPass : String → Option Value}

/-- The run can be reached by one of the edges. -/
def Reaches (getPass : String → Option Value) (es : List Edge) (x : String) : Prop :=
  .run x ∈ es ∨ ∃ p targets, .pass p ∈ es ∧ resolvePass getPass p = some targets ∧ x ∈ targets

theorem resolve_eq_some {runs : List String} {events : List (String × Nat)}
    (h : resolveReferenceDocument getPass (documentOf es) = some (runs, events)) :
    (∀ p, .pass p ∈ es → ∃ targets, resolvePass getPass p = some targets) ∧ (∀ x, x ∈ runs ↔ Reaches getPass es x) ∧
      ∀ x, x ∈ events ↔ Edge.event x.1 x.2 ∈ es := by
  simp only [resolveReferenceDocument, Option.bind_eq_bind, Option.bind_eq_some_iff, Option.some.injEq,
    Prod.mk.injEq] at h
  obtain ⟨targets, htargets, rfl, rfl⟩ := h
  refine ⟨fun p hp => ?_, fun x => ?_, fun x => mem_documentOf_eventSeqs⟩
  · obtain ⟨found, -, hfound⟩ := image_of_mapM htargets (mem_documentOf_passReferences.2 hp)
    exact ⟨found, hfound⟩
  · rw [List.mem_append, mem_documentOf_runIds, List.mem_flatten, Reaches]
    refine or_congr_right ⟨?_, ?_⟩
    · rintro ⟨found, hfound, hx⟩
      obtain ⟨p, hp, hresolve⟩ := source_of_mapM htargets hfound
      exact ⟨p, found, mem_documentOf_passReferences.1 hp, hresolve, hx⟩
    · rintro ⟨p, found, hp, hresolve, hx⟩
      obtain ⟨found', hfound', hresolve'⟩ := image_of_mapM htargets (mem_documentOf_passReferences.2 hp)
      cases hresolve.symm.trans hresolve'
      exact ⟨found, hfound', hx⟩

theorem resolve_of_passes (getPass : String → Option Value) (h : ∀ p, .pass p ∈ es → ∃ targets, resolvePass getPass p = some targets) :
    ∃ resolved, resolveReferenceDocument getPass (documentOf es) = some resolved := by
  suffices ∀ passes : List PassReference, (∀ p ∈ passes, .pass p ∈ es) →
      ∃ targets, passes.mapM (resolvePass getPass) = some targets by
    obtain ⟨targets, htargets⟩ := this (documentOf es).passReferences (fun p hp => mem_documentOf_passReferences.1 hp)
    exact ⟨_, by rw [resolveReferenceDocument, htargets]; rfl⟩
  intro passes hpasses
  induction passes with
  | nil => exact ⟨[], rfl⟩
  | cons p rest ih =>
    obtain ⟨found, hfound⟩ := h p (hpasses p (List.mem_cons_self ..))
    obtain ⟨targets, htargets⟩ := ih (fun p' hp' => hpasses p' (List.mem_cons_of_mem p hp'))
    exact ⟨found :: targets, by rw [List.mapM_cons, hfound, htargets]; rfl⟩

/-- A run that a scoring pass leads to is named by a text. -/
theorem nonBlank_of_resolvePass {p : PassReference} {targets : List String} {x : String}
    (h : resolvePass getPass p = some targets) (hx : x ∈ targets) : nonBlank x := by
  simp only [resolvePass, Option.bind_eq_bind, Option.bind_eq_some_iff, guard_eq_some_iff, exists_const,
    Option.some.injEq] at h
  obtain ⟨record, -, -, target, ⟨v, -, hid⟩, -, rfl⟩ := h
  split at hx
  · cases hx
  · rw [List.mem_singleton] at hx
    exact hx ▸ (Option.filter_eq_some_iff.1 hid).2

end Documents

/-! ### The record of a receipt -/

/-- A key that names neither runs nor a scoring pass. -/
def plainKey (key : String) : Bool :=
  !(key = "run_id" ∨ ends "_run_id" key) ∧ !(key = "run_ids" ∨ ends "_run_ids" key) ∧ key ∉ passKeys

theorem keyedEdges_plain {p : Place} {key : String} {child : Value} (h : plainKey key) : keyedEdges p key child = none := by
  simp only [plainKey, decide_eq_true_eq, Bool.not_eq_true', decide_eq_false_iff_not] at h
  obtain ⟨notRun, notRuns, notPass⟩ := h
  rw [keyedEdges, if_neg (fun h => notRun h.1), if_neg (fun h => notRuns h.1), if_neg (fun h => notPass h.1)]

theorem walkMembers_plain {p : Place} {key : String} {child : Value} {rest : List (String × Value)} (h : plainKey key) :
    walkMembers p ((key, child) :: rest) =
      (walk p.owner false (p.top ∧ key = "owner") child).bind
        (fun es => (walkMembers p rest).bind (fun others => some (es ++ others))) := by
  rw [walkMembers, keyedEdges_plain h]
  rfl

theorem walkMembers_keyed {p : Place} {key : String} {child : Value} {rest : List (String × Value)} {es : List Edge}
    (h : keyedEdges p key child = some (some es)) :
    walkMembers p ((key, child) :: rest) = (walkMembers p rest).bind (fun others => some (es ++ others)) := by
  rw [walkMembers, h]
  rfl

theorem walkItems_map {α : Type} {owner : Option String} {items : List α} {f : α → Value} {g : α → List Edge}
    (h : ∀ x ∈ items, walk owner false false (f x) = some (g x)) :
    walkItems owner (items.map f) = some (items.flatMap g) := by
  induction items with
  | nil => rfl
  | cons x rest ih =>
    rw [List.map_cons, walkItems, h x (List.mem_cons_self ..), ih (fun y hy => h y (List.mem_cons_of_mem x hy))]
    rfl

theorem walkItems_append {owner : Option String} {a b : List Value} {x y : List Edge} (ha : walkItems owner a = some x)
    (hb : walkItems owner b = some y) : walkItems owner (a ++ b) = some (x ++ y) := by
  induction a generalizing x with
  | nil =>
    cases ha
    exact hb
  | cons child rest ih =>
    simp only [walkItems, Option.bind_eq_bind, Option.bind_eq_some_iff, Option.some.injEq] at ha
    obtain ⟨es, hes, others, hothers, rfl⟩ := ha
    rw [List.cons_append, walkItems, hes, ih hothers, List.append_assoc]
    rfl

/-- A digest that may be missing. -/
def digestOrNull : Value → Bool
  | .null | .str _ => true
  | _ => false

theorem walk_digest {owner : Option String} {ownership : Bool} {v : Value} (h : digestOrNull v) :
    walk owner false ownership v = some [] := by
  cases v <;> first | rfl | cases h

/-- The artifacts of a receipt have no edges. -/
theorem walk_artifact {owner : Option String} {id : String} {v : Value} (h : digestOrNull v) :
    walk owner false false (.obj [("artifact_id", .str id), ("sha256", v)]) = some [] := by
  have notEvidence : isEvidence (.obj [("artifact_id", .str id), ("sha256", v)]) = false := rfl
  have noExpected : expectedRun (.obj [("artifact_id", .str id), ("sha256", v)]) = some none := rfl
  have noTarget : targetEdge (.obj [("artifact_id", .str id), ("sha256", v)]) = some [] := rfl
  simp only [walk, notEvidence, noExpected, noTarget, walkMembers_plain (show plainKey "artifact_id" by decide),
    walkMembers_plain (show plainKey "sha256" by decide), walk_digest h]
  rfl

theorem walk_hash {owner : Option String} {d : String} : walk owner false false (.obj [("sha256", .str d)]) = some [] := by
  have notEvidence : isEvidence (.obj [("sha256", .str d)]) = false := rfl
  have noExpected : expectedRun (.obj [("sha256", .str d)]) = some none := rfl
  have noTarget : targetEdge (.obj [("sha256", .str d)]) = some [] := rfl
  simp only [walk, notEvidence, noExpected, noTarget, walkMembers_plain (show plainKey "sha256" by decide)]
  rfl

theorem ne_empty_of_nonBlank {x : String} (h : nonBlank x) : x ≠ "" := by
  rintro rfl
  cases h

theorem identity?_str {x : String} (h : nonBlank x) : identity? (.str x) = some x := by
  rw [identity?, Value.str?, Option.filter_some, if_pos h]

/-- The reference to an event is read back. -/
theorem walk_eventRef {owner : Option String} {runId : String} {seq : Nat} (hrun : nonBlank runId) (hseq : 1 ≤ seq) :
    walk owner false false (.obj [("kind", .str "event"), ("run_id", .str runId), ("locator", .str (toString seq))]) =
      some [.event runId seq] := by
  have hne := ne_empty_of_nonBlank hrun
  have hlocator : toString seq ≠ "" := by
    intro h
    have read := readSeq_toString seq
    rw [h] at read
    cases read
  have evidence : isEvidence
      (.obj [("kind", .str "event"), ("run_id", .str runId), ("locator", .str (toString seq))]) = true := rfl
  have edge : evidenceEdge (.obj [("kind", .str "event"), ("run_id", .str runId), ("locator", .str (toString seq))]) =
      some (.event runId seq) := by
    have hkind : (Value.obj [("kind", .str "event"), ("run_id", .str runId), ("locator", .str (toString seq))]).textAt?
        "kind" = some "event" := rfl
    have hid : (Value.obj [("kind", .str "event"), ("run_id", .str runId), ("locator", .str (toString seq))]).textAt?
        "run_id" = some runId := by
      show (some runId).filter (· ≠ "") = some runId
      rw [Option.filter_some, if_pos (decide_eq_true hne)]
    have htext : (Value.obj [("kind", .str "event"), ("run_id", .str runId), ("locator", .str (toString seq))]).textAt?
        "locator" = some (toString seq) := by
      show (some (toString seq)).filter (· ≠ "") = some (toString seq)
      rw [Option.filter_some, if_pos (decide_eq_true hlocator)]
    have hkeys : [("kind", Value.str "event"), ("run_id", .str runId), ("locator", .str (toString seq))].length = 3 ∧
        [("kind", Value.str "event"), ("run_id", .str runId), ("locator", .str (toString seq))].all
          (fun m => m.1 ∈ ["kind", "run_id", "locator"]) = true := ⟨rfl, rfl⟩
    simp only [evidenceEdge, hkeys, hkind, hid, htext, readSeq_toString, hseq, and_self, guard_true, Option.pure_def,
      Option.bind_eq_bind, Option.bind_some, if_true]
  rw [walk, if_pos evidence, edge]
  rfl

theorem mapM_identity {runs : List String} (h : ∀ x ∈ runs, nonBlank x) : (runs.map Value.str).mapM identity? = some runs := by
  rw [mapM_eq_some_iff, List.forall₂_map_left_iff, List.forall₂_same]
  exact fun x hx => identity?_str (h x hx)

section Receipt
variable {τ : Type} {getPass : String → Option Value} {r : TraceArchiveReceipt τ} {document : ReferenceDocument}
  {runs : List String} {events : List (String × Nat)} {v : Value}

/-- What the record of a receipt holds, apart from its scoring passes. -/
def receiptMembers (r : TraceArchiveReceipt τ) (runs : List String) (events : List (String × Nat)) : List (String × Value) :=
  [("archive_id", .str r.archiveId), ("run_id", .str r.range.runId), ("artifact_id", .str r.artifactId),
    ("sha256", .str r.sha256),
    ("artifacts", .arr (r.artifactRefs.map (fun ref => .obj [("artifact_id", .str ref.1), ("sha256", ref.2)]) ++
      r.artifactHashes.map (fun h => .obj [("sha256", .str h)]))),
    ("referenced_run_ids", .arr ((ordered (· ≤ ·) runs).map .str)),
    ("event_refs", .arr ((ordered seqLe events).map fun e =>
      .obj [("kind", .str "event"), ("run_id", .str e.1), ("locator", .str (toString e.2))]))]

def passMembers (traceProtection : Bool) (document : ReferenceDocument) : List (String × Value) :=
  if traceProtection then [] else
    [("pass_refs", .arr (document.passReferences.map fun p => .obj [("source_pass_id", .str p.passId)]))]

theorem receiptRecord_eq (hdocument : r.referenceDocument = some document)
    (hresolved : resolveReferenceDocument getPass document = some (runs, events)) (traceProtection : Bool) :
    receiptRecord getPass traceProtection r =
      some (.obj (receiptMembers r runs events ++ passMembers traceProtection document)) := by
  simp only [receiptRecord, hdocument, hresolved, Option.bind_eq_bind, Option.bind_some]
  rfl

/-- The record of a receipt gives the resolved runs and the events of its document. -/
theorem walk_receiptMembers (hrun : nonBlank r.range.runId)
    (hruns : ∀ x ∈ runs, nonBlank x) (hevents : ∀ e ∈ events, nonBlank e.1 ∧ 1 ≤ e.2)
    (hrefs : ∀ ref ∈ r.artifactRefs, digestOrNull ref.2) :
    walk (some r.range.runId) true false (.obj (receiptMembers r runs events)) =
      some ((ordered (· ≤ ·) runs).map .run ++ (ordered seqLe events).map (fun e => .event e.1 e.2)) := by
  have artifacts : walkItems (some r.range.runId)
      (r.artifactRefs.map (fun ref => .obj [("artifact_id", .str ref.1), ("sha256", ref.2)]) ++
        r.artifactHashes.map (fun h => .obj [("sha256", .str h)])) = some [] := by
    refine walkItems_append (x := []) (y := []) ?_ ?_
    · rw [walkItems_map (fun ref href => walk_artifact (hrefs ref href))]
      simp
    · rw [walkItems_map (fun h _ => walk_hash)]
      simp
  have eventRefs : walkItems (some r.range.runId) ((ordered seqLe events).map fun e =>
      .obj [("kind", .str "event"), ("run_id", .str e.1), ("locator", .str (toString e.2))]) =
      some ((ordered seqLe events).map (fun e => .event e.1 e.2)) := by
    rw [walkItems_map (fun e he => walk_eventRef (hevents e (mem_ordered.1 he)).1 (hevents e (mem_ordered.1 he)).2)]
    rw [← List.map_eq_flatMap]
  have ownRun : keyedEdges ⟨some r.range.runId, true, false, none⟩ "run_id" (.str r.range.runId) = some (some []) := by
    rw [keyedEdges, if_pos ⟨.inl rfl, by simp⟩, identity?_str hrun, Option.map_some, if_pos ⟨rfl, .inl rfl, rfl⟩]
  have runRefs (p : Place) : keyedEdges p "referenced_run_ids" (.arr ((ordered (· ≤ ·) runs).map .str)) =
      some (some ((ordered (· ≤ ·) runs).map .run)) := by
    rw [keyedEdges, if_neg (fun h => absurd h.1 (by decide)), if_pos ⟨.inr (by decide), by simp⟩, Value.items?,
      Option.bind_some, mapM_identity (fun x hx => hruns x (mem_ordered.1 hx))]
    rfl
  have notEvidence : isEvidence (.obj (receiptMembers r runs events)) = false := rfl
  have noExpected : expectedRun (.obj (receiptMembers r runs events)) = some none := rfl
  have noTarget : targetEdge (.obj (receiptMembers r runs events)) = some [] := rfl
  rw [walk, notEvidence, noExpected, noTarget, receiptMembers]
  simp only [Bool.false_eq_true, if_false, Option.bind_eq_bind, Option.bind_some]
  rw [walkMembers_plain (show plainKey "archive_id" by decide), walkMembers_keyed ownRun,
    walkMembers_plain (show plainKey "artifact_id" by decide), walkMembers_plain (show plainKey "sha256" by decide),
    walkMembers_plain (show plainKey "artifacts" by decide), walkMembers_keyed (runRefs _),
    walkMembers_plain (show plainKey "event_refs" by decide), walkMembers]
  simp only [walk, artifacts, eventRefs, Option.bind_some, List.nil_append, List.append_nil]

end Receipt

/-! ### Runs that a record refers to -/

/-- The walk has met a reference to the run, or the run is the owner. -/
def Met (owner : Option String) (es : List Edge) (x : String) : Prop :=
  owner = some x ∨ .run x ∈ es ∨ ∃ n, .event x n ∈ es

theorem Met.left {owner : Option String} {es others : List Edge} {x : String} (h : Met owner es x) :
    Met owner (es ++ others) x := by
  rcases h with h | h | ⟨n, h⟩
  · exact .inl h
  · exact .inr (.inl (List.mem_append_left _ h))
  · exact .inr (.inr ⟨n, List.mem_append_left _ h⟩)

theorem Met.right {owner : Option String} {es others : List Edge} {x : String} (h : Met owner others x) :
    Met owner (es ++ others) x := by
  rcases h with h | h | ⟨n, h⟩
  · exact .inl h
  · exact .inr (.inl (List.mem_append_right _ h))
  · exact .inr (.inr ⟨n, List.mem_append_right _ h⟩)

theorem identity?_eq_some {v : Value} {x : String} (h : identity? v = some x) : v = .str x := by
  cases v <;> simp_all [identity?, Value.str?]

theorem textAt?_eq_some {v : Value} {key x : String} (h : v.textAt? key = some x) : v.get? key = some (.str x) := by
  obtain ⟨w, hw, htext⟩ := Option.bind_eq_some_iff.1 h
  cases w <;> simp_all [Value.text?, Value.str?]

/-- An evidence reference refers to the run of its edge only. -/
theorem evidence_runs {members : List (String × Value)} {e : Edge} (h : evidenceEdge (.obj members) = some e) :
    ∀ x ∈ referencedRuns (.obj members), Met none [e] x := by
  simp only [evidenceEdge, Option.bind_eq_bind, Option.bind_eq_some_iff, guard_eq_some_iff, exists_const] at h
  obtain ⟨⟨hlength, hkeys⟩, kind, hkind, runId, hrun, locator, hlocator, h⟩ := h
  have hmet : Met none [e] runId := by
    split at h
    · obtain ⟨seq, -, -, rfl⟩ := by
        simpa only [Option.bind_eq_some_iff, guard_eq_some_iff, exists_const, Option.some.injEq] using h
      exact .inr (.inr ⟨seq, List.mem_singleton_self _⟩)
    · split at h
      · obtain ⟨-, rfl⟩ := by
          simpa only [Option.bind_eq_some_iff, guard_eq_some_iff, exists_const, Option.some.injEq] using h
        exact .inr (.inl (List.mem_singleton_self _))
      · split at h
        · cases h
          exact .inr (.inl (List.mem_singleton_self _))
        · cases h
  obtain ⟨⟨k₁, v₁⟩, ⟨k₂, v₂⟩, ⟨k₃, v₃⟩, rfl⟩ := List.length_eq_three.1 hlength
  have hkind := textAt?_eq_some hkind
  have hrun := textAt?_eq_some hrun
  have hlocator := textAt?_eq_some hlocator
  have hruns : referencedRuns (.obj [(k₁, v₁), (k₂, v₂), (k₃, v₃)]) = [runId] := by
    simp only [List.all_cons, List.all_nil, Bool.and_true, Bool.and_eq_true, decide_eq_true_eq, List.mem_cons,
      List.not_mem_nil, or_false] at hkeys
    have runKey : keyedRuns "run_id" (.str runId) = [runId] := rfl
    have kindKey (s : String) : keyedRuns "kind" (.str s) = [] := rfl
    have locatorKey (s : String) : keyedRuns "locator" (.str s) = [] := rfl
    obtain ⟨rfl | rfl | rfl, rfl | rfl | rfl, rfl | rfl | rfl⟩ := hkeys <;>
      simp_all [Value.get?, List.lookup_cons, referencedRuns, memberRuns]
  intro x hx
  rw [hruns, List.mem_singleton] at hx
  exact hx ▸ hmet

theorem strings_of_identities {items : List Value} {runs : List String} (h : items.mapM identity? = some runs) :
    items = runs.map .str := by
  rw [mapM_eq_some_iff] at h
  induction h with
  | nil => rfl
  | cons hhead _ ih => rw [identity?_eq_some hhead, ih, List.map_cons]

theorem itemRuns_strings (texts : List String) : itemRuns (texts.map .str) = [] := by
  induction texts with
  | nil => rfl
  | cons x rest ih =>
    rw [List.map_cons, itemRuns, ih]
    rfl

/-- Runs that are named by the key of a member. -/
theorem keyed_runs {p : Place} {key : String} {child : Value} {es : List Edge}
    (h : keyedEdges p key child = some (some es)) : ∀ x ∈ keyedRuns key child ++ referencedRuns child, Met p.owner es x := by
  unfold keyedEdges at h
  split at h
  · rename_i hkey
    obtain ⟨runId, hrun, hes⟩ := Option.map_eq_some_iff.1 (Option.some.inj h)
    cases identity?_eq_some hrun
    intro x hx
    rw [keyedRuns, if_pos hkey.1] at hx
    obtain rfl : x = runId := by simpa [referencedRuns, Value.str?] using hx
    split at hes
    · rename_i hown
      exact .inl hown.2.2.symm
    · exact .inr (.inl (hes ▸ List.mem_singleton_self _))
  · rename_i hnotRun
    split at h
    · rename_i hkey
      obtain ⟨runs, hruns, rfl⟩ := Option.map_eq_some_iff.1 (Option.some.inj h)
      obtain ⟨items, hitems, hmap⟩ := Option.bind_eq_some_iff.1 hruns
      have hplain : ¬ (key = "run_id" ∨ ends "_run_id" key) := fun hrun => hnotRun ⟨hrun, hkey.2⟩
      cases child with
      | arr items' =>
        cases hitems
        have hkeyed : keyedRuns key (.arr (runs.map .str)) = runs := by
          rw [keyedRuns, if_neg hplain, if_pos hkey.1, Value.items?, Option.getD_some, List.filterMap_map]
          exact List.filterMap_some
        intro x hx
        rw [strings_of_identities hmap, hkeyed, referencedRuns, itemRuns_strings, List.append_nil] at hx
        exact .inr (.inl (List.mem_map_of_mem hx))
      | _ => cases hitems
    · rename_i hnotRuns
      split at h
      · rename_i hkey
        obtain ⟨passId, hpass, -⟩ := Option.map_eq_some_iff.1 (Option.some.inj h)
        cases identity?_eq_some hpass
        have hplain : ¬ (key = "run_id" ∨ ends "_run_id" key) := fun hrun => hnotRun ⟨hrun, hkey.2⟩
        have hplain' : ¬ (key = "run_ids" ∨ ends "_run_ids" key) := fun hruns => hnotRuns ⟨hruns, hkey.2⟩
        intro x hx
        rw [keyedRuns, if_neg hplain, if_neg hplain'] at hx
        cases hx
      · cases h

/-- A member that the walk goes into names no run by its key. -/
theorem keyedRuns_of_none {p : Place} {key : String} {child : Value} (h : keyedEdges p key child = none) :
    keyedRuns key child = [] := by
  unfold keyedEdges at h
  split at h
  · cases h
  · rename_i hnotRun
    split at h
    · cases h
    · rename_i hnotRuns
      rw [keyedRuns]
      split
      · rename_i hkey
        obtain rfl : child = .null := by_contra (fun hne => hnotRun ⟨hkey, hne⟩)
        rfl
      · split
        · rename_i hkey
          obtain rfl : child = .null := by_contra (fun hne => hnotRuns ⟨hkey, hne⟩)
          rfl
        · rfl

theorem target_runs {v : Value} {es : List Edge} (h : targetEdge v = some es) :
    ∀ x ∈ (if v.get? "target_type" = some (.str "run") then ((v.get? "target_id").bind Value.str?).toList else []),
      .run x ∈ es := by
  intro x hx
  unfold targetEdge at h
  split at hx
  · rename_i htype
    rw [if_pos htype] at h
    obtain ⟨id, hid, rfl⟩ := Option.map_eq_some_iff.1 h
    obtain ⟨w, hw, hid⟩ := Option.bind_eq_some_iff.1 hid
    cases identity?_eq_some hid
    obtain rfl : x = id := by simpa [hw, Value.str?] using hx
    exact List.mem_singleton_self _
  · cases hx

mutual
/-- Every run that a record refers to is met by the walk over it. -/
theorem walk_meets (owner : Option String) (top ownership : Bool) : ∀ (v : Value) (es : List Edge),
    walk owner top ownership v = some es → ∀ x ∈ referencedRuns v, Met owner es x
  | .null, _, _ | .bool _, _, _ | .int _, _, _ | .float _, _, _ | .str _, _, _ => fun _ hx => by cases hx
  | .arr items, es, h => walkItems_meets owner items es h
  | .obj members, es, h => by
    intro x hx
    rw [walk] at h
    split at h
    · obtain ⟨e, he, rfl⟩ := Option.map_eq_some_iff.1 h
      rcases evidence_runs he x hx with hnone | hmet
      · cases hnone
      · exact .inr hmet
    · simp only [Option.bind_eq_bind, Option.bind_eq_some_iff, Option.some.injEq] at h
      obtain ⟨expected, -, target, htarget, rest, hrest, rfl⟩ := h
      rw [referencedRuns, List.mem_append] at hx
      rcases hx with hx | hx
      · exact Met.left (.inr (.inl (target_runs htarget x hx)))
      · exact (walkMembers_meets ⟨owner, top, ownership, expected⟩ members rest hrest x hx).right

theorem walkItems_meets (owner : Option String) : ∀ (items : List Value) (es : List Edge),
    walkItems owner items = some es → ∀ x ∈ itemRuns items, Met owner es x
  | [], _, _ => fun _ hx => by cases hx
  | child :: rest, es, h => by
    intro x hx
    simp only [walkItems, Option.bind_eq_bind, Option.bind_eq_some_iff, Option.some.injEq] at h
    obtain ⟨edges, hedges, others, hothers, rfl⟩ := h
    rw [itemRuns, List.mem_append] at hx
    rcases hx with hx | hx
    · exact (walk_meets owner false false child edges hedges x hx).left
    · exact (walkItems_meets owner rest others hothers x hx).right

theorem walkMembers_meets (p : Place) : ∀ (members : List (String × Value)) (es : List Edge),
    walkMembers p members = some es → ∀ x ∈ memberRuns members, Met p.owner es x
  | [], _, _ => fun _ hx => by cases hx
  | (key, child) :: rest, es, h => by
    intro x hx
    rw [walkMembers] at h
    rw [memberRuns, List.mem_append] at hx
    cases hkeyed : keyedEdges p key child with
    | none =>
      rw [hkeyed] at h
      simp only [Option.bind_eq_bind, Option.bind_eq_some_iff, Option.some.injEq] at h
      obtain ⟨edges, hedges, others, hothers, rfl⟩ := h
      rw [keyedRuns_of_none hkeyed, List.nil_append] at hx
      rcases hx with hx | hx
      · exact (walk_meets p.owner false _ child edges hedges x hx).left
      · exact (walkMembers_meets p rest others hothers x hx).right
    | some found =>
      rw [hkeyed] at h
      simp only [Option.bind_eq_bind, Option.bind_eq_some_iff, Option.some.injEq] at h
      obtain ⟨edges, rfl, others, hothers, rfl⟩ := h
      rcases hx with hx | hx
      · exact (keyed_runs hkeyed x hx).left
      · exact (walkMembers_meets p rest others hothers x hx).right
end

end Motte.Trace
