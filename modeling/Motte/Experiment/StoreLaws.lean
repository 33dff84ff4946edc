import Motte.Experiment.Mirror
import Motte.Experiment.Service
import Motte.Storage.RunMoves

/-! What the experiment service relies on.

The experiment store is seen as a function from ids to cells. A request changes one
cell, and says so; what is read back of a document is the document, up to the order of
its keys. The run store is seen through `runs.get` and `runs.create`. -/
namespace Motte.Experiment
open Foundation Storage Service

/-! ### The experiment store -/

/-- The cell that a request changes, and how. -/
def CellRequest.mutation : CellRequest → Option (String × (Document → Except CellError Document))
  | .complete id run => some (id, completing id run)
  | .fail id reason => some (id, failing id reason)
  | .cancel id => some (id, cancelling id)
  | .cancelAllocated id => some (id, cancellingAllocated id)
  | .recordSuperseding id run => some (id, recording run)
  | _ => none

/-- The cell that a request tries to change, and how. -/
def CellRequest.trial : CellRequest → Option (String × (Document → Option Document))
  | .claim id => some (id, claiming)
  | .reset id => some (id, resetting)
  | _ => none

/-- What a store makes of a document. -/
structure Keeps (reads : Document → Document) : Prop where
  text : ∀ c key text, (reads c).get key = some (.str text) ↔ c.get key = some (.str text)
  texts : ∀ c key (texts : List String), c.get key = some (.arr (texts.map .str)) → (reads c).get key = some (.arr (texts.map .str))

namespace CellStore
variable {σ : Type} (S : CellStore σ)

/-- A store in which each request does to one cell what it says. -/
structure Lawful (Inv : σ → Prop) (reads : Document → Document) : Prop extends S.Orderly Inv where
  reading : Keeps reads
  keyed : ∀ s, Inv s → ∀ id c, S.cellAt s id = some c → cellId c = id
  getCell : ∀ s id, S.serve (.getCell id) s = (.ok (.found (S.cellAt s id)), s)
  getSpec : ∀ s experimentId version, S.serve (.getSpec experimentId version) s =
    (.ok (.found (S.specAt s (experimentId, version))), s)
  listCells : ∀ s experimentId version, Inv s → ∃ ds,
    S.serve (.listCells experimentId (some version)) s = (.ok (.documents ds), s) ∧ (ds.map cellId).Nodup ∧
      ∀ d, d ∈ ds ↔ S.cellAt s (cellId d) = some d ∧ cellKey d = (experimentId, version)
  mutates : ∀ r id mutate s, r.mutation = some (id, mutate) → (S.serve r).wp s
    (fun _ t => ∃ c c', S.cellAt s id = some c ∧ mutate c = .ok c' ∧
      (∀ key, S.specAt t key = S.specAt s key) ∧ S.cellAt t = Function.update (S.cellAt s) id (some (reads c')))
    (fun e t => t = s ∧ ∀ c, S.cellAt s id = some c → mutate c = .error e)
  tries : ∀ r id mutate s, r.trial = some (id, mutate) → (S.serve r).wp s
    (fun reply t => ∃ c, S.cellAt s id = some c ∧ ((reply = .flag false ∧ mutate c = none ∧ t = s) ∨
      ∃ c', reply = .flag true ∧ mutate c = some c' ∧ S.cellAt t = Function.update (S.cellAt s) id (some (reads c'))))
    (fun _ t => t = s)
  adds : ∀ spec cells s, (S.serve (.publish spec cells)).wp s
    (fun _ t => (∀ id c, S.cellAt s id = some c → S.cellAt t id = some c) ∧
      ∀ id c, S.cellAt t id = some c → S.cellAt s id = some c ∨ (S.cellAt s id = none ∧
        ∃ p ∈ cells, ∃ c', validateCell p = .ok c' ∧ cellKey c' = specKey spec ∧ cellId c' = id ∧ c = reads c'))
    (fun _ t => t = s)

end CellStore

theorem textOf_of_not {d : Document} {key : String} (h : ∀ text, d.get key ≠ some (.str text)) : textOf d key = "" := by
  rw [textOf, Document.text?]
  cases hget : d.get key with
  | none => rfl
  | some v =>
    cases v with
    | str text => exact absurd hget (h text)
    | _ => rfl

section Reading
variable {reads : Document → Document} (h : Keeps reads) {c : Document} {text : String}
include h

theorem status_reads : status (reads c) = some (.str text) ↔ status c = some (.str text) := h.text c _ text

theorem runId_reads : runId (reads c) = some (.str text) ↔ runId c = some (.str text) := h.text c _ text

theorem textOf_reads (key : String) : textOf (reads c) key = textOf c key := by
  by_cases hc : ∃ text, c.get key = some (.str text)
  · obtain ⟨text, htext⟩ := hc
    rw [textOf, textOf, Document.text?, Document.text?, htext, (h.text c key text).2 htext]
  · rw [textOf_of_not (fun text htext => hc ⟨text, htext⟩),
      textOf_of_not (fun text htext => hc ⟨text, (h.text c key text).1 htext⟩)]

theorem cellId_reads : cellId (reads c) = cellId c := textOf_reads h _

theorem cellKey_reads : cellKey (reads c) = cellKey c := by
  rw [cellKey, cellKey, textOf_reads h, textOf_reads h]

end Reading

/-! ### Dictionaries -/

theorem keeps_id : Keeps id where
  text _ _ _ := Iff.rfl
  texts _ _ _ h := h

theorem canonItems_texts (texts : List String) :
    Value.canonItems (texts.map Value.str) = texts.map Value.str := by
  induction texts with
  | nil => rfl
  | cons text rest ih =>
    rw [List.map_cons, Value.canonItems, ih]
    rfl

theorem keeps_canon : Keeps Document.canon where
  text c key text := by
    rw [Document.get_canon]
    cases c.get key with
    | none => simp
    | some v => cases v <;> simp [Value.canon]
  texts c key texts h := by
    rw [Document.get_canon, h, Option.map_some, Value.canon, canonItems_texts]

/-- A request whose answer is wrapped. -/
theorem wp_wrapped {σ ε α β : Type} {x : Op σ ε α} {g : α → β} {s : σ} {ok : β → σ → Prop} {err : ε → σ → Prop}
    (h : x.wp s (fun a t => ok (g a) t) err) : (x >>= fun a => pure (g a)).wp s ok err := by
  simp only [Op.wp_bind, Op.wp_pure]
  exact h

/-- The cells of a publication are those it was given, checked, and belong to its spec. -/
theorem source_of_validatePublication {payload spec : Document} {cellPayloads cells : List Document}
    (h : validatePublication payload cellPayloads = .ok (spec, cells)) {c : Document} (hc : c ∈ cells) :
    ∃ p ∈ cellPayloads, validateCell p = .ok c ∧ cellKey c = specKey payload := by
  have own := own_of_validatePublication h c hc
  rw [(validatePublication_ok h).1] at own
  simp only [validatePublication, except_bind_ok_iff, ensure_ok_iff, Except.ok.injEq, exists_const] at h
  obtain ⟨spec', -, cells', hcells, -, -, heq⟩ := h
  cases heq
  obtain ⟨p, hp, hvalid⟩ := exists_of_forall₂ (mapM_ok hcells).flip hc
  exact ⟨p, hp, hvalid, own⟩

theorem mem_matching {s : MemoryExperiments} (hs : s.Keyed) {experimentId version : String} {d : Document} :
    d ∈ s.matching experimentId (some version) ↔ s.cells.get (cellId d) = some d ∧ cellKey d = (experimentId, version) := by
  rw [MemoryExperiments.matching, List.mem_filter, List.mem_map, decide_eq_true_iff, cellKey, Prod.mk.injEq]
  constructor
  · rintro ⟨⟨⟨id, d'⟩, hrow, rfl⟩, hexperiment, hversion⟩
    have hget := Table.get_of_mem hrow
    refine ⟨?_, hexperiment, hversion version rfl⟩
    rw [hs id d' hget]
    exact hget
  · rintro ⟨hget, hexperiment, hversion⟩
    refine ⟨⟨_, Table.mem_of_get hget, rfl⟩, hexperiment, fun v hv => ?_⟩
    cases hv
    exact hversion

theorem lawful_memory (dumps : Value → String) : (memoryStore dumps).Lawful MemoryExperiments.Keyed id where
  toOrderly := orderly_memory dumps
  reading := keeps_id
  keyed s hs id c hget := hs id c hget
  getCell s id := rfl
  getSpec s experimentId version := rfl
  listCells s experimentId version hs := by
    refine ⟨_, rfl, ?_, fun d => ?_⟩
    · exact ((List.perm_insertionSort _ _).map cellId).nodup_iff.2 (matching_ids hs _ _)
    · rw [MemoryExperiments.listCells, List.mem_insertionSort]
      exact mem_matching hs
  mutates r id mutate s hr := by
    have changes (r : CellRequest) (hserve : MemoryExperiments.serve dumps r =
        (MemoryExperiments.transition id mutate >>= fun d => pure (.document d))) :
        ((memoryStore dumps).serve r).wp s (fun _ t => ∃ c c', s.cells.get id = some c ∧ mutate c = .ok c' ∧
            (∀ key, t.specs.get key = s.specs.get key) ∧
            (fun id => t.cells.get id) = Function.update (fun id => s.cells.get id) id (some c'))
          (fun e t => t = s ∧ ∀ c, s.cells.get id = some c → mutate c = .error e) := by
      show (MemoryExperiments.serve dumps r).wp s _ _
      rw [hserve]
      refine wp_wrapped (Op.wp_mono (MemoryExperiments.wp_transition id mutate) (fun c' t => ?_) (fun _ _ h => h))
      rintro ⟨c, hget, hmutate, rfl⟩
      refine ⟨c, c', hget, hmutate, fun _ => rfl, funext (fun other => ?_)⟩
      rw [Table.get_set, Function.update_apply]
    cases r <;> cases hr
    all_goals exact changes _ rfl
  tries r id mutate s hr := by
    have changes (r : CellRequest) (hserve : MemoryExperiments.serve dumps r =
        (MemoryExperiments.attempt id mutate >>= fun done => pure (.flag done))) :
        ((memoryStore dumps).serve r).wp s (fun reply t => ∃ c, s.cells.get id = some c ∧
            ((reply = .flag false ∧ mutate c = none ∧ t = s) ∨ ∃ c', reply = .flag true ∧ mutate c = some c' ∧
              (fun id => t.cells.get id) = Function.update (fun id => s.cells.get id) id (some c')))
          (fun _ t => t = s) := by
      show (MemoryExperiments.serve dumps r).wp s _ _
      rw [hserve]
      refine wp_wrapped (Op.wp_mono (MemoryExperiments.wp_attempt id mutate) (fun done t => ?_) (fun _ _ h => h))
      rintro ⟨c, hget, ⟨rfl, hmutate, rfl⟩ | ⟨c', rfl, hmutate, rfl⟩⟩
      · exact ⟨c, hget, .inl ⟨rfl, hmutate, rfl⟩⟩
      · refine ⟨c, hget, .inr ⟨c', rfl, hmutate, funext (fun other => ?_)⟩⟩
        rw [Table.get_set, Function.update_apply]
    cases r <;> cases hr
    all_goals exact changes _ rfl
  adds spec cells s := by
    refine wp_wrapped (Op.wp_mono (MemoryExperiments.wp_publish spec cells) (fun _ t => ?_) (fun _ _ h => h))
    rintro ⟨spec', cells', hvalid, ⟨existing, -, rfl, -⟩ | ⟨-, hfree, rfl⟩⟩
    · exact ⟨fun _ _ h => h, fun _ _ h => .inl h⟩
    · refine ⟨fun id c hget => ?_, fun id c hget => ?_⟩
      · have hnew : id ∉ cells'.map cellId := by
          intro hmem
          obtain ⟨c', hc', rfl⟩ := List.mem_map.1 hmem
          cases (hfree c' hc').symm.trans hget
        exact (Table.get_foldl_set_ne hnew).trans hget
      · rcases Table.get_foldl_set_cases (nodup_of_validatePublication hvalid) hget with hget | ⟨c', hc', hid, rfl⟩
        · exact .inl hget
        · obtain ⟨p, hp, hcell, hkey⟩ := source_of_validatePublication hvalid hc'
          exact .inr ⟨hid ▸ hfree c hc', p, hp, c, hcell, hkey, hid, rfl⟩

/-! ### Tables -/

theorem mem_listCells_sqlite {s : SqliteExperiments} (hs : s.Keyed) {experimentId version : String} {d : Document} :
    d ∈ SqliteExperiments.listCells experimentId (some version) s ↔
      (s.cells.get (cellId d)).map (·.payload) = some d ∧ cellKey d = (experimentId, version) := by
  rw [SqliteExperiments.listCells, List.mem_map]
  constructor
  · rintro ⟨row, hrow, rfl⟩
    rw [List.mem_filter, List.mem_map, decide_eq_true_iff] at hrow
    obtain ⟨⟨⟨id, row'⟩, hmem, rfl⟩, hexperiment, hversion⟩ := hrow
    have hget := Table.get_of_mem hmem
    have tidy := hs id row' hget
    rw [tidy.id, tidy.experiment, Option.map_eq_some_iff, Prod.mk.injEq]
    exact ⟨⟨row', hget, rfl⟩, hexperiment, hversion version rfl⟩
  · rintro ⟨hget, hkey⟩
    obtain ⟨row, hrow, hpayload⟩ := Option.map_eq_some_iff.1 hget
    have tidy := hs _ row hrow
    rw [← hpayload, tidy.experiment, Prod.mk.injEq] at hkey
    refine ⟨row, ?_, hpayload⟩
    rw [List.mem_filter, List.mem_map, decide_eq_true_iff]
    refine ⟨⟨_, Table.mem_of_get hrow, rfl⟩, hkey.1, fun v hv => ?_⟩
    cases hv
    exact hkey.2

theorem nodup_listCells_sqlite {s : SqliteExperiments} (hs : s.Keyed) (experimentId : String) (version : Option String) :
    ((SqliteExperiments.listCells experimentId version s).map cellId).Nodup := by
  have ids : (s.cells.rows.map Prod.snd).map (fun row => cellId row.payload) = s.cells.rows.map Prod.fst := by
    rw [List.map_map]
    exact List.map_congr_left (fun row hrow => (hs row.1 row.2 (Table.get_of_mem hrow)).id)
  rw [SqliteExperiments.listCells, List.map_map]
  exact (ids ▸ s.cells.nodup).sublist (List.filter_sublist.map _)

theorem cellAt_set_sqlite {s : SqliteExperiments} {id : String} {row : CellRow} :
    (fun other => ((s.cells.set id row).get other).map (·.payload)) =
      Function.update (fun other => (s.cells.get other).map (·.payload)) id (some row.payload) := by
  funext other
  rw [Table.get_set, Function.update_apply]
  split
  · rfl
  · rfl

theorem lawful_sqlite : sqliteStore.Lawful SqliteExperiments.Keyed Document.canon where
  toOrderly := orderly_sqlite
  reading := keeps_canon
  keyed s hs id c hget := by
    obtain ⟨row, hrow, rfl⟩ := Option.map_eq_some_iff.1 hget
    exact (hs id row hrow).id
  getCell s id := rfl
  getSpec s experimentId version := rfl
  listCells s experimentId version hs :=
    ⟨_, rfl, nodup_listCells_sqlite hs _ _, fun _ => mem_listCells_sqlite hs⟩
  mutates r id mutate s hr := by
    have changes (r : CellRequest) (hserve : SqliteExperiments.serve r =
        (SqliteExperiments.mutateCell id mutate >>= fun d => pure (.document d))) :
        (sqliteStore.serve r).wp s (fun _ t => ∃ c c', sqliteStore.cellAt s id = some c ∧ mutate c = .ok c' ∧
            (∀ key, t.specs.get key = s.specs.get key) ∧
            sqliteStore.cellAt t = Function.update (sqliteStore.cellAt s) id (some (Document.canon c')))
          (fun e t => t = s ∧ ∀ c, sqliteStore.cellAt s id = some c → mutate c = .error e) := by
      show (SqliteExperiments.serve r).wp s _ _
      rw [hserve]
      refine wp_wrapped (Op.wp_mono (SqliteExperiments.wp_mutateCell id mutate) (fun c' t => ?_) (fun e t => ?_))
      · rintro ⟨row, hget, hmutate, rfl⟩
        exact ⟨row.payload, c', Option.map_eq_some_iff.2 ⟨row, hget, rfl⟩, hmutate, fun _ => rfl, cellAt_set_sqlite⟩
      · rintro ⟨rfl, herror⟩
        refine ⟨rfl, fun c hc => ?_⟩
        obtain ⟨row, hrow, rfl⟩ := Option.map_eq_some_iff.1 hc
        exact herror row hrow
    cases r <;> cases hr
    all_goals exact changes _ rfl
  tries r id mutate s hr := by
    have changes (r : CellRequest) (hserve : SqliteExperiments.serve r =
        (SqliteExperiments.attempt id mutate >>= fun done => pure (.flag done))) :
        (sqliteStore.serve r).wp s (fun reply t => ∃ c, sqliteStore.cellAt s id = some c ∧
            ((reply = .flag false ∧ mutate c = none ∧ t = s) ∨ ∃ c', reply = .flag true ∧ mutate c = some c' ∧
              sqliteStore.cellAt t = Function.update (sqliteStore.cellAt s) id (some (Document.canon c'))))
          (fun _ t => t = s) := by
      show (SqliteExperiments.serve r).wp s _ _
      rw [hserve]
      refine wp_wrapped (Op.wp_mono (SqliteExperiments.wp_attempt id mutate) (fun done t => ?_) (fun _ _ h => h))
      rintro ⟨row, hget, ⟨rfl, hmutate, rfl⟩ | ⟨c', rfl, hmutate, rfl⟩⟩
      · exact ⟨row.payload, Option.map_eq_some_iff.2 ⟨row, hget, rfl⟩, .inl ⟨rfl, hmutate, rfl⟩⟩
      · exact ⟨row.payload, Option.map_eq_some_iff.2 ⟨row, hget, rfl⟩, .inr ⟨c', rfl, hmutate, cellAt_set_sqlite⟩⟩
    cases r <;> cases hr
    all_goals exact changes _ rfl
  adds spec cells s := by
    refine wp_wrapped (Op.wp_mono (SqliteExperiments.wp_publish spec cells) (fun _ t => ?_) (fun _ _ h => h))
    rintro ⟨spec', cells', hvalid, ⟨existing, -, rfl, -⟩ | ⟨-, hfree, rfl⟩⟩
    · exact ⟨fun _ _ h => h, fun _ _ h => .inl h⟩
    · have none_of {c' : Document} (hc' : c' ∈ cells') : sqliteStore.cellAt s (cellId c') = none :=
        Option.map_eq_none_iff.2 (hfree c' hc')
      refine ⟨fun id c hget => ?_, fun id c hget => ?_⟩
      · have hnew : id ∉ cells'.map cellId := by
          intro hmem
          obtain ⟨c', hc', rfl⟩ := List.mem_map.1 hmem
          cases (none_of hc').symm.trans hget
        exact (congrArg (Option.map CellRow.payload) (Table.get_foldl_set_ne hnew)).trans hget
      · obtain ⟨row, hrow, rfl⟩ := Option.map_eq_some_iff.1 hget
        rcases Table.get_foldl_set_cases (nodup_of_validatePublication hvalid) hrow with hrow | ⟨c', hc', hid, rfl⟩
        · exact .inl (Option.map_eq_some_iff.2 ⟨row, hrow, rfl⟩)
        · obtain ⟨p, hp, hcell, hkey⟩ := source_of_validatePublication hvalid hc'
          exact .inr ⟨hid ▸ none_of hc', p, hp, c', hcell, hkey, hid, rfl⟩

/-! ### The run store -/

/-- A run is created if there is none of its id, and the others stay. -/
structure Creating {ρ : Type} (P : Platform ρ) : Prop where
  create : ∀ run event s, (P.serve (.run (.create run event))).wp s
    (fun _ t => P.runAt s run.id = none ∧ P.runAt t run.id = some (run.stored 1) ∧
      ∀ id, id ≠ run.id → P.runAt t id = P.runAt s id)
    (fun e t => (∀ id, P.runAt t id = P.runAt s id) ∧ ((Exn.store e).isConflict = true → (P.runAt s run.id).isSome))

theorem not_conflict_of_newRun {run : RunInput} {e : Err} (h : newRun run = .error e) : (Exn.store e).isConflict = false := by
  simp only [newRun, except_bind_error_iff, ensure_error_iff, ensure_ok_iff] at h
  rcases h with ⟨-, rfl⟩ | ⟨-, -, ⟨-, rfl⟩ | ⟨-, -, ⟨-, rfl⟩ | ⟨-, -, h⟩⟩⟩
  · rfl
  · rfl
  · rfl
  · cases h

theorem not_conflict_of_validateEvent {event : Option Event} {runId : String} {e : Err}
    (h : validateEvent event runId = .error e) : (Exn.store e).isConflict = false := by
  unfold validateEvent at h
  split at h
  · cases h
  · simp only [except_bind_error_iff, ensure_error_iff, ensure_ok_iff] at h
    rcases h with ⟨-, rfl⟩ | ⟨-, -, h⟩
    · rfl
    · cases h

/-- Why a run is not created: there is one of its id, or it or its event is not well formed. -/
def Refused (run : RunInput) (event : Option Event) (taken : Bool) (e : Err) : Prop :=
  taken = true ∨ ((Exn.store e).isConflict = false ∧
    ((∃ e', newRun run = .error e') ∨ ∃ e', validateEvent event run.id = .error e'))

section
variable {run : RunInput} {event : Option Event} {taken : Bool} {e : Err}

theorem Refused.of_run (h : newRun run = .error e) : Refused run event taken e :=
  .inr ⟨not_conflict_of_newRun h, .inl ⟨e, h⟩⟩

theorem Refused.of_event (h : validateEvent event run.id = .error e) : Refused run event taken e :=
  .inr ⟨not_conflict_of_validateEvent h, .inr ⟨e, h⟩⟩

theorem Refused.conflict (h : Refused run event taken e) (hconflict : (Exn.store e).isConflict = true) : taken = true := by
  rcases h with h | ⟨hno, -⟩
  · exact h
  · rw [hno] at hconflict
    cases hconflict

end

theorem wp_createRun_memory (run : RunInput) (event : Option Event) (s : Memory.RunLog) :
    (Memory.createRun run event).wp s
      (fun _ t => s.run run.id = none ∧ t.run run.id = some (run.stored 1) ∧ ∀ id, id ≠ run.id → t.run id = s.run id)
      (fun e t => t = s ∧ Refused run event (s.run run.id).isSome e) := by
  simp only [Memory.createRun, Op.wp_bind, Op.wp_lift, Op.wp_gets, Memory.wp_publishRun]
  refine ⟨fun u hu => ⟨fun pending _ => ⟨fun _ hnew => ?_, fun e he => ?_⟩, fun e he => ?_⟩, fun e he => ?_⟩
  · obtain ⟨-, rfl⟩ := newRun_ok hu
    rw [ensure_ok_iff, Option.isNone_iff_eq_none] at hnew
    refine ⟨hnew, ?_, fun id hid => ?_⟩
    · rw [Memory.run_setRun]
      exact if_pos rfl
    · rw [Memory.run_setRun]
      exact if_neg hid
  · obtain ⟨-, rfl⟩ := newRun_ok hu
    rw [ensure_error_iff, Option.isNone_iff_eq_none] at he
    exact ⟨trivial, .inl (Option.ne_none_iff_isSome.1 he.1)⟩
  · obtain ⟨-, rfl⟩ := newRun_ok hu
    exact ⟨trivial, .of_event he⟩
  · exact ⟨trivial, .of_run he⟩

theorem creating_memory : Creating memory where
  create run event s := by
    have h := wp_createRun_memory run event s.toRunLog
    show (Memory.onAudit (Memory.onRuns (Memory.serveRun (.create run event)))).wp s _ _
    simp only [Memory.serveRun, Memory.onAudit, Memory.onRuns, Op.wp_zoom, Op.wp_bind, Op.wp_pure]
    exact Op.wp_mono h (fun _ _ ht => ht) (fun e t refused => ⟨fun _ => by rw [refused.1], refused.2.conflict⟩)

theorem wp_createRun_sqlite (run : RunInput) (event : Option Event) (s : Sqlite.RunLog) :
    (Sqlite.createRun run event).wp s
      (fun _ t => s.run run.id = none ∧ t.run run.id = some (run.stored 1) ∧ ∀ id, id ≠ run.id → t.run id = s.run id)
      (fun e t => t = s ∧ Refused run event (s.run run.id).isSome e) := by
  simp only [Sqlite.createRun, Op.wp_bind, Op.wp_lift, Op.wp_atomically, Op.wp_gets, Op.wp_modify, Op.wp_pure]
  refine ⟨fun u hu => ⟨fun pending _ => ⟨fun _ hnew => ?_, fun e he => ?_⟩, fun e he => ?_⟩, fun e he => ?_⟩
  · obtain ⟨-, rfl⟩ := newRun_ok hu
    rw [ensure_ok_iff, Option.isNone_iff_eq_none] at hnew
    have stored := @Sqlite.run_setRun s (run.stored 1).id _ (Sqlite.normal_stored run 1)
    refine ⟨?_, ?_, fun id hid => ?_⟩
    · rw [Sqlite.RunLog.run, show run.id = (run.stored 1).id from rfl, hnew]
      rfl
    · exact (stored _).trans (if_pos rfl)
    · exact (stored id).trans (if_neg hid)
  · obtain ⟨-, rfl⟩ := newRun_ok hu
    rw [ensure_error_iff, Option.isNone_iff_eq_none] at he
    refine ⟨trivial, .inl ?_⟩
    rw [Sqlite.RunLog.run, Option.isSome_map]
    exact Option.ne_none_iff_isSome.1 he.1
  · obtain ⟨-, rfl⟩ := newRun_ok hu
    exact ⟨trivial, .of_event he⟩
  · exact ⟨trivial, .of_run he⟩

theorem creating_sqlite : Creating sqlite where
  create run event s := by
    have h := wp_createRun_sqlite run event s.toRunLog
    show (Sqlite.onAudit (Sqlite.onRuns (Sqlite.serveRun (.create run event)))).wp s _ _
    simp only [Sqlite.serveRun, Sqlite.onAudit, Sqlite.onRuns, Op.wp_zoom, Op.wp_bind, Op.wp_pure]
    exact Op.wp_mono h (fun _ _ ht => ht) (fun e t refused => ⟨fun _ => by rw [refused.1], refused.2.conflict⟩)

/-- A run that is well formed is created unless there is one of its id. -/
structure Accepting {ρ : Type} (P : Platform ρ) : Prop where
  create : ∀ run event s, (P.serve (.run (.create run event))).wp s (fun _ _ => True)
    (fun e _ => Refused run event (P.runAt s run.id).isSome e)

theorem accepting_memory : Accepting memory where
  create run event s := by
    have h := wp_createRun_memory run event s.toRunLog
    show (Memory.onAudit (Memory.onRuns (Memory.serveRun (.create run event)))).wp s _ _
    simp only [Memory.serveRun, Memory.onAudit, Memory.onRuns, Op.wp_zoom, Op.wp_bind, Op.wp_pure]
    exact Op.wp_mono h (fun _ _ _ => trivial) (fun _ _ ht => ht.2)

theorem accepting_sqlite : Accepting sqlite where
  create run event s := by
    have h := wp_createRun_sqlite run event s.toRunLog
    show (Sqlite.onAudit (Sqlite.onRuns (Sqlite.serveRun (.create run event)))).wp s _ _
    simp only [Sqlite.serveRun, Sqlite.onAudit, Sqlite.onRuns, Op.wp_zoom, Op.wp_bind, Op.wp_pure]
    exact Op.wp_mono h (fun _ _ _ => trivial) (fun _ _ ht => ht.2)

/-! ### Deployments -/

/-- The stores that a service works on, with what it relies on. -/
structure Deployment (σ ρ : Type) where
  store : CellStore σ
  platform : Platform ρ
  Inv : σ → Prop
  reads : Document → Document
  lawful : store.Lawful Inv reads
  creating : Creating platform

def memoryDeployment (dumps : Value → String) : Deployment MemoryExperiments Memory.Store where
  store := memoryStore dumps
  platform := memory
  Inv := MemoryExperiments.Keyed
  reads := id
  lawful := lawful_memory dumps
  creating := creating_memory

def sqliteDeployment : Deployment SqliteExperiments Sqlite.Database where
  store := sqliteStore
  platform := sqlite
  Inv := SqliteExperiments.Keyed
  reads := Document.canon
  lawful := lawful_sqlite
  creating := creating_sqlite

namespace Deployment
variable {σ ρ : Type} (D : Deployment σ ρ)

def serve (o : Chance) (q : Inquiry) : Op (Lab σ ρ) Exn (Finding q) := answer D.store D.platform o q

def cellAt (s : Lab σ ρ) (id : String) : Option Document := D.store.cellAt s.experiments id

/-- There is a run of this id. -/
def live (s : Lab σ ρ) (runId : String) : Bool := (D.platform.runAt s.platform runId).isSome

/-- Nothing happens to the cells, and no run appears or goes: what others do between two calls of the service. -/
def Undisturbed (s t : Lab σ ρ) : Prop := t.experiments = s.experiments ∧ ∀ runId, D.live t runId = D.live s runId

end Deployment

end Motte.Experiment
