import Motte.Experiment.Store
import Motte.Foundation.Run

/-! What one request does to a cell.

A request either leaves the status and the run of a cell as they are or takes the
cell along one edge: claimed, completed, failed, cancelled or reset. Each handler of
the two stores is shown to do one of these to one cell, or to add cells that were
not there. -/
namespace Motte.Experiment
open Foundation

/-- What a request does to a cell. -/
inductive Moved (r : CellRequest) (id : String) (c c' : Document) : Prop
  | kept (h : status c' = status c) (run : runId c' = runId c)
  | claimed (request : r = .claim id) (from_pending : status c = some (.str "pending"))
      (to_allocating : status c' = some (.str "allocating")) (run : runId c' = runId c)
  | completed (run : String) (request : r = .complete id run) (from_allocating : status c = some (.str "allocating"))
      (to_allocated : status c' = some (.str "allocated")) (set : runId c' = some (.str run))
  | failed (reason : String) (request : r = .fail id reason) (from_allocating : status c = some (.str "allocating"))
      (to_failed : status c' = some (.str "failed")) (run : runId c' = runId c)
  | cancelled (request : r = .cancel id)
      (from_open : status c = some (.str "pending") ∨ status c = some (.str "allocating"))
      (to_cancelled : status c' = some (.str "cancelled")) (run : runId c' = runId c)
  | withdrawn (request : r = .cancelAllocated id) (from_allocated : status c = some (.str "allocated"))
      (to_cancelled : status c' = some (.str "cancelled")) (run : runId c' = runId c)
  | reset (request : r = .reset id) (from_allocating : status c = some (.str "allocating"))
      (to_pending : status c' = some (.str "pending")) (run : runId c' = runId c)

/-- The members that a request may change. -/
def changing : List String := ["allocation_status", "run_id", "failure_reason", "superseding_run_ids"]

/-- A cell moves, and the rest of it stays. -/
structure Changed (r : CellRequest) (id : String) (c c' : Document) : Prop where
  moved : Moved r id c c'
  rest : ∀ key ∉ changing, c'.get key = c.get key

section Changes
variable {id run reason : String} {c c' : Document}

theorem get_set_rest {v : Value} {key other : String} (h : key ∈ changing) (ho : other ∉ changing) :
    Table.get (c.set key v) other = c.get other := Table.get_set_ne _ _ (fun he => ho (he ▸ h))

theorem status_withStatus (c : Document) (s : String) : status (withStatus c s) = some (.str s) := Table.get_set_self ..

theorem runId_withStatus (c : Document) (s : String) : runId (withStatus c s) = runId c :=
  Table.get_set_ne _ _ (by decide)

theorem completing_ok (h : completing id run c = .ok c') : status c = some (.str "allocating") ∧
    status c' = some (.str "allocated") ∧ runId c' = some (.str run) ∧ ∀ key ∉ changing, c'.get key = c.get key := by
  simp only [completing, requireStatus, except_bind_ok_iff, ensure_ok_iff, List.mem_singleton, exists_eq_left,
    Except.ok.injEq, exists_const] at h
  obtain ⟨hstatus, rfl⟩ := h
  refine ⟨hstatus, ?_, Table.get_set_self .., fun key hkey => ?_⟩
  · rw [status, Table.get_set_ne _ _ (by decide)]
    exact status_withStatus c _
  · rw [get_set_rest (by decide) hkey, withStatus, get_set_rest (by decide) hkey]

theorem changed_completing (h : completing id run c = .ok c') : Changed (.complete id run) id c c' := by
  obtain ⟨hfrom, hto, hrun, rest⟩ := completing_ok h
  exact ⟨.completed run rfl hfrom hto hrun, rest⟩

theorem failing_ok (h : failing id reason c = .ok c') : status c' = some (.str "failed") := by
  simp only [failing, requireStatus, except_bind_ok_iff, ensure_ok_iff, List.mem_singleton, exists_eq_left,
    Except.ok.injEq, exists_const] at h
  obtain ⟨-, rfl⟩ := h
  rw [status, Table.get_set_ne _ _ (by decide)]
  exact status_withStatus c _

theorem changed_failing (h : failing id reason c = .ok c') : Changed (.fail id reason) id c c' := by
  simp only [failing, requireStatus, except_bind_ok_iff, ensure_ok_iff, List.mem_singleton, exists_eq_left,
    Except.ok.injEq, exists_const] at h
  obtain ⟨hstatus, rfl⟩ := h
  refine ⟨.failed reason rfl hstatus ?_ ?_, fun key hkey => ?_⟩
  · rw [status, Table.get_set_ne _ _ (by decide)]
    exact status_withStatus c _
  · rw [runId, Table.get_set_ne _ _ (by decide)]
    exact runId_withStatus c _
  · rw [get_set_rest (by decide) hkey, withStatus, get_set_rest (by decide) hkey]

theorem changed_cancelling (h : cancelling id c = .ok c') : Changed (.cancel id) id c c' := by
  simp only [cancelling, requireStatus, except_bind_ok_iff, ensure_ok_iff, List.mem_cons, List.not_mem_nil, or_false,
    exists_eq_or_imp, exists_eq_left, Except.ok.injEq, exists_const] at h
  obtain ⟨hstatus, rfl⟩ := h
  exact ⟨.cancelled rfl hstatus (status_withStatus c _) (runId_withStatus c _),
    fun key hkey => get_set_rest (by decide) hkey⟩

theorem changed_cancellingAllocated (h : cancellingAllocated id c = .ok c') : Changed (.cancelAllocated id) id c c' := by
  simp only [cancellingAllocated, requireStatus, except_bind_ok_iff, ensure_ok_iff, List.mem_singleton, exists_eq_left,
    Except.ok.injEq, exists_const] at h
  obtain ⟨hstatus, rfl⟩ := h
  exact ⟨.withdrawn rfl hstatus (status_withStatus c _) (runId_withStatus c _),
    fun key hkey => get_set_rest (by decide) hkey⟩

theorem changed_recording (r : CellRequest) (h : recording run c = .ok c') : Changed r id c c' := by
  simp only [recording, except_bind_ok_iff, Except.ok.injEq] at h
  obtain ⟨listed, -, rfl⟩ := h
  exact ⟨.kept (Table.get_set_ne _ _ (by decide)) (Table.get_set_ne _ _ (by decide)),
    fun key hkey => get_set_rest (by decide) hkey⟩

theorem changed_claiming (h : claiming c = some c') : Changed (.claim id) id c c' := by
  unfold claiming at h
  split at h
  · rename_i hstatus
    cases h
    exact ⟨.claimed rfl hstatus (status_withStatus c _) (runId_withStatus c _),
      fun key hkey => get_set_rest (by decide) hkey⟩
  · cases h

theorem changed_resetting (h : resetting c = some c') : Changed (.reset id) id c c' := by
  unfold resetting at h
  split at h
  · rename_i hstatus
    cases h
    exact ⟨.reset rfl hstatus (status_withStatus c _) (runId_withStatus c _),
      fun key hkey => get_set_rest (by decide) hkey⟩
  · cases h

/-- A cell that was read back is written and read back again. -/
theorem Moved.canon {r : CellRequest} (h : Moved r id c c') (canonical : Document.canon c = c) :
    Moved r id c (Document.canon c') := by
  have status_canon {s : String} (hs : status c' = some (.str s)) : status (Document.canon c') = some (.str s) := by
    rw [status, Document.get_canon, ← status, hs]
    rfl
  have run_canon (hr : runId c' = runId c) : runId (Document.canon c') = runId c := by
    rw [runId, Document.get_canon, ← runId, hr, runId, ← Document.get_canon, canonical]
  cases h with
  | kept hs hr =>
    refine .kept ?_ (run_canon hr)
    rw [status, Document.get_canon, ← status, hs, status, ← Document.get_canon, canonical]
  | claimed request hfrom hto hr => exact .claimed request hfrom (status_canon hto) (run_canon hr)
  | completed run request hfrom hto hset =>
    refine .completed run request hfrom (status_canon hto) ?_
    rw [runId, Document.get_canon, ← runId, hset]
    rfl
  | failed reason request hfrom hto hr => exact .failed reason request hfrom (status_canon hto) (run_canon hr)
  | cancelled request hfrom hto hr => exact .cancelled request hfrom (status_canon hto) (run_canon hr)
  | withdrawn request hfrom hto hr => exact .withdrawn request hfrom (status_canon hto) (run_canon hr)
  | reset request hfrom hto hr => exact .reset request hfrom (status_canon hto) (run_canon hr)

theorem Changed.canon {r : CellRequest} (h : Changed r id c c') (canonical : Document.canon c = c) :
    Changed r id c (Document.canon c') := by
  refine ⟨h.moved.canon canonical, fun key hkey => ?_⟩
  rw [Document.get_canon, h.rest key hkey, ← Document.get_canon, canonical]

theorem Changed.refl (r : CellRequest) (id : String) (c : Document) : Changed r id c c := ⟨.kept rfl rfl, fun _ _ => rfl⟩

theorem Changed.textOf_eq {r : CellRequest} (h : Changed r id c c') {key : String} (hkey : key ∉ changing) :
    textOf c' key = textOf c key := by
  rw [textOf, textOf, Document.text?, Document.text?, h.rest key hkey]

end Changes

/-! ### Dictionaries -/

theorem nodup_of_validatePublication {payload spec : Document} {cellPayloads cells : List Document}
    (h : validatePublication payload cellPayloads = .ok (spec, cells)) : (cells.map cellId).Nodup := by
  simp only [validatePublication, except_bind_ok_iff, ensure_ok_iff, Except.ok.injEq, exists_const] at h
  obtain ⟨spec', -, cells', -, nodup, -, heq⟩ := h
  cases heq
  exact nodup

theorem own_of_validatePublication {payload spec : Document} {cellPayloads cells : List Document}
    (h : validatePublication payload cellPayloads = .ok (spec, cells)) : ∀ cell ∈ cells, cellKey cell = specKey spec := by
  simp only [validatePublication, except_bind_ok_iff, ensure_ok_iff, Except.ok.injEq, exists_const] at h
  obtain ⟨spec', -, cells', -, -, own, heq⟩ := h
  cases heq
  exact own

namespace MemoryExperiments
variable {dumps : Value → String} {s : MemoryExperiments}

theorem wp_transition (id : String) (mutate : Document → Except CellError Document) :
    (transition id mutate).wp s (fun c' t => ∃ c, s.cells.get id = some c ∧ mutate c = .ok c' ∧
      t = { s with cells := s.cells.set id c' }) (fun e t => t = s ∧ ∀ c, s.cells.get id = some c → mutate c = .error e) := by
  simp only [transition, Op.wp_bind, Op.wp_gets]
  cases hget : s.cells.get id with
  | none => exact ⟨rfl, fun _ h => by cases h⟩
  | some c =>
    simp only [Op.wp_bind, Op.wp_lift, Op.wp_modify, Op.wp_pure]
    refine ⟨fun c' hc' => ⟨c, rfl, hc', trivial⟩, fun e he => ⟨trivial, fun d hd => ?_⟩⟩
    cases hd
    exact he

theorem wp_attempt (id : String) (mutate : Document → Option Document) :
    (attempt id mutate).wp s (fun done t => ∃ c, s.cells.get id = some c ∧
      ((done = false ∧ mutate c = none ∧ t = s) ∨
        ∃ c', done = true ∧ mutate c = some c' ∧ t = { s with cells := s.cells.set id c' })) (fun _ t => t = s) := by
  simp only [attempt, Op.wp_bind, Op.wp_gets]
  cases hget : s.cells.get id with
  | none => exact rfl
  | some c =>
    dsimp only
    cases hmutate : mutate c with
    | none => exact ⟨c, rfl, .inl ⟨rfl, hmutate, rfl⟩⟩
    | some c' => exact ⟨c, rfl, .inr ⟨c', rfl, hmutate, rfl⟩⟩

/-- A publication: of what is there already, or of a matrix none of whose cells is. -/
theorem wp_publish (payload : Document) (cellPayloads : List Document) :
    (publishSpecAndCells dumps payload cellPayloads).wp s (fun _ t => ∃ spec cells,
        validatePublication payload cellPayloads = .ok (spec, cells) ∧
        ((∃ existing, s.specs.get (specKey spec) = some existing ∧ t = s ∧
            checkExistingPublication existing (listCells dumps (specKey spec).1 (some (specKey spec).2) s) spec cells =
              .ok ()) ∨
          s.specs.get (specKey spec) = none ∧ (∀ cell ∈ cells, s.cells.get (cellId cell) = none) ∧
            t = storeCells cells { s with specs := s.specs.set (specKey spec) spec }))
      (fun _ t => t = s) := by
  simp only [publishSpecAndCells, Op.wp_bind, Op.wp_lift]
  refine ⟨fun published hvalid => ?_, fun _ _ => trivial⟩
  obtain ⟨spec, cells⟩ := published
  simp only [Op.wp_gets]
  cases hget : s.specs.get (specKey spec) with
  | some existing =>
    simp only [Op.wp_bind, Op.wp_gets, Op.wp_lift, Op.wp_pure]
    refine ⟨fun _ hcheck => ⟨spec, cells, hvalid, .inl ⟨existing, hget, trivial, hcheck⟩⟩, fun _ _ => trivial⟩
  | none =>
    simp only [Op.wp_bind, Op.wp_gets, Op.wp_lift, Op.wp_modify, Op.wp_pure, ensure_ok_iff, List.any_eq_false,
      Bool.not_eq_true, Option.isSome_eq_false_iff, Option.isNone_iff_eq_none]
    exact ⟨fun _ hfree => ⟨spec, cells, hvalid, .inr ⟨hget, hfree, rfl⟩⟩, fun _ _ => trivial⟩

theorem wp_putSpec (payload : Document) :
    (putSpec payload).wp s (fun _ t => t.cells = s.cells) (fun _ t => t = s) := by
  simp only [putSpec, Op.wp_bind, Op.wp_lift]
  refine ⟨fun spec hvalid => ?_, fun _ _ => trivial⟩
  simp only [Op.wp_gets]
  cases hget : s.specs.get (specKey spec) with
  | some existing =>
    simp only [Op.wp_bind, Op.wp_lift, Op.wp_pure]
    exact ⟨fun _ _ => trivial, fun _ _ => trivial⟩
  | none => exact rfl

theorem wp_putCell (payload : Document) :
    (putCell payload).wp s (fun _ t => t = s ∨ ∃ cell, s.cells.get (cellId cell) = none ∧
      t = { s with cells := s.cells.set (cellId cell) cell }) (fun _ t => t = s) := by
  simp only [putCell, Op.wp_bind, Op.wp_lift]
  refine ⟨fun cell hvalid => ?_, fun _ _ => trivial⟩
  simp only [Op.wp_gets]
  cases hget : s.cells.get (cellId cell) with
  | some existing =>
    simp only [Op.wp_bind, Op.wp_lift, Op.wp_pure]
    exact ⟨fun _ _ => .inl trivial, fun _ _ => trivial⟩
  | none => exact .inr ⟨cell, hget, rfl⟩

/-- One cell changes, or none does and new ones stand under their own ids. -/
def Effect (r : CellRequest) (s t : MemoryExperiments) : Prop :=
  (∃ id c c', s.cells.get id = some c ∧ Changed r id c c' ∧ t = { s with cells := s.cells.set id c' }) ∨
    (∀ id c, s.cells.get id = some c → t.cells.get id = some c) ∧
      ∀ id c, t.cells.get id = some c → s.cells.get id = some c ∨ cellId c = id

theorem effect_refl (r : CellRequest) (s : MemoryExperiments) : Effect r s s :=
  .inr ⟨fun _ _ h => h, fun _ _ h => .inl h⟩

theorem effect_transition {r : CellRequest} {id : String} {mutate : Document → Except CellError Document}
    (h : ∀ c c', mutate c = .ok c' → Changed r id c c') :
    (transition id mutate).wp s (fun _ t => Effect r s t) (fun _ t => t = s) :=
  Op.wp_mono (wp_transition id mutate)
    (fun c' _ ⟨c, hget, hmutate, ht⟩ => .inl ⟨id, c, c', hget, h c c' hmutate, ht⟩) (fun _ _ ht => ht.1)

theorem effect_attempt {r : CellRequest} {id : String} {mutate : Document → Option Document}
    (h : ∀ c c', mutate c = some c' → Changed r id c c') :
    (attempt id mutate).wp s (fun _ t => Effect r s t) (fun _ t => t = s) := by
  refine Op.wp_mono (wp_attempt id mutate) (fun _ t ht => ?_) (fun _ _ ht => ht)
  obtain ⟨c, hget, ⟨-, -, rfl⟩ | ⟨c', -, hmutate, ht⟩⟩ := ht
  · exact effect_refl r t
  · exact .inl ⟨id, c, c', hget, h c c' hmutate, ht⟩

/-- What a new cell leaves of the others. -/
theorem effect_set {r : CellRequest} {cell : Document} (hfree : s.cells.get (cellId cell) = none) :
    Effect r s { s with cells := s.cells.set (cellId cell) cell } := by
  refine .inr ⟨fun id c hget => ?_, fun id c hget => ?_⟩
  · have hne : id ≠ cellId cell := by
      rintro rfl
      cases hfree.symm.trans hget
    rw [Table.get_set_ne _ _ hne]
    exact hget
  · rw [Table.get_set] at hget
    split at hget
    · rename_i hid
      cases hget
      exact .inr hid.symm
    · exact .inl hget

theorem effect_storeCells {r : CellRequest} {specs : Table (String × String) Document} {cells : List Document}
    (hfree : ∀ cell ∈ cells, s.cells.get (cellId cell) = none) (nodup : (cells.map cellId).Nodup) :
    Effect r s (storeCells cells { s with specs := specs }) := by
  refine .inr ⟨fun id c hget => ?_, fun id c hget => ?_⟩
  · have hnew : id ∉ cells.map cellId := by
      intro hmem
      obtain ⟨cell, hcell, rfl⟩ := List.mem_map.1 hmem
      cases (hfree cell hcell).symm.trans hget
    exact (Table.get_foldl_set_ne hnew).trans hget
  · by_cases hmem : id ∈ cells.map cellId
    · obtain ⟨cell, hcell, rfl⟩ := List.mem_map.1 hmem
      cases (Table.get_foldl_set_mem (f := fun cell => cell) nodup hcell).symm.trans hget
      exact .inr rfl
    · exact .inl ((Table.get_foldl_set_ne hmem).symm.trans hget)

/-- What a request does to the cells, if it is answered; a request that is refused does nothing. -/
theorem served (r : CellRequest) : (serve dumps r).wp s (fun _ t => Effect r s t) (fun _ t => t = s) := by
  cases r <;> simp only [serve, Op.wp_bind, Op.wp_pure, Op.wp_gets]
  case publish spec cells =>
    refine Op.wp_mono (wp_publish spec cells) (fun _ t ht => ?_) (fun _ _ ht => ht)
    obtain ⟨spec, cells, hvalid, ⟨existing, -, rfl, -⟩ | ⟨-, hfree, rfl⟩⟩ := ht
    · exact effect_refl _ t
    · exact effect_storeCells hfree (nodup_of_validatePublication hvalid)
  case putSpec spec =>
    refine Op.wp_mono (wp_putSpec spec) (fun _ t ht => ?_) (fun _ _ ht => ht)
    rw [Effect, ht]
    exact .inr ⟨fun _ _ h => h, fun _ _ h => .inl h⟩
  case putCell cell =>
    refine Op.wp_mono (wp_putCell cell) (fun _ t ht => ?_) (fun _ _ ht => ht)
    rcases ht with rfl | ⟨cell, hfree, rfl⟩
    · exact effect_refl _ t
    · exact effect_set hfree
  case claim id => exact effect_attempt (fun _ _ => changed_claiming)
  case complete id run => exact effect_transition (fun _ _ => changed_completing)
  case fail id reason => exact effect_transition (fun _ _ => changed_failing)
  case cancel id => exact effect_transition (fun _ _ => changed_cancelling)
  case cancelAllocated id => exact effect_transition (fun _ _ => changed_cancellingAllocated)
  case reset id => exact effect_attempt (fun _ _ => changed_resetting)
  case recordSuperseding id run => exact effect_transition (fun _ _ => changed_recording _)
  all_goals exact effect_refl _ s

/-- Every cell stands under its own id. -/
def Keyed (s : MemoryExperiments) : Prop := ∀ id c, s.cells.get id = some c → cellId c = id

theorem Effect.keyed {r : CellRequest} {t : MemoryExperiments} (h : Effect r s t) (hs : s.Keyed) : t.Keyed := by
  rcases h with ⟨id, c, c', hget, changed, rfl⟩ | ⟨-, hnew⟩
  · intro id' d hd
    rw [Table.get_set] at hd
    split at hd
    · rename_i hid
      cases hd
      rw [hid, cellId, changed.textOf_eq (by decide)]
      exact hs id c hget
    · exact hs id' d hd
  · intro id d hd
    rcases hnew id d hd with hold | hid
    · exact hs id d hold
    · exact hid

theorem Effect.moves {r : CellRequest} {t : MemoryExperiments} (h : Effect r s t) {id : String} {c : Document}
    (hget : s.cells.get id = some c) : ∃ c', t.cells.get id = some c' ∧ Changed r id c c' := by
  rcases h with ⟨id', d, d', hget', changed, rfl⟩ | ⟨hkept, -⟩
  · by_cases hid : id = id'
    · subst hid
      cases hget.symm.trans hget'
      exact ⟨d', Table.get_set_self .., changed⟩
    · refine ⟨c, ?_, .refl r id c⟩
      rw [Table.get_set_ne _ _ hid]
      exact hget
  · exact ⟨c, hkept id c hget, .refl r id c⟩

end MemoryExperiments

/-! ### Tables -/

namespace SqliteExperiments
variable {s : SqliteExperiments}

theorem wp_mutateCell (id : String) (mutate : Document → Except CellError Document) :
    (mutateCell id mutate).wp s (fun c' t => ∃ row, s.cells.get id = some row ∧ mutate row.payload = .ok c' ∧
      t = { s with cells := s.cells.set id { row with payload := Document.canon c' } })
      (fun e t => t = s ∧ ∀ row, s.cells.get id = some row → mutate row.payload = .error e) := by
  simp only [mutateCell, Op.wp_atomically, Op.wp_bind, Op.wp_gets]
  cases hget : s.cells.get id with
  | none => exact ⟨trivial, fun _ h => by cases h⟩
  | some row =>
    simp only [Op.wp_bind, Op.wp_lift, Op.wp_modify, Op.wp_pure]
    refine ⟨fun c' hc' => ⟨row, rfl, hc', rfl⟩, fun e he => ⟨trivial, fun found hfound => ?_⟩⟩
    cases hfound
    exact he

theorem wp_attempt (id : String) (mutate : Document → Option Document) :
    (attempt id mutate).wp s (fun done t => ∃ row, s.cells.get id = some row ∧
      ((done = false ∧ mutate row.payload = none ∧ t = s) ∨ ∃ c', done = true ∧ mutate row.payload = some c' ∧
        t = { s with cells := s.cells.set id { row with payload := Document.canon c' } })) (fun _ t => t = s) := by
  simp only [attempt, Op.wp_atomically, Op.wp_bind, Op.wp_gets]
  cases hget : s.cells.get id with
  | none => exact trivial
  | some row =>
    dsimp only
    cases hmutate : mutate row.payload with
    | none => exact ⟨row, rfl, .inl ⟨rfl, hmutate, rfl⟩⟩
    | some c' => exact ⟨row, rfl, .inr ⟨c', rfl, hmutate, rfl⟩⟩

/-- The row of a new cell. -/
def rowOf (key : String × String) (cell : Document) : CellRow := ⟨key.1, key.2, Document.canon cell⟩

theorem wp_insertCell (key : String × String) (cell : Document) :
    (insertCell key cell).wp s (fun _ t => s.cells.get (cellId cell) = none ∧
      t = { s with cells := s.cells.set (cellId cell) (rowOf key cell) }) (fun _ t => t = s) := by
  simp only [insertCell, Op.wp_bind, Op.wp_gets, Op.wp_lift, Op.wp_modify, ensure_ok_iff, Option.isSome_eq_false_iff,
    Option.isNone_iff_eq_none]
  exact ⟨fun _ hfree => ⟨hfree, rfl⟩, fun _ _ => trivial⟩

theorem wp_insertCells (key : String × String) {cells : List Document} (nodup : (cells.map cellId).Nodup) :
    (insertCells key cells).wp s (fun _ t => (∀ cell ∈ cells, s.cells.get (cellId cell) = none) ∧
      t = { s with cells := cells.foldl (fun t cell => t.set (cellId cell) (rowOf key cell)) s.cells })
      (fun _ _ => True) := by
  induction cells generalizing s with
  | nil => exact ⟨fun _ h => (List.not_mem_nil h).elim, rfl⟩
  | cons cell rest ih =>
    rw [List.map_cons, List.nodup_cons] at nodup
    simp only [insertCells, Op.wp_bind]
    refine Op.wp_mono (wp_insertCell key cell) (fun _ t ⟨hfree, ht⟩ => ?_) (fun _ _ _ => trivial)
    subst ht
    refine Op.wp_mono (ih nodup.2) (fun _ t ⟨hrest, ht⟩ => ⟨fun other hother => ?_, ht⟩) (fun _ _ _ => trivial)
    rcases List.mem_cons.1 hother with rfl | hother
    · exact hfree
    · have hne : cellId other ≠ cellId cell := fun he => nodup.1 (he ▸ List.mem_map_of_mem hother)
      rw [← hrest other hother, Table.get_set_ne _ _ hne]

theorem wp_publish (payload : Document) (cellPayloads : List Document) :
    (publishSpecAndCells payload cellPayloads).wp s (fun _ t => ∃ spec cells,
        validatePublication payload cellPayloads = .ok (spec, cells) ∧
        ((∃ existing, s.specs.get (specKey spec) = some existing ∧ t = s ∧
            checkExistingPublication existing (listCells (specKey spec).1 (some (specKey spec).2) s) spec cells = .ok ()) ∨
          s.specs.get (specKey spec) = none ∧ (∀ cell ∈ cells, s.cells.get (cellId cell) = none) ∧
            t = ⟨s.specs.set (specKey spec) (Document.canon spec),
              cells.foldl (fun t cell => t.set (cellId cell) (rowOf (specKey spec) cell)) s.cells⟩))
      (fun _ t => t = s) := by
  simp only [publishSpecAndCells, Op.wp_bind, Op.wp_lift]
  refine ⟨fun published hvalid => ?_, fun _ _ => trivial⟩
  obtain ⟨spec, cells⟩ := published
  simp only [Op.wp_atomically, Op.wp_bind, Op.wp_gets]
  cases hget : s.specs.get (specKey spec) with
  | some existing =>
    simp only [Op.wp_bind, Op.wp_gets, Op.wp_lift, Op.wp_pure]
    refine ⟨fun _ hcheck => ⟨spec, cells, hvalid, .inl ⟨existing, hget, trivial, hcheck⟩⟩, fun _ _ => trivial⟩
  | none =>
    simp only [Op.wp_bind, Op.wp_modify, Op.wp_pure]
    refine Op.wp_mono (wp_insertCells (specKey spec) (nodup_of_validatePublication hvalid)) (fun _ t inserted => ?_)
      (fun _ _ _ => trivial)
    exact ⟨spec, cells, hvalid, .inr ⟨hget, inserted⟩⟩

theorem wp_putSpec (payload : Document) :
    (putSpec payload).wp s (fun _ t => t.cells = s.cells) (fun _ t => t = s) := by
  simp only [putSpec, Op.wp_bind, Op.wp_lift]
  refine ⟨fun spec hvalid => ?_, fun _ _ => trivial⟩
  simp only [Op.wp_atomically, Op.wp_bind, Op.wp_gets]
  cases hget : s.specs.get (specKey spec) with
  | some existing =>
    simp only [Op.wp_bind, Op.wp_lift, Op.wp_pure]
    exact ⟨fun _ _ => trivial, fun _ _ => trivial⟩
  | none => exact rfl

theorem wp_putCell (payload : Document) :
    (putCell payload).wp s (fun _ t => t = s ∨ ∃ cell, s.cells.get (cellId cell) = none ∧
      t = { s with cells := s.cells.set (cellId cell) (rowOf (cellKey cell) cell) }) (fun _ t => t = s) := by
  simp only [putCell, Op.wp_bind, Op.wp_lift]
  refine ⟨fun cell hvalid => ?_, fun _ _ => trivial⟩
  simp only [Op.wp_atomically, Op.wp_bind, Op.wp_gets]
  cases hget : s.cells.get (cellId cell) with
  | some existing =>
    simp only [Op.wp_bind, Op.wp_lift, Op.wp_pure]
    exact ⟨fun _ _ => .inl trivial, fun _ _ => trivial⟩
  | none =>
    simp only [Op.wp_bind, Op.wp_pure]
    exact Op.wp_mono (wp_insertCell (cellKey cell) cell) (fun _ t inserted => .inr ⟨cell, inserted⟩) (fun _ _ _ => trivial)

/-- One cell changes, or none does and new ones stand under their own ids. -/
def Effect (r : CellRequest) (s t : SqliteExperiments) : Prop :=
  (∃ id row c', s.cells.get id = some row ∧ Changed r id row.payload c' ∧
      t = { s with cells := s.cells.set id { row with payload := Document.canon c' } }) ∨
    (∀ id row, s.cells.get id = some row → t.cells.get id = some row) ∧
      ∀ id row, t.cells.get id = some row →
        s.cells.get id = some row ∨ ∃ cell, cellId cell = id ∧ row = rowOf (cellKey cell) cell

theorem effect_refl (r : CellRequest) (s : SqliteExperiments) : Effect r s s :=
  .inr ⟨fun _ _ h => h, fun _ _ h => .inl h⟩

theorem effect_mutateCell {r : CellRequest} {id : String} {mutate : Document → Except CellError Document}
    (h : ∀ c c', mutate c = .ok c' → Changed r id c c') :
    (mutateCell id mutate).wp s (fun _ t => Effect r s t) (fun _ t => t = s) :=
  Op.wp_mono (wp_mutateCell id mutate)
    (fun c' _ ⟨row, hget, hmutate, ht⟩ => .inl ⟨id, row, c', hget, h _ c' hmutate, ht⟩) (fun _ _ ht => ht.1)

theorem effect_attempt {r : CellRequest} {id : String} {mutate : Document → Option Document}
    (h : ∀ c c', mutate c = some c' → Changed r id c c') :
    (attempt id mutate).wp s (fun _ t => Effect r s t) (fun _ t => t = s) := by
  refine Op.wp_mono (wp_attempt id mutate) (fun _ t ht => ?_) (fun _ _ ht => ht)
  obtain ⟨row, hget, ⟨-, -, rfl⟩ | ⟨c', -, hmutate, ht⟩⟩ := ht
  · exact effect_refl r t
  · exact .inl ⟨id, row, c', hget, h _ c' hmutate, ht⟩

theorem effect_set {r : CellRequest} {cell : Document} (hfree : s.cells.get (cellId cell) = none) :
    Effect r s { s with cells := s.cells.set (cellId cell) (rowOf (cellKey cell) cell) } := by
  refine .inr ⟨fun id row hget => ?_, fun id row hget => ?_⟩
  · have hne : id ≠ cellId cell := by
      rintro rfl
      cases hfree.symm.trans hget
    rw [Table.get_set_ne _ _ hne]
    exact hget
  · rw [Table.get_set] at hget
    split at hget
    · rename_i hid
      cases hget
      exact .inr ⟨cell, hid.symm, rfl⟩
    · exact .inl hget

theorem effect_insertCells {r : CellRequest} {specs : Table (String × String) Document} {cells : List Document}
    {key : String × String} (hfree : ∀ cell ∈ cells, s.cells.get (cellId cell) = none) (nodup : (cells.map cellId).Nodup)
    (own : ∀ cell ∈ cells, cellKey cell = key) :
    Effect r s ⟨specs, cells.foldl (fun t cell => t.set (cellId cell) (rowOf key cell)) s.cells⟩ := by
  refine .inr ⟨fun id row hget => ?_, fun id row hget => ?_⟩
  · have hnew : id ∉ cells.map cellId := by
      intro hmem
      obtain ⟨cell, hcell, rfl⟩ := List.mem_map.1 hmem
      cases (hfree cell hcell).symm.trans hget
    exact (Table.get_foldl_set_ne hnew).trans hget
  · by_cases hmem : id ∈ cells.map cellId
    · obtain ⟨cell, hcell, rfl⟩ := List.mem_map.1 hmem
      cases (Table.get_foldl_set_mem nodup hcell).symm.trans hget
      exact .inr ⟨cell, rfl, by rw [own cell hcell]⟩
    · exact .inl ((Table.get_foldl_set_ne hmem).symm.trans hget)

theorem served (r : CellRequest) : (serve r).wp s (fun _ t => Effect r s t) (fun _ t => t = s) := by
  cases r <;> simp only [serve, Op.wp_bind, Op.wp_pure, Op.wp_gets]
  case publish spec cells =>
    refine Op.wp_mono (wp_publish spec cells) (fun _ t ht => ?_) (fun _ _ ht => ht)
    obtain ⟨spec, cells, hvalid, ⟨existing, -, rfl, -⟩ | ⟨-, hfree, rfl⟩⟩ := ht
    · exact effect_refl _ t
    · exact effect_insertCells hfree (nodup_of_validatePublication hvalid) (own_of_validatePublication hvalid)
  case putSpec spec =>
    refine Op.wp_mono (wp_putSpec spec) (fun _ t ht => ?_) (fun _ _ ht => ht)
    rw [Effect, ht]
    exact .inr ⟨fun _ _ h => h, fun _ _ h => .inl h⟩
  case putCell cell =>
    refine Op.wp_mono (wp_putCell cell) (fun _ t ht => ?_) (fun _ _ ht => ht)
    rcases ht with rfl | ⟨cell, hfree, rfl⟩
    · exact effect_refl _ t
    · exact effect_set hfree
  case claim id => exact effect_attempt (fun _ _ => changed_claiming)
  case complete id run => exact effect_mutateCell (fun _ _ => changed_completing)
  case fail id reason => exact effect_mutateCell (fun _ _ => changed_failing)
  case cancel id => exact effect_mutateCell (fun _ _ => changed_cancelling)
  case cancelAllocated id => exact effect_mutateCell (fun _ _ => changed_cancellingAllocated)
  case reset id => exact effect_attempt (fun _ _ => changed_resetting)
  case recordSuperseding id run => exact effect_mutateCell (fun _ _ => changed_recording _)
  all_goals exact effect_refl _ s

/-- A row of a cell: under its own id, in its experiment, read back. -/
structure Tidy (id : String) (row : CellRow) : Prop where
  id : cellId row.payload = id
  experiment : cellKey row.payload = (row.experimentId, row.experimentVersion)
  canonical : Document.canon row.payload = row.payload

/-- Every row is tidy. -/
def Keyed (s : SqliteExperiments) : Prop := ∀ id row, s.cells.get id = some row → Tidy id row

theorem textOf_canon (d : Document) (key : String) : textOf (Document.canon d) key = textOf d key := by
  rw [textOf, textOf, Document.text?, Document.text?, Document.get_canon]
  cases d.get key with
  | none => rfl
  | some v => cases v <;> rfl

theorem tidy_rowOf (cell : Document) : Tidy (cellId cell) (rowOf (cellKey cell) cell) where
  id := textOf_canon cell _
  experiment := by
    show cellKey (Document.canon cell) = cellKey cell
    rw [cellKey, cellKey, textOf_canon, textOf_canon]
  canonical := Document.canon_idem cell

theorem Effect.keyed {r : CellRequest} {t : SqliteExperiments} (h : Effect r s t) (hs : s.Keyed) : t.Keyed := by
  rcases h with ⟨id, row, c', hget, changed, rfl⟩ | ⟨-, hnew⟩
  · intro id' d hd
    rw [Table.get_set] at hd
    split at hd
    · rename_i hid
      cases hd
      obtain ⟨hown, hkey, -⟩ := hs id row hget
      refine ⟨?_, ?_, Document.canon_idem c'⟩
      · rw [hid, ← hown, cellId, textOf_canon, changed.textOf_eq (by decide), cellId]
      · show cellKey (Document.canon c') = (row.experimentId, row.experimentVersion)
        rw [← hkey, cellKey, cellKey, textOf_canon, textOf_canon, changed.textOf_eq (by decide),
          changed.textOf_eq (by decide)]
    · exact hs id' d hd
  · intro id d hd
    rcases hnew id d hd with hold | ⟨cell, rfl, rfl⟩
    · exact hs id d hold
    · exact tidy_rowOf cell

theorem Effect.moves {r : CellRequest} {t : SqliteExperiments} (h : Effect r s t) (hs : s.Keyed) {id : String} {row : CellRow}
    (hget : s.cells.get id = some row) : ∃ row', t.cells.get id = some row' ∧ Changed r id row.payload row'.payload := by
  rcases h with ⟨id', row', c', hget', changed, rfl⟩ | ⟨hkept, -⟩
  · by_cases hid : id = id'
    · subst hid
      cases hget.symm.trans hget'
      exact ⟨_, Table.get_set_self .., changed.canon (hs id row hget).canonical⟩
    · refine ⟨row, ?_, .refl r id _⟩
      rw [Table.get_set_ne _ _ hid]
      exact hget
  · exact ⟨row, hkept id row hget, .refl r id _⟩

end SqliteExperiments

end Motte.Experiment
