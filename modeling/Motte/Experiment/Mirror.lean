import Motte.Experiment.CellLifecycle
import Motte.Foundation.Simulation

/-! The two experiment stores side by side.

The tables hold what the dictionaries hold, read back from text. Every request is
answered alike in both, but for two: a listing is sorted in one store and in row
order in the other, and a list of superseding runs that is an object is read in the
order of its members. `Plain` says when a request meets neither. -/
namespace Motte.Experiment
open Foundation

/-! ### Documents that are read back -/

section Canon
variable {c : Document}

theorem canon_eq_str {v : Value} {a : String} : v.canon = .str a ↔ v = .str a := by
  cases v <;> simp [Value.canon]

theorem get_canon_eq_str {key a : String} : (Document.canon c).get key = some (.str a) ↔ c.get key = some (.str a) := by
  rw [Document.get_canon, Option.map_eq_some_iff]
  constructor
  · rintro ⟨v, hv, hcanon⟩
    rw [hv, canon_eq_str.1 hcanon]
  · intro h
    exact ⟨.str a, h, rfl⟩

theorem status_canon_iff {a : String} : status (Document.canon c) = some (.str a) ↔ status c = some (.str a) :=
  get_canon_eq_str

/-- The change of a cell and that of the cell as it was read back come to the same. -/
def Reads (mutate : Document → Except CellError Document) (c : Document) : Prop :=
  match mutate c, mutate (Document.canon c) with
  | .ok a, .ok b => Document.canon b = Document.canon a
  | .error _, .error _ => True
  | _, _ => False

theorem reads_of_status {id : String} {allowed : List String} {change : Document → Document}
    (same : Document.canon (change (Document.canon c)) = Document.canon (change c)) :
    Reads (fun c => do
      requireStatus id allowed c
      .ok (change c)) c := by
  have statuses : (∃ a ∈ allowed, status (Document.canon c) = some (.str a)) ↔ ∃ a ∈ allowed, status c = some (.str a) := by
    simp only [status_canon_iff]
  by_cases h : ∃ a ∈ allowed, status c = some (.str a)
  · have h' := statuses.2 h
    simp only [Reads, requireStatus, ensure, if_pos h, if_pos h']
    exact same
  · have h' := fun h' => h (statuses.1 h')
    simp only [Reads, requireStatus, ensure, if_neg h, if_neg h']
    trivial

/-- Two assignments, one after the other. -/
theorem canon_set_set (c : Document) (k l : String) (v w : Value) :
    Document.canon (((Document.canon c).set k v).set l w) = Document.canon ((c.set k v).set l w) := by
  rw [← Document.canon_set ((Document.canon c).set k v), Document.canon_set c, Document.canon_set (c.set k v)]

theorem reads_completing (id run : String) (c : Document) : Reads (completing id run) c :=
  reads_of_status (canon_set_set ..)

theorem reads_failing (id reason : String) (c : Document) : Reads (failing id reason) c :=
  reads_of_status (canon_set_set ..)

theorem reads_cancelling (id : String) (c : Document) : Reads (cancelling id) c :=
  reads_of_status (Document.canon_set ..)

theorem reads_cancellingAllocated (id : String) (c : Document) : Reads (cancellingAllocated id) c :=
  reads_of_status (Document.canon_set ..)

theorem truthy_canon (v : Value) : v.canon.truthy = v.truthy := by
  cases v with
  | arr items => cases items <;> rfl
  | obj members =>
    have hlength : (Value.sortMembers (Value.canonMembers members)).length = members.length := by
      rw [(Value.sortMembers_perm _).length_eq, Value.canonMembers_eq, List.length_map]
    show (!(Value.sortMembers (Value.canonMembers members)).isEmpty) = !members.isEmpty
    rw [Bool.not_inj_iff, Bool.eq_iff_iff, List.isEmpty_iff_length_eq_zero, List.isEmpty_iff_length_eq_zero, hlength]
  | _ => rfl

/-- The value is not an object whose members would be read in another order. -/
def OrderedKeys (v : Value) : Prop :=
  match v with
  | .obj members => (Value.sortMembers members).map Prod.fst = members.map Prod.fst
  | _ => True

instance (v : Value) : Decidable (OrderedKeys v) := by
  unfold OrderedKeys
  cases v <;> infer_instance

theorem iterate_canon {v : Value} (h : OrderedKeys v) :
    (∃ items, iterate v = .ok items ∧ iterate v.canon = .ok (items.map Value.canon)) ∨
      ∃ e, iterate v = .error e ∧ iterate v.canon = .error e := by
  cases v with
  | arr items => exact .inl ⟨items, rfl, by rw [Value.canon, Value.canonItems_eq]; rfl⟩
  | str s =>
    refine .inl ⟨_, rfl, ?_⟩
    rw [List.map_map]
    rfl
  | obj members =>
    refine .inl ⟨_, rfl, ?_⟩
    have keys : (Value.sortMembers (Value.canonMembers members)).map Prod.fst = members.map Prod.fst := by
      rw [Value.canonMembers_eq, Value.sortMembers_map, List.map_map]
      exact h
    show Except.ok ((Value.sortMembers (Value.canonMembers members)).map (fun m => Value.str m.1)) = _
    have texts (ms : List (String × Value)) : ms.map (fun m => Value.str m.1) = (ms.map Prod.fst).map Value.str := by
      rw [List.map_map]
      rfl
    rw [texts, keys, ← texts, List.map_map]
    rfl
  | _ => exact .inr ⟨_, rfl, rfl⟩

theorem reads_recording {run : String} (h : OrderedKeys (c.getOrNull "superseding_run_ids")) : Reads (recording run) c := by
  have listed : (∃ items, superseding c = .ok items ∧ superseding (Document.canon c) = .ok (items.map Value.canon)) ∨
      ∃ e, superseding c = .error e ∧ superseding (Document.canon c) = .error e := by
    unfold superseding
    rw [Document.getOrNull_canon, truthy_canon]
    split
    · exact iterate_canon h
    · exact .inl ⟨[], rfl, rfl⟩
  rcases listed with ⟨items, hitems, hcanon⟩ | ⟨e, he, hcanon⟩
  · have known : (items.map Value.canon).any (fun v => v.equals (.str run)) = items.any (fun v => v.equals (.str run)) := by
      rw [List.any_map]
      congr 1
      funext v
      exact Value.canon_equals v _
    simp only [Reads, recording, hitems, hcanon]
    show Document.canon ((Document.canon c).set _ _) = Document.canon (c.set _ _)
    rw [Document.canon_set, known]
    -- The two lists differ by how their items are written.
    refine Document.canon_congr (fun key => ?_)
    rw [Table.get_set, Table.get_set]
    split
    · have canonical (vs : List Value) : (Value.arr (vs.map Value.canon)).canon = (Value.arr vs).canon := by
        rw [Value.canon, Value.canon, Value.canonItems_eq, Value.canonItems_eq, List.map_map]
        congr 1
        exact List.map_congr_left (fun v _ => Value.canon_idem v)
      rw [Option.map_some, Option.map_some]
      congr 1
      split
      · exact canonical items
      · have happend : items.map Value.canon ++ [Value.str run] = (items ++ [Value.str run]).map Value.canon := by
          rw [List.map_append]
          rfl
        rw [happend]
        exact canonical _
    · rfl
  · simp only [Reads, recording, he, hcanon]
    trivial

end Canon

/-! ### One request -/

/-- The row of a cell. -/
def mirroredCell (cell : Document) : CellRow := SqliteExperiments.rowOf (cellKey cell) cell

/-- What the tables hold when the dictionaries hold this. -/
def mirrored (m : MemoryExperiments) : SqliteExperiments := ⟨m.specs.map Document.canon, m.cells.map mirroredCell⟩

/-- Two answers tell the same. A document may also be the one of the request where it compares equal to what is stored. -/
def CellReply.Agree : CellReply → CellReply → Prop
  | .document d, .document e => Document.canon d = Document.canon e ∨ d.equals e
  | .found d, .found e => d.map Document.canon = e.map Document.canon
  | .flag a, .flag b => a = b
  | .documents ds, .documents es => ds.map Document.canon = es.map Document.canon
  | _, _ => False

instance (a b : CellReply) : Decidable (a.Agree b) := by
  unfold CellReply.Agree
  split <;> infer_instance

/-- A request that both stores answer alike. -/
def Plain (dumps : Value → String) (m : MemoryExperiments) : CellRequest → Prop
  | .listCells experimentId version => (m.matching experimentId version).Pairwise (listedBefore dumps)
  | .recordSuperseding id _ => ∀ c ∈ m.cells.get id, OrderedKeys (c.getOrNull "superseding_run_ids")
  | _ => True

instance (dumps : Value → String) (m : MemoryExperiments) (r : CellRequest) : Decidable (Plain dumps m r) := by
  unfold Plain
  split <;> infer_instance

section Requests
variable {m : MemoryExperiments} {dumps : Value → String}

/-- A change that is written back. -/
theorem mirrored_set {r : CellRequest} {id : String} {a b c : Document} (changed : Changed r id c a)
    (same : Document.canon b = Document.canon a) :
    { mirrored m with cells := (mirrored m).cells.set id { mirroredCell c with payload := Document.canon b } } =
      mirrored { m with cells := m.cells.set id a } := by
  have key : cellKey a = cellKey c := by
    rw [cellKey, cellKey, changed.textOf_eq (by decide), changed.textOf_eq (by decide)]
  have row : { mirroredCell c with payload := Document.canon b } = mirroredCell a := by
    rw [mirroredCell, mirroredCell, SqliteExperiments.rowOf, SqliteExperiments.rowOf, same, key]
  rw [row]
  show SqliteExperiments.mk _ ((m.cells.map mirroredCell).set id (mirroredCell a)) = _
  rw [Table.set_map]
  rfl

theorem sim_transition {id : String} {mutate : Document → Except CellError Document} {r : CellRequest}
    (reads : ∀ c ∈ m.cells.get id, Reads mutate c) (changed : ∀ c c', mutate c = .ok c' → Changed r id c c') :
    Op.sim (SqliteExperiments.mutateCell id mutate) (mirrored m) (MemoryExperiments.transition id mutate) m
      (fun d q e m' => Document.canon d = Document.canon e ∧ q = mirrored m') (fun q m' => q = mirrored m') := by
  refine Op.sim_atomically (Op.sim_bind (Op.sim_gets ?_))
  have hget : (mirrored m).cells.get id = (m.cells.get id).map mirroredCell := Table.get_map ..
  rw [hget]
  cases hcell : m.cells.get id with
  | none => exact Op.sim_raise rfl
  | some c =>
    have hreads := reads c hcell
    show Op.sim (Op.lift (mutate (Document.canon c)) >>= _) (mirrored m) (Op.lift (mutate c) >>= _) m _ _
    unfold Reads at hreads
    cases hmemory : mutate c with
    | error e =>
      cases hsqlite : mutate (Document.canon c) with
      | error e' => exact Op.sim_raises (Op.bind_of_error (Op.lift_apply _)) (Op.bind_of_error (Op.lift_apply _)) rfl
      | ok b =>
        rw [hmemory, hsqlite] at hreads
        exact hreads.elim
    | ok a =>
      cases hsqlite : mutate (Document.canon c) with
      | error e' =>
        rw [hmemory, hsqlite] at hreads
        exact hreads.elim
      | ok b =>
        rw [hmemory, hsqlite] at hreads
        exact Op.sim_returns rfl rfl ⟨hreads, mirrored_set (changed c a hmemory) hreads⟩

theorem sim_attempt {id : String} {mutate : Document → Option Document} {r : CellRequest}
    (reads : ∀ c, (mutate (Document.canon c)).map Document.canon = (mutate c).map Document.canon)
    (changed : ∀ c c', mutate c = some c' → Changed r id c c') :
    Op.sim (SqliteExperiments.attempt id mutate) (mirrored m) (MemoryExperiments.attempt id mutate) m
      (fun a q b m' => a = b ∧ q = mirrored m') (fun q m' => q = mirrored m') := by
  refine Op.sim_atomically (Op.sim_bind (Op.sim_gets ?_))
  have hget : (mirrored m).cells.get id = (m.cells.get id).map mirroredCell := Table.get_map ..
  rw [hget]
  cases hcell : m.cells.get id with
  | none => exact Op.sim_raise rfl
  | some c =>
    have hreads := reads c
    have hpayload : (mirroredCell c).payload = Document.canon c := rfl
    dsimp only [Option.map_some]
    rw [hpayload]
    cases hmemory : mutate c with
    | none =>
      cases hsqlite : mutate (Document.canon c) with
      | none => exact Op.sim_pure ⟨rfl, rfl⟩
      | some b =>
        rw [hmemory, hsqlite] at hreads
        cases hreads
    | some a =>
      cases hsqlite : mutate (Document.canon c) with
      | none =>
        rw [hmemory, hsqlite] at hreads
        cases hreads
      | some b =>
        rw [hmemory, hsqlite] at hreads
        exact Op.sim_returns rfl rfl ⟨rfl, mirrored_set (changed c a hmemory) (Option.some.inj hreads)⟩

/-! Publications -/

theorem forM_ok_iff {α ε : Type} {f : α → Except ε Unit} {xs : List α} :
    xs.forM f = .ok () ↔ ∀ x ∈ xs, f x = .ok () := by
  induction xs with
  | nil => exact ⟨fun _ _ h => (List.not_mem_nil h).elim, fun _ => rfl⟩
  | cons x rest ih =>
    show (f x >>= fun _ => rest.forM f) = .ok () ↔ _
    rw [except_bind_ok_iff, List.forall_mem_cons, ← ih]
    exact ⟨fun ⟨_, h⟩ => h, fun h => ⟨(), h⟩⟩

/-- With unique ids, the cell of an id is found wherever it stands. -/
theorem find?_cell {existing : List Document} (nodup : (existing.map cellId).Nodup) {id : String} {e : Document} :
    existing.find? (fun d => cellId d = id) = some e ↔ e ∈ existing ∧ cellId e = id := by
  constructor
  · intro h
    exact ⟨List.mem_of_find?_eq_some h, by simpa using List.find?_some h⟩
  · rintro ⟨hmem, rfl⟩
    cases hfind : existing.find? (fun d => cellId d = cellId e) with
    | none => exact absurd (List.find?_eq_none.1 hfind e hmem) (by simp)
    | some d =>
      have hid : cellId d = cellId e := by simpa using List.find?_some hfind
      rw [List.inj_on_of_nodup_map nodup (List.mem_of_find?_eq_some hfind) hmem hid]

theorem cellId_canon (c : Document) : cellId (Document.canon c) = cellId c := SqliteExperiments.textOf_canon c _

/-- The check of a publication passes in any order and on what was read back. -/
theorem checkExistingPublication_canon {spec stored : Document} {cells existing listed : List Document}
    (perm : listed.Perm existing) (nodup : (existing.map cellId).Nodup) :
    checkExistingPublication (Document.canon stored) (existing.map Document.canon) spec cells = .ok () ↔
      checkExistingPublication stored listed spec cells = .ok () := by
  have ids : (existing.map Document.canon).map cellId = existing.map cellId := by
    rw [List.map_map]
    exact List.map_congr_left (fun c _ => cellId_canon c)
  have nodup' : (listed.map cellId).Nodup := (perm.map cellId).nodup_iff.2 nodup
  have checks : ∀ cell, checkCell (existing.map Document.canon) cell = .ok () ↔ checkCell listed cell = .ok () := by
    intro cell
    unfold checkCell
    cases hlisted : listed.find? (fun e => cellId e = cellId cell) with
    | none =>
      have hnone : (existing.map Document.canon).find? (fun e => cellId e = cellId cell) = none := by
        rw [List.find?_eq_none] at hlisted ⊢
        intro e he
        obtain ⟨d, hd, rfl⟩ := List.mem_map.1 he
        rw [cellId_canon]
        exact hlisted d (perm.mem_iff.2 hd)
      rw [hnone]
    | some found =>
      obtain ⟨hmem, hid⟩ := (find?_cell nodup').1 hlisted
      have hfound : (existing.map Document.canon).find? (fun e => cellId e = cellId cell) = some (Document.canon found) :=
        (find?_cell (ids ▸ nodup)).2 ⟨List.mem_map_of_mem (perm.mem_iff.1 hmem), by rw [cellId_canon, hid]⟩
      rw [hfound]
      simp only [ensure_ok_iff, Document.getOrNull_canon, Value.canon_equals]
  simp only [checkExistingPublication, except_bind_ok_iff, ensure_ok_iff, forM_ok_iff, Document.canon_equals, ids, checks,
    List.forall_mem_map, cellId_canon, (perm.map cellId).mem_iff, perm.mem_iff]

/-- The cells of an experiment, as the tables have them. -/
theorem listCells_mirrored (experimentId : String) (version : Option String) :
    SqliteExperiments.listCells experimentId version (mirrored m) = (m.matching experimentId version).map Document.canon := by
  have rows : (mirrored m).cells.rows.map Prod.snd = (m.cells.rows.map Prod.snd).map mirroredCell := by
    show (m.cells.rows.map _).map Prod.snd = _
    rw [List.map_map, List.map_map]
    rfl
  rw [SqliteExperiments.listCells, rows, List.filter_map, List.map_map, MemoryExperiments.matching]
  rfl

theorem matching_ids (keyed : m.Keyed) (experimentId : String) (version : Option String) :
    ((m.matching experimentId version).map cellId).Nodup := by
  have ids : (m.cells.rows.map Prod.snd).map cellId = m.cells.rows.map Prod.fst := by
    rw [List.map_map]
    exact List.map_congr_left (fun row hrow => keyed row.1 row.2 (Table.get_of_mem hrow))
  exact (ids ▸ m.cells.nodup).sublist (List.filter_sublist.map cellId)

theorem insertCells_of_free {q : SqliteExperiments} {key : String × String} {cells : List Document}
    (free : ∀ cell ∈ cells, q.cells.get (cellId cell) = none) (nodup : (cells.map cellId).Nodup) :
    SqliteExperiments.insertCells key cells q = (.ok (),
      { q with cells := cells.foldl (fun t cell => t.set (cellId cell) (SqliteExperiments.rowOf key cell)) q.cells }) := by
  induction cells generalizing q with
  | nil => rfl
  | cons cell rest ih =>
    rw [List.map_cons, List.nodup_cons] at nodup
    have hfree := free cell (List.mem_cons_self ..)
    have first : SqliteExperiments.insertCell key cell q = (.ok (),
        { q with cells := q.cells.set (cellId cell) (SqliteExperiments.rowOf key cell) }) := by
      unfold SqliteExperiments.insertCell
      rw [Op.bind_of_ok (Op.gets_apply _), Op.bind_of_ok (Op.lift_ensure_of (by rw [hfree]; rfl))]
      rfl
    rw [SqliteExperiments.insertCells, Op.bind_of_ok first]
    refine ih (fun other hother => ?_) nodup.2
    have hne : cellId other ≠ cellId cell := fun he => nodup.1 (he ▸ List.mem_map_of_mem hother)
    rw [Table.get_set_ne _ _ hne]
    exact free other (List.mem_cons_of_mem _ hother)

/-- The rows of new cells. -/
theorem mirrored_cells {cells : List Document} {key : String × String} (own : ∀ cell ∈ cells, cellKey cell = key)
    (t : Table String Document) :
    cells.foldl (fun t cell => t.set (cellId cell) (SqliteExperiments.rowOf key cell)) (t.map mirroredCell) =
      (cells.foldl (fun t cell => t.set (cellId cell) cell) t).map mirroredCell := by
  induction cells generalizing t with
  | nil => rfl
  | cons cell rest ih =>
    have row : SqliteExperiments.rowOf key cell = mirroredCell cell := by
      rw [mirroredCell, own cell (List.mem_cons_self ..)]
    rw [List.foldl_cons, List.foldl_cons, row, Table.set_map, ih (fun c hc => own c (List.mem_cons_of_mem _ hc))]

theorem sim_publish (keyed : m.Keyed) (payload : Document) (cellPayloads : List Document) :
    Op.sim (SqliteExperiments.publishSpecAndCells payload cellPayloads) (mirrored m)
      (MemoryExperiments.publishSpecAndCells dumps payload cellPayloads) m
      (fun d q e m' => (Document.canon e = Document.canon d ∨ e.equals d) ∧ q = mirrored m')
      (fun q m' => q = mirrored m') := by
  refine Op.sim_bind (Op.sim_lift (fun ⟨spec, cells⟩ hvalid => ?_) (fun _ _ => rfl))
  have hspecs (key : String × String) : (mirrored m).specs.get key = (m.specs.get key).map Document.canon := Table.get_map ..
  have hcells (id : String) : (mirrored m).cells.get id = (m.cells.get id).map mirroredCell := Table.get_map ..
  dsimp only
  refine Op.sim_atomically (Op.sim_bind (Op.sim_gets ?_))
  rw [hspecs]
  cases hget : m.specs.get (specKey spec) with
  | some existing =>
    refine Op.sim_bind (Op.sim_gets ?_)
    rw [listCells_mirrored]
    have hcheck := @checkExistingPublication_canon spec existing cells _ _
      (List.perm_insertionSort (listedBefore dumps) (m.matching (specKey spec).1 (some (specKey spec).2)))
      (matching_ids keyed _ _)
    cases hmemory : checkExistingPublication existing
        (MemoryExperiments.listCells dumps (specKey spec).1 (some (specKey spec).2) m) spec cells with
    | ok u =>
      have hsqlite := hcheck.2 hmemory
      refine Op.sim_returns (Op.bind_of_ok (Op.lift_of_ok hsqlite)) (Op.bind_of_ok (Op.lift_apply _)) ⟨.inr ?_, rfl⟩
      simp only [checkExistingPublication, except_bind_ok_iff, ensure_ok_iff] at hmemory
      obtain ⟨-, hequal, -⟩ := hmemory
      exact hequal
    | error e =>
      cases hsqlite : checkExistingPublication (Document.canon existing)
          ((m.matching (specKey spec).1 (some (specKey spec).2)).map Document.canon) spec cells with
      | ok u => cases hmemory.symm.trans (hcheck.1 hsqlite)
      | error e' => exact Op.sim_raises (Op.bind_of_error (Op.lift_apply _)) (Op.bind_of_error (Op.lift_apply _)) rfl
  | none =>
    have nodup := nodup_of_validatePublication hvalid
    have own := own_of_validatePublication hvalid
    by_cases free : ∀ cell ∈ cells, m.cells.get (cellId cell) = none
    · have hfree : ∀ cell ∈ cells, (mirrored m).cells.get (cellId cell) = none := by
        intro cell hcell
        rw [hcells, free cell hcell]
        rfl
      have htaken : cells.any (fun cell => (m.cells.get (cellId cell)).isSome) = false := by
        rw [List.any_eq_false]
        intro cell hcell
        rw [free cell hcell]
        simp
      refine Op.sim_returns
        (Op.bind_of_ok (Op.modify_apply _) |>.trans (Op.bind_of_ok (insertCells_of_free hfree nodup)))
        (Op.bind_of_ok (Op.gets_apply _) |>.trans ((Op.bind_of_ok (Op.lift_ensure_of htaken)).trans
          ((Op.bind_of_ok (Op.modify_apply _)).trans (Op.bind_of_ok (Op.modify_apply _))))) ⟨.inl rfl, ?_⟩
      show SqliteExperiments.mk ((m.specs.map Document.canon).set (specKey spec) (Document.canon spec))
        (cells.foldl (fun t cell => t.set (cellId cell) (SqliteExperiments.rowOf (specKey spec) cell))
          (m.cells.map mirroredCell)) = _
      rw [Table.set_map, mirrored_cells own]
      rfl
    · have htaken : ¬ cells.any (fun cell => (m.cells.get (cellId cell)).isSome) = false := by
        rw [List.any_eq_false]
        intro hall
        refine free (fun cell hcell => ?_)
        simpa using hall cell hcell
      let q : SqliteExperiments := { mirrored m with specs := (mirrored m).specs.set (specKey spec) (Document.canon spec) }
      -- The insertion that meets a stored cell raises.
      have inserted := SqliteExperiments.wp_insertCells (s := q) (specKey spec) nodup
      rcases hinsert : SqliteExperiments.insertCells (specKey spec) cells q with ⟨e | u, t⟩
      · exact Op.sim_raises (Op.bind_of_ok (Op.modify_apply _) |>.trans (Op.bind_of_error hinsert))
          (Op.bind_of_ok (Op.gets_apply _) |>.trans (Op.bind_of_error (Op.lift_ensure_of_not htaken))) rfl
      · obtain ⟨hfree, -⟩ := (Op.wp_of_ok hinsert).1 inserted
        refine absurd (fun cell hcell => ?_) free
        have hnone : (m.cells.get (cellId cell)).map mirroredCell = none := (hcells _).symm.trans (hfree cell hcell)
        simpa using hnone

theorem sim_putSpec (payload : Document) :
    Op.sim (SqliteExperiments.putSpec payload) (mirrored m) (MemoryExperiments.putSpec payload) m
      (fun d q e m' => Document.canon d = Document.canon e ∧ q = mirrored m') (fun q m' => q = mirrored m') := by
  refine Op.sim_bind (Op.sim_lift (fun spec hvalid => ?_) (fun _ _ => rfl))
  refine Op.sim_atomically (Op.sim_bind (Op.sim_gets ?_))
  have hspec : (mirrored m).specs.get (specKey spec) = (m.specs.get (specKey spec)).map Document.canon := Table.get_map ..
  rw [hspec]
  cases hget : m.specs.get (specKey spec) with
  | some existing =>
    refine Op.sim_bind (Op.sim_ensure (by rw [Document.canon_equals]) (fun _ => ?_) (fun _ => rfl))
    exact Op.sim_pure ⟨Document.canon_idem existing, rfl⟩
  | none =>
    refine Op.sim_returns rfl rfl ⟨rfl, ?_⟩
    show SqliteExperiments.mk ((m.specs.map Document.canon).set (specKey spec) (Document.canon spec)) _ = _
    rw [Table.set_map]
    rfl

theorem sim_putCell (payload : Document) :
    Op.sim (SqliteExperiments.putCell payload) (mirrored m) (MemoryExperiments.putCell payload) m
      (fun d q e m' => Document.canon d = Document.canon e ∧ q = mirrored m') (fun q m' => q = mirrored m') := by
  refine Op.sim_bind (Op.sim_lift (fun cell hvalid => ?_) (fun _ _ => rfl))
  refine Op.sim_atomically (Op.sim_bind (Op.sim_gets ?_))
  have hcell : (mirrored m).cells.get (cellId cell) = (m.cells.get (cellId cell)).map mirroredCell := Table.get_map ..
  rw [hcell]
  cases hget : m.cells.get (cellId cell) with
  | some existing =>
    refine Op.sim_bind (Op.sim_ensure (Bool.coe_iff_coe.2 Document.canon_equals) (fun _ => ?_) (fun _ => rfl))
    exact Op.sim_pure ⟨Document.canon_idem existing, rfl⟩
  | none =>
    have hfree : ((mirrored m).cells.get (cellId cell)).isSome = false := by
      rw [hcell, hget]
      rfl
    refine Op.sim_returns (Op.bind_of_ok ((Op.bind_of_ok (Op.gets_apply _)).trans
      ((Op.bind_of_ok (Op.lift_ensure_of hfree)).trans (Op.modify_apply _)))) rfl ⟨rfl, ?_⟩
    show SqliteExperiments.mk _ ((m.cells.map mirroredCell).set (cellId cell) (mirroredCell cell)) = _
    rw [Table.set_map]
    rfl

theorem claiming_canon (c : Document) :
    (claiming (Document.canon c)).map Document.canon = (claiming c).map Document.canon := by
  by_cases h : status c = some (.str "pending")
  · rw [claiming, claiming, if_pos (status_canon_iff.2 h), if_pos h]
    exact congrArg some (Document.canon_set ..)
  · rw [claiming, claiming, if_neg (fun h' => h (status_canon_iff.1 h')), if_neg h]

theorem resetting_canon (c : Document) :
    (resetting (Document.canon c)).map Document.canon = (resetting c).map Document.canon := by
  by_cases h : status c = some (.str "allocating")
  · rw [resetting, resetting, if_pos (status_canon_iff.2 h), if_pos h]
    exact congrArg some (Document.canon_set ..)
  · rw [resetting, resetting, if_neg (fun h' => h (status_canon_iff.1 h')), if_neg h]

/-- Go on with an answer that is wrapped in both. -/
theorem sim_wrapped {σ τ ε α β γ δ : Type} {x : Op σ ε α} {s : σ} {y : Op τ ε β} {t : τ} {f : α → γ} {g : β → δ}
    {ok : α → σ → β → τ → Prop} {ok' : γ → σ → δ → τ → Prop} {err : σ → τ → Prop} (h : Op.sim x s y t ok err)
    (wraps : ∀ a s b t, ok a s b t → ok' (f a) s (g b) t) :
    Op.sim (x >>= fun a => pure (f a)) s (y >>= fun b => pure (g b)) t ok' err :=
  Op.sim_bind (Op.sim_mono h (fun a s b t hok => Op.sim_pure (wraps a s b t hok)) (fun _ _ herr => herr))

/-- A plain request is answered alike, and the stores go on side by side. -/
theorem served_alike (keyed : m.Keyed) {r : CellRequest} (plain : Plain dumps m r) :
    Op.sim (SqliteExperiments.serve r) (mirrored m) (MemoryExperiments.serve dumps r) m
      (fun a q b m' => b.Agree a ∧ q = mirrored m') (fun q m' => q = mirrored m') := by
  have document {d e : Document} {q : SqliteExperiments} {m' : MemoryExperiments}
      (h : Document.canon d = Document.canon e ∧ q = mirrored m') :
      (CellReply.document e).Agree (.document d) ∧ q = mirrored m' := ⟨.inl h.1.symm, h.2⟩
  have flag {a b : Bool} {q : SqliteExperiments} {m' : MemoryExperiments} (h : a = b ∧ q = mirrored m') :
      (CellReply.flag b).Agree (.flag a) ∧ q = mirrored m' := ⟨h.1.symm, h.2⟩
  cases r with
  | publish spec cells => exact sim_wrapped (sim_publish keyed spec cells) (fun _ _ _ _ h => h)
  | putSpec spec => exact sim_wrapped (sim_putSpec spec) (fun _ _ _ _ => document)
  | putCell cell => exact sim_wrapped (sim_putCell cell) (fun _ _ _ _ => document)
  | claim id =>
    exact sim_wrapped (sim_attempt claiming_canon (fun _ _ => changed_claiming)) (fun _ _ _ _ => flag)
  | complete id run =>
    exact sim_wrapped (sim_transition (fun c _ => reads_completing id run c) (fun _ _ => changed_completing))
      (fun _ _ _ _ => document)
  | fail id reason =>
    exact sim_wrapped (sim_transition (fun c _ => reads_failing id reason c) (fun _ _ => changed_failing))
      (fun _ _ _ _ => document)
  | cancel id =>
    exact sim_wrapped (sim_transition (fun c _ => reads_cancelling id c) (fun _ _ => changed_cancelling))
      (fun _ _ _ _ => document)
  | cancelAllocated id =>
    exact sim_wrapped (sim_transition (fun c _ => reads_cancellingAllocated id c) (fun _ _ => changed_cancellingAllocated))
      (fun _ _ _ _ => document)
  | reset id =>
    exact sim_wrapped (sim_attempt resetting_canon (fun _ _ => changed_resetting)) (fun _ _ _ _ => flag)
  | recordSuperseding id run =>
    exact sim_wrapped (sim_transition (r := .recordSuperseding id run) (fun c hc => reads_recording (plain c hc))
      (fun _ _ => changed_recording _)) (fun _ _ _ _ => document)
  | getSpec experimentId version =>
    refine Op.sim_returns rfl rfl ⟨?_, rfl⟩
    show (m.specs.get _).map Document.canon = ((m.specs.map Document.canon).get _).map Document.canon
    rw [Table.get_map, Option.map_map]
    exact congrArg (fun f => Option.map f _) (funext (fun d => (Document.canon_idem d).symm))
  | getCell id =>
    refine Op.sim_returns rfl rfl ⟨?_, rfl⟩
    show (m.cells.get _).map Document.canon = (((m.cells.map mirroredCell).get _).map CellRow.payload).map Document.canon
    rw [Table.get_map, Option.map_map, Option.map_map]
    exact congrArg (fun f => Option.map f _) (funext (fun d => (Document.canon_idem d).symm))
  | listCells experimentId version =>
    refine Op.sim_returns rfl rfl ⟨?_, rfl⟩
    show (MemoryExperiments.listCells dumps experimentId version m).map Document.canon =
      (SqliteExperiments.listCells experimentId version (mirrored m)).map Document.canon
    have sorted : MemoryExperiments.listCells dumps experimentId version m = m.matching experimentId version :=
      List.Pairwise.insertionSort_eq plain
    rw [listCells_mirrored, sorted, List.map_map]
    exact List.map_congr_left (fun d _ => (Document.canon_idem d).symm)

end Requests

/-! ### Every run -/

/-- Both stores answer every run of plain requests alike. -/
theorem experiments_alike (dumps : Value → String) {m : MemoryExperiments} (keyed : m.Keyed) {requests : List CellRequest}
    (plain : Along (memoryStore dumps).step (Plain dumps) m requests) :
    List.Forall₂ (Alike CellReply.Agree) (replies (MemoryExperiments.serve dumps) m requests)
      (replies SqliteExperiments.serve (mirrored m) requests) :=
  replies_alike (fun _ _ keyed plain => served_alike keyed plain) (fun m r keyed => (orderly_memory dumps).keeps r m keyed)
    keyed plain

end Motte.Experiment
