import Motte.Experiment.CellMoves
import Motte.Foundation.Run

/-! What a cell goes through.

`Orderly` collects what one request can do in either store. What holds along every
run follows from it once: a cell takes only the known edges, it is completed at most
once and keeps the run it was completed with, and a matrix that was published is
there as a whole. -/
namespace Motte.Experiment
open Foundation

/-! ### One request -/

/-- A store, as far as cells and specs can be seen in it. -/
structure CellStore (σ : Type) where
  empty : σ
  serve : CellRequest → Op σ CellError CellReply
  cellAt : σ → String → Option Document
  specAt : σ → String × String → Option Document

namespace CellStore
variable {σ : Type} (S : CellStore σ)

def step (r : CellRequest) (s : σ) : σ := (S.serve r s).2

/-- The request was answered. -/
def Returns (r : CellRequest) (s : σ) : Prop := ∃ reply, (S.serve r s).1 = .ok reply

/-- The spec and every cell of the matrix are there. -/
def Complete (spec : Document) (cells : List Document) (s : σ) : Prop :=
  (S.specAt s (specKey spec)).isSome ∧ ∀ cell ∈ cells, (S.cellAt s (cellId cell)).isSome

/-- The cells are there as they were given, with a status if they had none. -/
def AsGiven (cells : List Document) (s : σ) : Prop :=
  ∀ cell ∈ cells, ∃ c, validateCell cell = .ok c ∧ (S.cellAt s (cellId cell)).map Document.canon = some (Document.canon c)

/-- What one request can do. -/
structure Orderly (Inv : σ → Prop) : Prop where
  init : Inv S.empty
  keeps : ∀ r s, Inv s → Inv (S.step r s)
  moves : ∀ r s, Inv s → ∀ id c, S.cellAt s id = some c → ∃ c', S.cellAt (S.step r s) id = some c' ∧ Changed r id c c'
  refused : ∀ r s, Inv s → ¬ S.Returns r s → S.step r s = s
  completes : ∀ id run s, Inv s → S.Returns (.complete id run) s → ∃ c c', S.cellAt s id = some c ∧
    status c = some (.str "allocating") ∧ S.cellAt (S.step (.complete id run) s) id = some c' ∧
    status c' = some (.str "allocated") ∧ runId c' = some (.str run)
  publishes : ∀ spec cells s, Inv s → S.Returns (.publish spec cells) s →
    S.Complete spec cells (S.step (.publish spec cells) s) ∧
      (S.specAt s (specKey spec) = none → S.AsGiven cells (S.step (.publish spec cells) s))

end CellStore

/-! ### Publications -/

section Publication
variable {payload spec : Document} {cellPayloads cells : List Document}

theorem cellId_of_validateCell {c : Document} (h : validateCell payload = .ok c) : cellId c = cellId payload := by
  simp only [validateCell, except_bind_ok_iff, ensure_ok_iff, Except.ok.injEq, exists_const] at h
  obtain ⟨-, -, -, -, rfl⟩ := h
  rw [cellId, cellId, textOf, textOf, Document.text?, Document.text?, Document.setDefault]
  split
  · rfl
  · rw [Table.get_set_ne _ _ (by decide)]

/-- A publication that passes has the spec and the cells of its request, each cell under its id. -/
theorem validatePublication_ok (h : validatePublication payload cellPayloads = .ok (spec, cells)) :
    spec = payload ∧ ∀ p ∈ cellPayloads, ∃ c ∈ cells, validateCell p = .ok c ∧ cellId c = cellId p := by
  simp only [validatePublication, validateSpec, except_bind_ok_iff, ensure_ok_iff, Except.ok.injEq, exists_const] at h
  obtain ⟨spec', ⟨-, -, hspec⟩, cells', hcells, -, -, heq⟩ := h
  cases heq
  refine ⟨hspec.symm, fun p hp => ?_⟩
  obtain ⟨c, hc, hvalid⟩ := exists_of_forall₂ (mapM_ok hcells) hp
  exact ⟨c, hc, hvalid, cellId_of_validateCell hvalid⟩

theorem ids_of_checkExistingPublication {existingSpec : Document} {existing : List Document} {u : Unit}
    (h : checkExistingPublication existingSpec existing spec cells = .ok u) :
    ∀ cell ∈ cells, cellId cell ∈ existing.map cellId := by
  simp only [checkExistingPublication, except_bind_ok_iff, ensure_ok_iff] at h
  obtain ⟨-, -, -, ⟨-, hids⟩, -⟩ := h
  exact hids

end Publication

theorem MemoryExperiments.row_of_listCells {dumps : Value → String} {s : MemoryExperiments} {experimentId : String}
    {version : Option String} {e : Document} (h : e ∈ MemoryExperiments.listCells dumps experimentId version s) :
    ∃ id, s.cells.get id = some e := by
  rw [MemoryExperiments.listCells, List.mem_insertionSort, MemoryExperiments.matching, List.mem_filter, List.mem_map] at h
  obtain ⟨⟨⟨id, e'⟩, hrow, rfl⟩, -⟩ := h
  exact ⟨id, Table.get_of_mem hrow⟩

theorem SqliteExperiments.row_of_listCells {s : SqliteExperiments} {experimentId : String} {version : Option String}
    {e : Document} (h : e ∈ SqliteExperiments.listCells experimentId version s) :
    ∃ id row, s.cells.get id = some row ∧ row.payload = e := by
  rw [SqliteExperiments.listCells, List.mem_map] at h
  obtain ⟨row, hrow, rfl⟩ := h
  obtain ⟨⟨id, row'⟩, hmem, rfl⟩ := List.mem_map.1 (List.mem_filter.1 hrow).1
  exact ⟨id, row', Table.get_of_mem hmem, rfl⟩

/-! ### Both stores -/

section Stores

def memoryStore (dumps : Value → String) : CellStore MemoryExperiments where
  empty := {}
  serve := MemoryExperiments.serve dumps
  cellAt s id := s.cells.get id
  specAt s key := s.specs.get key

def sqliteStore : CellStore SqliteExperiments where
  empty := {}
  serve := SqliteExperiments.serve
  cellAt s id := (s.cells.get id).map (·.payload)
  specAt s key := s.specs.get key

/-- What a handler guarantees, told by whether it returned. -/
theorem step_of_wp {σ ε α : Type} {x : Op σ ε α} {s : σ} {P : σ → Prop}
    (h : x.wp s (fun _ t => P t) (fun _ t => t = s)) : P (x s).2 ∨ (x s).2 = s := by
  rcases hx : x s with ⟨e | a, t⟩
  · exact .inr ((Op.wp_of_error hx).1 h)
  · exact .inl ((Op.wp_of_ok hx).1 h)

theorem refused_of_wp {σ ε α : Type} {x : Op σ ε α} {s : σ} {P : σ → Prop}
    (h : x.wp s (fun _ t => P t) (fun _ t => t = s)) (refused : ¬ ∃ a, (x s).1 = .ok a) : (x s).2 = s := by
  rcases hx : x s with ⟨e | a, t⟩
  · exact (Op.wp_of_error hx).1 h
  · rw [hx] at refused
    exact absurd ⟨a, rfl⟩ refused

theorem orderly_memory (dumps : Value → String) : (memoryStore dumps).Orderly MemoryExperiments.Keyed where
  init := fun _ _ h => by cases h
  keeps r s hs := by
    rcases step_of_wp (@MemoryExperiments.served dumps s r) with heffect | hsame
    · exact heffect.keyed hs
    · rw [show (memoryStore dumps).step r s = s from hsame]
      exact hs
  moves r s hs id c hget := by
    rcases step_of_wp (@MemoryExperiments.served dumps s r) with heffect | hsame
    · exact heffect.moves hget
    · rw [show (memoryStore dumps).step r s = s from hsame]
      exact ⟨c, hget, .refl r id c⟩
  refused r s _ hrefused := refused_of_wp (MemoryExperiments.served r) hrefused
  completes id run s hs := by
    rintro ⟨reply, hreply⟩
    obtain ⟨c', c, hget, hmutate, ht⟩ := Op.wp_returned_wrapped (MemoryExperiments.wp_transition id _) hreply
    obtain ⟨hfrom, hto, hrun, -⟩ := completing_ok hmutate
    have ht : (memoryStore dumps).step (.complete id run) s = _ := ht
    refine ⟨c, c', hget, hfrom, ?_, hto, hrun⟩
    rw [ht]
    exact Table.get_set_self ..
  publishes payload cellPayloads s hs := by
    rintro ⟨reply, hreply⟩
    obtain ⟨-, spec, cells, hvalid, hcases⟩ :=
      Op.wp_returned_wrapped (MemoryExperiments.wp_publish payload cellPayloads) hreply
    obtain ⟨rfl, given⟩ := validatePublication_ok hvalid
    rcases hcases with ⟨existing, hget, ht, hcheck⟩ | ⟨hget, -, ht⟩
    · have ht : (memoryStore dumps).step (.publish spec cellPayloads) s = s := ht
      rw [ht]
      refine ⟨⟨Option.isSome_iff_exists.2 ⟨existing, hget⟩, fun p hp => ?_⟩, fun hnone => ?_⟩
      · obtain ⟨c, hc, -, hid⟩ := given p hp
        obtain ⟨e, he, heq⟩ := List.mem_map.1 (ids_of_checkExistingPublication hcheck c hc)
        obtain ⟨id, hrow⟩ := MemoryExperiments.row_of_listCells he
        refine Option.isSome_iff_exists.2 ⟨e, ?_⟩
        rw [← hid, ← heq, hs id e hrow]
        exact hrow
      · cases hget.symm.trans hnone
    · have ht : (memoryStore dumps).step (.publish spec cellPayloads) s = _ := ht
      rw [ht]
      have stored : ∀ p ∈ cellPayloads, ∃ c, validateCell p = .ok c ∧
          (MemoryExperiments.storeCells cells { s with specs := s.specs.set (specKey spec) spec }).cells.get (cellId p) =
            some c := by
        intro p hp
        obtain ⟨c, hc, hvalidCell, hid⟩ := given p hp
        refine ⟨c, hvalidCell, ?_⟩
        rw [← hid]
        exact Table.get_foldl_set_mem (f := fun cell => cell) (nodup_of_validatePublication hvalid) hc
      refine ⟨⟨Option.isSome_iff_exists.2 ⟨spec, Table.get_set_self ..⟩, fun p hp => ?_⟩, fun _ p hp => ?_⟩
      · obtain ⟨c, -, hstored⟩ := stored p hp
        exact Option.isSome_iff_exists.2 ⟨c, hstored⟩
      · obtain ⟨c, hvalidCell, hstored⟩ := stored p hp
        exact ⟨c, hvalidCell, congrArg (Option.map Document.canon) hstored⟩

theorem orderly_sqlite : sqliteStore.Orderly SqliteExperiments.Keyed where
  init := fun _ _ h => by cases h
  keeps r s hs := by
    rcases step_of_wp (SqliteExperiments.served (s := s) r) with heffect | hsame
    · exact heffect.keyed hs
    · rw [show sqliteStore.step r s = s from hsame]
      exact hs
  moves r s hs id c hget := by
    obtain ⟨row, hrow, rfl⟩ := Option.map_eq_some_iff.1 hget
    rcases step_of_wp (SqliteExperiments.served (s := s) r) with heffect | hsame
    · obtain ⟨row', hrow', changed⟩ := heffect.moves hs hrow
      exact ⟨row'.payload, Option.map_eq_some_iff.2 ⟨row', hrow', rfl⟩, changed⟩
    · rw [show sqliteStore.step r s = s from hsame]
      exact ⟨row.payload, hget, .refl r id _⟩
  refused r s _ hrefused := refused_of_wp (SqliteExperiments.served r) hrefused
  completes id run s hs := by
    rintro ⟨reply, hreply⟩
    obtain ⟨c', row, hget, hmutate, ht⟩ := Op.wp_returned_wrapped (SqliteExperiments.wp_mutateCell id _) hreply
    obtain ⟨hfrom, hto, hrun, rest⟩ := completing_ok hmutate
    have ht : sqliteStore.step (.complete id run) s = _ := ht
    refine ⟨row.payload, Document.canon c', Option.map_eq_some_iff.2 ⟨row, hget, rfl⟩, hfrom, ?_, ?_, ?_⟩
    · rw [ht]
      exact Option.map_eq_some_iff.2 ⟨_, Table.get_set_self .., rfl⟩
    · rw [status, Document.get_canon, ← status, hto]
      rfl
    · rw [runId, Document.get_canon, ← runId, hrun]
      rfl
  publishes payload cellPayloads s hs := by
    rintro ⟨reply, hreply⟩
    obtain ⟨-, spec, cells, hvalid, hcases⟩ :=
      Op.wp_returned_wrapped (SqliteExperiments.wp_publish payload cellPayloads) hreply
    obtain ⟨rfl, given⟩ := validatePublication_ok hvalid
    rcases hcases with ⟨existing, hget, ht, hcheck⟩ | ⟨hget, -, ht⟩
    · have ht : sqliteStore.step (.publish spec cellPayloads) s = s := ht
      rw [ht]
      refine ⟨⟨Option.isSome_iff_exists.2 ⟨existing, hget⟩, fun p hp => ?_⟩, fun hnone => ?_⟩
      · obtain ⟨c, hc, -, hid⟩ := given p hp
        obtain ⟨e, he, heq⟩ := List.mem_map.1 (ids_of_checkExistingPublication hcheck c hc)
        obtain ⟨id, row, hrow, rfl⟩ := SqliteExperiments.row_of_listCells he
        refine Option.isSome_iff_exists.2 ⟨row.payload, Option.map_eq_some_iff.2 ⟨row, ?_, rfl⟩⟩
        rw [← hid, ← heq, (hs id row hrow).id]
        exact hrow
      · cases hget.symm.trans hnone
    · have ht : sqliteStore.step (.publish spec cellPayloads) s = _ := ht
      rw [ht]
      have stored : ∀ p ∈ cellPayloads, ∃ c, validateCell p = .ok c ∧
          (cells.foldl (fun t cell => t.set (cellId cell) (SqliteExperiments.rowOf (specKey spec) cell)) s.cells).get
            (cellId p) = some (SqliteExperiments.rowOf (specKey spec) c) := by
        intro p hp
        obtain ⟨c, hc, hvalidCell, hid⟩ := given p hp
        refine ⟨c, hvalidCell, ?_⟩
        rw [← hid]
        exact Table.get_foldl_set_mem (nodup_of_validatePublication hvalid) hc
      refine ⟨⟨Option.isSome_iff_exists.2 ⟨_, Table.get_set_self ..⟩, fun p hp => ?_⟩, fun _ p hp => ?_⟩
      · obtain ⟨c, -, hstored⟩ := stored p hp
        exact Option.isSome_iff_exists.2 ⟨_, Option.map_eq_some_iff.2 ⟨_, hstored, rfl⟩⟩
      · obtain ⟨c, hvalidCell, hstored⟩ := stored p hp
        refine ⟨c, hvalidCell, ?_⟩
        show ((Table.get _ (cellId p)).map CellRow.payload).map Document.canon = some (Document.canon c)
        rw [hstored]
        exact congrArg some (Document.canon_idem c)

end Stores

/-! ### Every run -/

namespace CellStore
variable {σ : Type} {S : CellStore σ} {Inv : σ → Prop}

/-- The cell that a request completes. -/
def completion (S : CellStore σ) (s : σ) : CellRequest → Option String
  | .complete id run => (S.serve (.complete id run) s).1.toOption.map (fun _ => id)
  | _ => none

theorem completion_eq_some {s : σ} {r : CellRequest} {id : String} (h : S.completion s r = some id) :
    ∃ run, r = .complete id run ∧ S.Returns r s := by
  cases r with
  | complete id' run =>
    obtain ⟨reply, hreply, rfl⟩ := Option.map_eq_some_iff.1 h
    refine ⟨run, rfl, reply, ?_⟩
    cases hserved : (S.serve (.complete id' run) s).1 with
    | error e =>
      rw [hserved] at hreply
      cases hreply
    | ok reply' =>
      rw [hserved] at hreply
      cases hreply
      rfl
  | _ => cases h

/-- A cell that no request can complete any more, with its run. -/
def Closed (S : CellStore σ) (s : σ) (id : String) (run : Option Value) : Prop :=
  ∃ c, S.cellAt s id = some c ∧ runId c = run ∧
    (status c = some (.str "allocated") ∨ status c = some (.str "cancelled"))

theorem str_ne {a b : String} (h : a ≠ b) {x : Option Value} (ha : x = some (.str a)) : x ≠ some (.str b) := by
  rintro rfl
  exact h (Value.str.inj (Option.some.inj ha.symm))

/-- Closed cells stay closed, with their run. -/
theorem Orderly.closed (h : S.Orderly Inv) {s : σ} (hs : Inv s) (r : CellRequest) {id : String} {run : Option Value}
    (closed : S.Closed s id run) : S.Closed (S.step r s) id run := by
  obtain ⟨c, hget, rfl, hstatus⟩ := closed
  obtain ⟨c', hget', changed⟩ := h.moves r s hs id c hget
  have absent {a : String} (h₁ : "allocated" ≠ a) (h₂ : "cancelled" ≠ a) : status c ≠ some (.str a) :=
    hstatus.elim (str_ne h₁) (str_ne h₂)
  refine ⟨c', hget', ?_⟩
  cases changed.moved with
  | kept hkept hrun => exact ⟨hrun, hkept ▸ hstatus⟩
  | withdrawn _ _ hto hrun => exact ⟨hrun, .inr hto⟩
  | claimed _ hfrom _ _ => exact absurd hfrom (absent (by decide) (by decide))
  | completed _ _ hfrom _ _ => exact absurd hfrom (absent (by decide) (by decide))
  | failed _ _ hfrom _ _ => exact absurd hfrom (absent (by decide) (by decide))
  | reset _ hfrom _ _ => exact absurd hfrom (absent (by decide) (by decide))
  | cancelled _ hfrom _ _ =>
    rcases hfrom with hfrom | hfrom
    · exact absurd hfrom (absent (by decide) (by decide))
    · exact absurd hfrom (absent (by decide) (by decide))

/-- What every run of requests does to the cells of an empty store. -/
structure Lifecycle (S : CellStore σ) : Prop where
  /-- A cell stays, and takes one of the known edges at a time. -/
  moves : ∀ requests r id c, S.cellAt (run S.step S.empty requests) id = some c →
    ∃ c', S.cellAt (run S.step S.empty (requests ++ [r])) id = some c' ∧ Moved r id c c'
  /-- No cell is completed twice. -/
  once : ∀ requests, (emitted S.step S.completion S.empty requests).Nodup
  /-- A cell keeps the run it was completed with. -/
  fixed : ∀ requests id target later, S.Returns (.complete id target) (run S.step S.empty requests) →
    S.Closed (run S.step S.empty (requests ++ .complete id target :: later)) id (some (.str target))
  /-- A matrix that is published is there as a whole, and as it was given if it is new. -/
  published : ∀ requests spec cells, S.Returns (.publish spec cells) (run S.step S.empty requests) →
    S.Complete spec cells (run S.step S.empty (requests ++ [.publish spec cells])) ∧
      (S.specAt (run S.step S.empty requests) (specKey spec) = none →
        S.AsGiven cells (run S.step S.empty (requests ++ [.publish spec cells])))
  /-- A request that is refused, a publication among them, stores nothing. -/
  refused : ∀ requests r, ¬ S.Returns r (run S.step S.empty requests) →
    run S.step S.empty (requests ++ [r]) = run S.step S.empty requests

theorem Orderly.lifecycle (h : S.Orderly Inv) : S.Lifecycle := by
  have reached (requests : List CellRequest) : Inv (run S.step S.empty requests) :=
    run_keeps (fun s r hs => h.keeps r s hs) requests h.init
  have next (requests : List CellRequest) (r : CellRequest) :
      run S.step S.empty (requests ++ [r]) = S.step r (run S.step S.empty requests) := run_append ..
  refine ⟨fun requests r id c hget => ?_, fun requests => ?_, fun requests id run' later returns => ?_,
    fun requests spec cells returns => ?_, fun requests r refused => ?_⟩
  · obtain ⟨c', hget', changed⟩ := h.moves r _ (reached requests) id c hget
    exact ⟨c', next requests r ▸ hget', changed.moved⟩
  · have fresh (s : σ) (r : CellRequest) (id : String) (hs : Inv s) (_ : True)
        (hgives : S.completion s r = some id) :
        (¬ ∃ run, S.Closed s id run) ∧ ∃ run, S.Closed (S.step r s) id run := by
      obtain ⟨run, rfl, returns⟩ := completion_eq_some hgives
      obtain ⟨c, c', hget, hfrom, hget', hto, hrun⟩ := h.completes id run s hs returns
      refine ⟨?_, some (.str run), c', hget', hrun, .inl hto⟩
      rintro ⟨run', d, hd, -, hstatus⟩
      cases hget.symm.trans hd
      rcases hstatus with hstatus | hstatus
      · exact str_ne (by decide) hfrom hstatus
      · exact str_ne (by decide) hfrom hstatus
    have always : Along S.step (fun _ _ => True) S.empty requests := along_of_forall (fun _ _ => trivial)
    exact (always.emits_once (fun s r hs _ => h.keeps r s hs) fresh
      (fun s r id hs _ ⟨run, closed⟩ => ⟨run, h.closed hs r closed⟩) h.init).1
  · obtain ⟨c, c', -, -, hget', hto, hrun⟩ := h.completes id run' _ (reached requests) returns
    have closed : S.Closed (S.step (.complete id run') (run S.step S.empty requests)) id (some (.str run')) :=
      ⟨c', hget', hrun, .inl hto⟩
    rw [run_append]
    show S.Closed (run S.step (S.step (.complete id run') (run S.step S.empty requests)) later) id _
    have both : Inv (S.step (.complete id run') (run S.step S.empty requests)) ∧
        S.Closed (S.step (.complete id run') (run S.step S.empty requests)) id (some (.str run')) :=
      ⟨h.keeps _ _ (reached requests), closed⟩
    exact (run_keeps (I := fun s => Inv s ∧ S.Closed s id (some (.str run')))
      (fun s r hs => ⟨h.keeps r s hs.1, h.closed hs.1 r hs.2⟩) later both).2
  · rw [next]
    exact h.publishes spec cells _ (reached requests) returns
  · rw [next]
    exact h.refused r _ (reached requests) refused

end CellStore

/-- In both stores a cell is claimed, completed, failed, cancelled and reset along the known edges only, is completed
at most once and then keeps its run, and a matrix is stored as a whole or not at all. -/
theorem cells_follow_lifecycle (dumps : Value → String) : (memoryStore dumps).Lifecycle ∧ sqliteStore.Lifecycle :=
  ⟨(orderly_memory dumps).lifecycle, orderly_sqlite.lifecycle⟩

def document (members : List (String × Value)) : Document := members.foldl (fun d m => Table.set d m.1 m.2) ∅

def sampleCell (id : String) (repeatIndex : Int) (more : List (String × Value)) : Document :=
  document ([("cell_id", .str id), ("experiment_id", .str "e"), ("experiment_version", .str "1"),
    ("repeat_index", .int repeatIndex), ("factor_assignment", .obj [])] ++ more)

def sampleSpec : Document := document [("experiment_id", .str "e"), ("version", .str "1")]

/-- A pending cell is cancelled without having been claimed, and the run that a cell was published with is replaced
when it is completed. -/
theorem pending_cell_cancelled :
    let store := memoryStore (fun _ => "\x7b\x7d")
    let published := [CellRequest.publish sampleSpec [sampleCell "c" 0 [("run_id", .str "r0")]]]
    let after (requests : List CellRequest) := store.cellAt (run store.step store.empty (published ++ requests)) "c"
    (after []).bind status = some (.str "pending") ∧ (after [.cancel "c"]).bind status = some (.str "cancelled") ∧
      (after []).bind runId = some (.str "r0") ∧ (after [.claim "c", .complete "c" "r1"]).bind runId = some (.str "r1") := by
  decide +kernel

end Motte.Experiment
