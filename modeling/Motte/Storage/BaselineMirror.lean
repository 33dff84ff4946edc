import Mathlib.Algebra.Group.Int.Defs
import Motte.Experiment.Mirror

/-! Baseline snapshots in the two stores.

A snapshot is written once under its id. A listing of the dictionaries is sorted by
time and cut to its end; a listing of the table is in descending row order and cut
to its start. The two show the same only where the last snapshots were stored in
descending order of their times. -/
namespace Motte.Storage
open Foundation Experiment

/-- A snapshot as `_validate` gives it: a document with an id and a time. -/
structure Snapshot where
  document : Document
  baselineId : String
  createdAt : String
  identified : document.get "baseline_id" = some (.str baselineId)
  dated : document.get "created_at" = some (.str createdAt)

inductive BaselineError where
  /-- What the contract refuses. -/
  | invalid
  /-- `BASELINE_IMMUTABLE` -/
  | immutable (baselineId : String)
  /-- `limit must be a nonnegative integer or None` -/
  | limit

/-- `_limit` -/
def checkLimit (limit : Option Int) : Except BaselineError Unit := ensure (∀ n ∈ limit, 0 ≤ n) .limit

/-- How many of `count` snapshots a listing shows. -/
def shown (limit : Option Int) (count : Nat) : Nat :=
  match limit with
  | none => count
  | some n => min n.toNat count

/-- `_MAX_SQL_LIMIT` -/
def maxSqlLimit : Int := 2 ^ 63 - 1

inductive BaselineRequest where
  | put (payload : Document)
  | get (baselineId : String)
  | list (limit : Option Int)

inductive BaselineReply where
  | document (d : Document)
  | found (d : Option Document)
  | documents (ds : List Document)

/-- Order by time. -/
def earlier (a b : Snapshot) : Prop := a.createdAt ≤ b.createdAt

instance : DecidableRel earlier := fun a b => inferInstanceAs (Decidable (a.createdAt ≤ b.createdAt))

section Stores
-- `_validate`: what the contract makes of a payload
variable (validate : Document → Except BaselineError Snapshot)

abbrev MemoryBaselines := Table String Snapshot

/-- The rows of `m6_baselines`, as they are read back. -/
abbrev SqliteBaselines := Table String Document

namespace MemoryBaselines

def put (payload : Document) : Op MemoryBaselines BaselineError Document := do
  let snapshot ← Op.lift (validate payload)
  match ← Op.gets (fun s : MemoryBaselines => Table.get s snapshot.baselineId) with
  | some existing => do
    Op.lift (ensure (existing.document.equals snapshot.document) (.immutable snapshot.baselineId))
    pure existing.document
  | none => do
    Op.modify (fun s : MemoryBaselines => Table.set s snapshot.baselineId snapshot)
    pure snapshot.document

/-- The snapshots in the order they were stored. -/
def stored (s : MemoryBaselines) : List Snapshot := s.rows.map Prod.snd

/-- `snapshots[-limit:]` of the sorted snapshots, all of them without a limit -/
def list (limit : Option Int) : Op MemoryBaselines BaselineError (List Document) := do
  Op.lift (checkLimit limit)
  Op.gets (fun s =>
    let sorted := (stored s).insertionSort earlier
    (sorted.drop (sorted.length - shown limit sorted.length)).map (·.document))

def serve : BaselineRequest → Op MemoryBaselines BaselineError BaselineReply
  | .put payload => do pure (.document (← put validate payload))
  | .get baselineId => do
    pure (.found (← Op.gets (fun s : MemoryBaselines => (Table.get s baselineId).map (·.document))))
  | .list limit => do pure (.documents (← list limit))

end MemoryBaselines

namespace SqliteBaselines

def put (payload : Document) : Op SqliteBaselines BaselineError Document := do
  let snapshot ← Op.lift (validate payload)
  Op.atomically do
    match ← Op.gets (fun s : SqliteBaselines => Table.get s snapshot.baselineId) with
    | some existing => do
      Op.lift (ensure (existing.equals snapshot.document) (.immutable snapshot.baselineId))
      pure existing
    | none => do
      Op.modify (fun s : SqliteBaselines => Table.set s snapshot.baselineId (Document.canon snapshot.document))
      pure snapshot.document

/-- `ORDER BY rowid DESC LIMIT ?` -/
def list (limit : Option Int) : Op SqliteBaselines BaselineError (List Document) := do
  Op.lift (checkLimit limit)
  Op.gets (fun s : SqliteBaselines =>
    (s.rows.map Prod.snd).reverse.take (shown (limit.map (min · maxSqlLimit)) s.rows.length))

def serve : BaselineRequest → Op SqliteBaselines BaselineError BaselineReply
  | .put payload => do pure (.document (← put validate payload))
  | .get baselineId => do pure (.found (← Op.gets (fun s : SqliteBaselines => Table.get s baselineId)))
  | .list limit => do pure (.documents (← list limit))

end SqliteBaselines

end Stores

/-! ### Listings -/

section Sorting
variable {a b : Snapshot} {l r recent older : List Snapshot}

/-- What is later than all the others is inserted at the end. -/
theorem orderedInsert_last (h : ∀ x ∈ l, ¬ earlier b x) : l.orderedInsert earlier b = l ++ [b] := by
  induction l with
  | nil => rfl
  | cons x rest ih =>
    rw [List.orderedInsert_cons, if_neg (h x (List.mem_cons_self ..)), ih (fun y hy => h y (List.mem_cons_of_mem _ hy))]
    rfl

/-- What is not later than a tail is inserted before it. -/
theorem orderedInsert_before (h : ∀ x ∈ r, earlier a x) :
    (l ++ r).orderedInsert earlier a = l.orderedInsert earlier a ++ r := by
  induction l with
  | nil =>
    cases r with
    | nil => rfl
    | cons x rest =>
      rw [List.nil_append, List.orderedInsert_cons, if_pos (h x (List.mem_cons_self ..))]
      rfl
  | cons x rest ih =>
    rw [List.cons_append, List.orderedInsert_cons, List.orderedInsert_cons]
    split
    · rfl
    · rw [ih]
      rfl

theorem insertionSort_descending (h : recent.Pairwise (fun a b => b.createdAt < a.createdAt)) :
    recent.insertionSort earlier = recent.reverse := by
  induction recent with
  | nil => rfl
  | cons b rest ih =>
    rw [List.pairwise_cons] at h
    rw [List.insertionSort_cons, ih h.2, List.reverse_cons]
    refine orderedInsert_last (fun x hx => ?_)
    exact not_le_of_gt (h.1 x (List.mem_reverse.1 hx))

/-- Snapshots that were stored last, each earlier than the one before and none earlier than those before them. -/
structure Descending (older recent : List Snapshot) : Prop where
  falls : recent.Pairwise (fun a b => b.createdAt < a.createdAt)
  last : ∀ a ∈ older, ∀ b ∈ recent, a.createdAt ≤ b.createdAt

instance (older recent : List Snapshot) : Decidable (Descending older recent) :=
  decidable_of_iff (recent.Pairwise (fun a b => b.createdAt < a.createdAt) ∧
    ∀ a ∈ older, ∀ b ∈ recent, a.createdAt ≤ b.createdAt) ⟨fun h => ⟨h.1, h.2⟩, fun h => ⟨h.falls, h.last⟩⟩

theorem Descending.sorted (h : Descending older recent) :
    (older ++ recent).insertionSort earlier = older.insertionSort earlier ++ recent.reverse := by
  obtain ⟨falls, last⟩ := h
  induction older with
  | nil => exact insertionSort_descending falls
  | cons a rest ih =>
    rw [List.cons_append, List.insertionSort_cons, List.insertionSort_cons,
      ih (fun b hb => last b (List.mem_cons_of_mem _ hb))]
    exact orderedInsert_before (fun x hx => last a (List.mem_cons_self ..) x (List.mem_reverse.1 hx))

end Sorting

/-! ### One request -/

section Requests
variable {validate : Document → Except BaselineError Snapshot} {m : MemoryBaselines}

/-- What the table holds when the dictionary holds this. -/
def mirroredBaselines (m : MemoryBaselines) : SqliteBaselines := m.map (fun snapshot => Document.canon snapshot.document)

/-- A listing that is the same in both stores: of the snapshots it shows, each was stored with an earlier time than
the one before it, and none was stored before them with a later one. -/
def Falling (m : MemoryBaselines) : BaselineRequest → Prop
  | .list limit =>
    (m.rows.length : Int) ≤ maxSqlLimit ∧
      Descending (m.stored.take (m.rows.length - shown limit m.rows.length))
        (m.stored.drop (m.rows.length - shown limit m.rows.length))
  | _ => True

instance (m : MemoryBaselines) (r : BaselineRequest) : Decidable (Falling m r) := by
  unfold Falling
  split <;> infer_instance

def BaselineReply.Agree : BaselineReply → BaselineReply → Prop
  | .document d, .document e => Document.canon d = Document.canon e
  | .found d, .found e => d.map Document.canon = e.map Document.canon
  | .documents ds, .documents es => ds.map Document.canon = es.map Document.canon
  | _, _ => False

instance (a b : BaselineReply) : Decidable (a.Agree b) := by
  unfold BaselineReply.Agree
  split <;> infer_instance

theorem sim_put (payload : Document) :
    Op.sim (SqliteBaselines.put validate payload) (mirroredBaselines m) (MemoryBaselines.put validate payload) m
      (fun d q e m' => Document.canon d = Document.canon e ∧ q = mirroredBaselines m')
      (fun q m' => q = mirroredBaselines m') := by
  refine Op.sim_bind (Op.sim_lift (fun snapshot _ => ?_) (fun _ _ => rfl))
  refine Op.sim_atomically (Op.sim_bind (Op.sim_gets ?_))
  have hget : (mirroredBaselines m).get snapshot.baselineId =
      (Table.get m snapshot.baselineId).map (fun s => Document.canon s.document) := Table.get_map ..
  rw [hget]
  cases hfound : Table.get m snapshot.baselineId with
  | some existing =>
    refine Op.sim_bind (Op.sim_ensure (Bool.coe_iff_coe.2 Document.canon_equals) (fun _ => ?_) (fun _ => rfl))
    exact Op.sim_pure ⟨Document.canon_idem existing.document, rfl⟩
  | none =>
    refine Op.sim_returns rfl rfl ⟨rfl, ?_⟩
    exact Table.set_map (fun s : Snapshot => Document.canon s.document) m snapshot.baselineId snapshot

theorem shown_le (limit : Option Int) (count : Nat) : shown limit count ≤ count := by
  cases limit with
  | none => exact le_refl _
  | some n => exact min_le_right _ _

theorem shown_capped (limit : Option Int) {count : Nat} (h : (count : Int) ≤ maxSqlLimit) :
    shown (limit.map (min · maxSqlLimit)) count = shown limit count := by
  cases limit with
  | none => rfl
  | some n =>
    show min (min n maxSqlLimit).toNat count = min n.toNat count
    omega

/-- The listing of the dictionaries, where the times fall. -/
theorem list_of_falling {limit : Option Int} (falling : Falling m (.list limit)) :
    let sorted := m.stored.insertionSort earlier
    sorted.drop (sorted.length - shown limit sorted.length) = m.stored.reverse.take (shown limit m.stored.length) := by
  obtain ⟨-, descending⟩ := falling
  have hlength : m.stored.length = m.rows.length := List.length_map _
  rw [← hlength] at descending
  have hshown := shown_le limit m.stored.length
  generalize hk : m.stored.length - shown limit m.stored.length = k at descending
  have hsorted := descending.sorted
  rw [List.take_append_drop] at hsorted
  have hsort : (m.stored.insertionSort earlier).length = m.stored.length := List.length_insertionSort ..
  have hold : ((m.stored.take k).insertionSort earlier).length = k := by
    rw [List.length_insertionSort, List.length_take]
    omega
  dsimp only
  rw [hsort, hk, hsorted, List.drop_append, hold, Nat.sub_self, List.drop_zero, List.drop_of_length_le (by omega),
    List.nil_append, List.reverse_drop]
  congr 1
  omega

theorem sim_list {limit : Option Int} (falling : Falling m (.list limit)) :
    Op.sim (SqliteBaselines.list limit) (mirroredBaselines m) (MemoryBaselines.list limit) m
      (fun ds q es m' => es.map Document.canon = ds.map Document.canon ∧ q = mirroredBaselines m')
      (fun q m' => q = mirroredBaselines m') := by
  refine Op.sim_bind (Op.sim_lift (fun _ _ => ?_) (fun _ _ => rfl))
  refine Op.sim_gets ⟨?_, rfl⟩
  have rows : (mirroredBaselines m).rows.map Prod.snd = m.stored.map (fun s => Document.canon s.document) := by
    show (m.rows.map _).map Prod.snd = (m.rows.map Prod.snd).map _
    rw [List.map_map, List.map_map]
    rfl
  have hcount : (mirroredBaselines m).rows.length = m.rows.length := List.length_map _
  have hlength : m.stored.length = m.rows.length := List.length_map _
  dsimp only
  rw [list_of_falling falling, rows, hcount, shown_capped limit falling.1, ← List.map_reverse, ← List.map_take,
    List.map_map, List.map_map, hlength]
  exact List.map_congr_left (fun s _ => (Document.canon_idem s.document).symm)

theorem baselines_served_alike {r : BaselineRequest} (falling : Falling m r) :
    Op.sim (SqliteBaselines.serve validate r) (mirroredBaselines m) (MemoryBaselines.serve validate r) m
      (fun a q b m' => b.Agree a ∧ q = mirroredBaselines m') (fun q m' => q = mirroredBaselines m') := by
  cases r with
  | put payload => exact sim_wrapped (sim_put payload) (fun _ _ _ _ h => ⟨h.1.symm, h.2⟩)
  | get baselineId =>
    refine Op.sim_returns rfl rfl ⟨?_, rfl⟩
    show ((Table.get m baselineId).map _).map Document.canon =
      (Table.get (Table.map (fun s : Snapshot => Document.canon s.document) m) baselineId).map Document.canon
    rw [Table.get_map, Option.map_map, Option.map_map]
    exact congrArg (fun f => Option.map f _) (funext (fun s => (Document.canon_idem s.document).symm))
  | list limit => exact sim_wrapped (sim_list falling) (fun _ _ _ _ h => h)

/-- Both stores answer every run of such requests alike. -/
theorem baselines_alike {requests : List BaselineRequest}
    (falling : Along (fun r s => (MemoryBaselines.serve validate r s).2) Falling m requests) :
    List.Forall₂ (Alike BaselineReply.Agree) (replies (MemoryBaselines.serve validate) m requests)
      (replies (SqliteBaselines.serve validate) (mirroredBaselines m) requests) :=
  replies_alike (I := fun _ => True) (fun _ _ _ => baselines_served_alike) (fun _ _ _ => trivial) trivial falling

end Requests

/-! ### Both kinds of stores -/

/-- From empty stores every request is answered alike by the dictionaries and by the tables, if every listing of
cells finds them in order, no list of superseding runs is an object out of order, and every listing of baselines
finds the times falling. -/
theorem stores_alike (dumps : Value → String) (validate : Document → Except BaselineError Snapshot)
    (requests : List CellRequest) (plain : Along (memoryStore dumps).step (Plain dumps) {} requests)
    (baselines : List BaselineRequest)
    (falling : Along (fun r s => (MemoryBaselines.serve validate r s).2) Falling ∅ baselines) :
    List.Forall₂ (Alike CellReply.Agree) (replies (MemoryExperiments.serve dumps) {} requests)
        (replies SqliteExperiments.serve {} requests) ∧
      List.Forall₂ (Alike BaselineReply.Agree) (replies (MemoryBaselines.serve validate) ∅ baselines)
        (replies (SqliteBaselines.serve validate) ∅ baselines) :=
  ⟨experiments_alike dumps (orderly_memory dumps).init plain, baselines_alike falling⟩

/-- A contract that asks for an id and a time only. -/
def sampleValidate (payload : Document) : Except BaselineError Snapshot :=
  match h : payload.get "baseline_id", h' : payload.get "created_at" with
  | some (.str id), some (.str time) => .ok ⟨payload, id, time, h, h'⟩
  | _, _ => .error .invalid

def sampleBaseline (id time : String) : Document := document [("baseline_id", .str id), ("created_at", .str time)]

theorem sample_stores_alike :
    List.Forall₂ (Alike CellReply.Agree)
        (replies (MemoryExperiments.serve (fun _ => "\x7b\x7d")) {}
          [.publish sampleSpec [sampleCell "a" 0 [], sampleCell "b" 1 []], .claim "a", .complete "a" "r",
            .recordSuperseding "a" "r1", .listCells "e" none])
        (replies SqliteExperiments.serve {}
          [.publish sampleSpec [sampleCell "a" 0 [], sampleCell "b" 1 []], .claim "a", .complete "a" "r",
            .recordSuperseding "a" "r1", .listCells "e" none]) ∧
      List.Forall₂ (Alike BaselineReply.Agree)
        (replies (MemoryBaselines.serve sampleValidate) ∅
          [.put (sampleBaseline "x" "2026"), .put (sampleBaseline "y" "2025"), .list (some 2)])
        (replies (SqliteBaselines.serve sampleValidate) ∅
          [.put (sampleBaseline "x" "2026"), .put (sampleBaseline "y" "2025"), .list (some 2)]) :=
  stores_alike (fun _ => "\x7b\x7d") sampleValidate
    [.publish sampleSpec [sampleCell "a" 0 [], sampleCell "b" 1 []], .claim "a", .complete "a" "r",
      .recordSuperseding "a" "r1", .listCells "e" none] (by decide +kernel)
    [.put (sampleBaseline "x" "2026"), .put (sampleBaseline "y" "2025"), .list (some 2)] (by decide +kernel)

/-- Cells that were published out of order are listed differently, and so is the latest of two baselines. -/
theorem listings_differ :
    ¬ List.Forall₂ (Alike CellReply.Agree)
        (replies (MemoryExperiments.serve (fun _ => "\x7b\x7d")) {}
          [.publish sampleSpec [sampleCell "a" 1 [], sampleCell "b" 0 []], .listCells "e" none])
        (replies SqliteExperiments.serve {}
          [.publish sampleSpec [sampleCell "a" 1 [], sampleCell "b" 0 []], .listCells "e" none]) ∧
      ¬ List.Forall₂ (Alike BaselineReply.Agree)
        (replies (MemoryBaselines.serve sampleValidate) ∅
          [.put (sampleBaseline "x" "2026"), .put (sampleBaseline "y" "2025"), .list (some 1)])
        (replies (SqliteBaselines.serve sampleValidate) ∅
          [.put (sampleBaseline "x" "2026"), .put (sampleBaseline "y" "2025"), .list (some 1)]) := by
  decide +kernel

end Motte.Storage
