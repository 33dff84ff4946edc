import Mathlib.Algebra.Group.Int.Defs
import Mathlib.Data.List.Induction
import Mathlib.Data.List.Sort
import Motte.Foundation.Op
import Motte.Foundation.Run
import Motte.Foundation.Table

/-! The default baseline of a scope: a pointer moved by compare-and-set, with its history.

A move names the baseline it expects to find and the one to point to. The store
keeps the pointer, its position and every pointer there ever was, as three
records: a move changes them together. Below the two stores is the log they both
keep, one list of pointers for each scope, of which the pointer is the last
entry; each store is shown to follow it move for move. -/
namespace Motte.Storage
open Foundation

structure Pointer where
  scope : String
  baselineId : String
  updatedBy : String
  reason : String
  comparisonPolicyHash : String
  updatedAt : String
  position : Nat
  deriving DecidableEq, Repr

/-- A call of `set_default`. -/
structure Move where
  pointer : Pointer
  expectedCurrent : Option String
  deriving DecidableEq, Repr

/-- The two texts of `CAS_CONFLICT`, and what the database driver itself raises. -/
inductive PointerError where
  /-- `default baseline for scope … is …, expected …` -/
  | casMismatch (scope : String) (currentId : Option String) (expected : String)
  /-- `default baseline for scope … already exists; pass expected_current to move it` -/
  | casExists (scope : String)
  /-- A primary key that has a row. -/
  | integrity (scope : String) (position : Nat)
  /-- An integer parameter that does not fit a column of the database. -/
  | overflow (value : Int)
  deriving DecidableEq, Repr

/-- The compare half of compare-and-set. -/
def checkExpected (m : Move) (current : Option Pointer) : Except PointerError Unit :=
  match m.expectedCurrent, current with
  | some expected, current =>
    ensure (current.map (·.baselineId) = some expected)
      (.casMismatch m.pointer.scope (current.map (·.baselineId)) expected)
  | none, some _ => .error (.casExists m.pointer.scope)
  | none, none => .ok ()

/-- The pointer a move writes: the caller's, at the position after the current one. -/
def placed (m : Move) (current : Option Pointer) : Pointer :=
  { m.pointer with position := match current with | some c => c.position + 1 | none => 1 }

@[simp] theorem placed_scope (m : Move) (current : Option Pointer) : (placed m current).scope = m.pointer.scope := rfl

/-- The body of `set_default`, over what a store reads as the current pointer and how it writes a
new one. A move to the baseline the pointer names already writes nothing. -/
def setDefaultWith {σ : Type} (current : σ → Option Pointer) (write : Pointer → Op σ PointerError Unit) (m : Move) :
    Op σ PointerError Pointer := do
  let current ← Op.gets current
  Op.lift (checkExpected m current)
  match current.filter (·.baselineId = m.pointer.baselineId) with
  | some same => pure same
  | none =>
    write (placed m current)
    pure (placed m current)

/-! ### The two stores -/

namespace Memory

structure Baselines where
  defaults : Table String Pointer
  history : Table String (List Pointer)

def noBaselines : Baselines := ⟨∅, ∅⟩

def entries (scope : String) (s : Baselines) : List Pointer := (s.history.get scope).getD []

def getDefault (scope : String) (s : Baselines) : Option Pointer := s.defaults.get scope

def writePointer (pointer : Pointer) : Op Baselines PointerError Unit := do
  Op.modify (fun s => { s with defaults := s.defaults.set pointer.scope pointer })
  Op.modify (fun s => { s with history := s.history.set pointer.scope (entries pointer.scope s ++ [pointer]) })

def setDefault (m : Move) : Op Baselines PointerError Pointer :=
  setDefaultWith (getDefault m.pointer.scope) writePointer m


/-- `history[-limit:]`: a start that is not negative counts from the front. -/
def defaultHistory (scope : String) (limit : Int) (s : Baselines) : Except PointerError (List Pointer) :=
  let history := entries scope s
  .ok (history.drop (if 0 < limit then history.length - limit.toNat else limit.natAbs))

end Memory

namespace Sqlite

/-- A row of `default_baselines`. -/
structure DefaultRow where
  baselineId : String
  position : Nat
  payload : Pointer
  deriving DecidableEq, Repr

/-- `default_baseline_history` has the primary key `(scope, position)`. -/
structure Baselines where
  defaults : Table String DefaultRow
  history : Table (String × Nat) Pointer

def noBaselines : Baselines := ⟨∅, ∅⟩

def insertHistory (pointer : Pointer) : Op Baselines PointerError Unit := do
  let found ← Op.gets (·.history.get (pointer.scope, pointer.position))
  Op.lift (ensure (found = none) (.integrity pointer.scope pointer.position))
  Op.modify (fun s => { s with history := s.history.set (pointer.scope, pointer.position) pointer })

def getDefault (scope : String) (s : Baselines) : Option Pointer := (s.defaults.get scope).map (·.payload)

def writePointer (pointer : Pointer) : Op Baselines PointerError Unit := do
  Op.modify (fun s => { s with
    defaults := s.defaults.set pointer.scope ⟨pointer.baselineId, pointer.position, pointer⟩ })
  insertHistory pointer

def setDefault (m : Move) : Op Baselines PointerError Pointer :=
  Op.atomically (setDefaultWith (getDefault m.pointer.scope) writePointer m)

/-- The largest integer a parameter can bind. -/
def maxSqlLimit : Int := 2 ^ 63 - 1

/-- Bind an integer parameter: a signed number of 64 bits. -/
def bindInteger (value : Int) : Except PointerError Int :=
  ensure (-2 ^ 63 ≤ value ∧ value ≤ maxSqlLimit) (.overflow value) >>= fun _ => .ok value

/-- The rows of a scope under their positions, `ORDER BY position DESC`. -/
def latestFirst (scope : String) (s : Baselines) : List (Nat × Pointer) :=
  ((s.history.rows.filter (fun r => r.1.1 = scope)).map (fun r => (r.1.2, r.2))).mergeSort
    (fun a b => decide (b.1 ≤ a.1))

/-- `LIMIT ?`: a negative one does not limit. -/
def limited {α : Type} (limit : Int) (rows : List α) : List α := if limit < 0 then rows else rows.take limit.toNat

def defaultHistory (scope : String) (limit : Int) (s : Baselines) : Except PointerError (List Pointer) := do
  let limit ← bindInteger limit
  pure ((limited limit (latestFirst scope s)).map Prod.snd).reverse

/-- The history of a scope in the order of its positions. -/
def entries (scope : String) (s : Baselines) : List Pointer := ((latestFirst scope s).map Prod.snd).reverse

end Sqlite

/-! ### The log both keep -/

/-- The pointers of each scope in the order they were set. -/
abbrev PointerLog : Type := String → List Pointer

namespace PointerLog

/-- A move appends to the log of its scope, if it expects the last entry and names another. -/
def setDefault (m : Move) : Op PointerLog PointerError Pointer :=
  setDefaultWith (fun log => (log m.pointer.scope).getLast?)
    (fun pointer => Op.modify (fun log => Function.update log pointer.scope (log pointer.scope ++ [pointer]))) m

/-- The entries of a scope carry the positions one, two, and so on. -/
def Numbered (log : PointerLog) : Prop :=
  ∀ scope, (log scope).map (·.position) = List.range' 1 (log scope).length

/-- What a call of `set_default` does to the log: nothing, or one new entry. -/
inductive Moves (m : Move) (log : PointerLog) : Except PointerError Pointer × PointerLog → Prop
  | refused {e} (unexpected : checkExpected m (log m.pointer.scope).getLast? = .error e) : Moves m log (.error e, log)
  | kept {same} (current : (log m.pointer.scope).getLast? = some same) (id : same.baselineId = m.pointer.baselineId)
      (expected : m.expectedCurrent = some same.baselineId) : Moves m log (.ok same, log)
  | moved (expected : (log m.pointer.scope).getLast?.map (·.baselineId) = m.expectedCurrent)
      (another : ∀ c, (log m.pointer.scope).getLast? = some c → c.baselineId ≠ m.pointer.baselineId) :
      Moves m log (.ok (placed m (log m.pointer.scope).getLast?), Function.update log m.pointer.scope
        (log m.pointer.scope ++ [placed m (log m.pointer.scope).getLast?]))

end PointerLog

/-- The check passes exactly on the pointer the move expects. -/
theorem checkExpected_ok_iff {m : Move} {current : Option Pointer} :
    checkExpected m current = .ok () ↔ current.map (·.baselineId) = m.expectedCurrent := by
  unfold checkExpected
  split
  · rename_i expected _ he
    rw [ensure_ok_iff, he]
  · rename_i c he
    simp [he]
  · rename_i he
    simp [he]

/-- Two stores that read the same pointer, and both write the next one, answer alike. -/
theorem setDefaultWith_agree {σ τ : Type} {current : σ → Option Pointer} {current' : τ → Option Pointer}
    {write : Pointer → Op σ PointerError Unit} {write' : Pointer → Op τ PointerError Unit} {m : Move}
    {s s' : σ} {t t' : τ} (R : σ → τ → Prop) (hR : R s t) (same : current s = current' t)
    (hw : write (placed m (current s)) s = (.ok (), s')) (hw' : write' (placed m (current' t)) t = (.ok (), t'))
    (hR' : R s' t') :
    (setDefaultWith current write m s).1 = (setDefaultWith current' write' m t).1 ∧
      R (setDefaultWith current write m s).2 (setDefaultWith current' write' m t).2 := by
  unfold setDefaultWith
  rw [Op.bind_of_ok (Op.gets_apply _), Op.bind_of_ok (Op.gets_apply _), ← same]
  rw [← same] at hw'
  cases checkExpected m (current s) with
  | error e =>
    rw [Op.bind_of_error (Op.lift_apply _), Op.bind_of_error (Op.lift_apply _)]
    exact ⟨rfl, hR⟩
  | ok u =>
    rw [Op.bind_of_ok (Op.lift_apply _), Op.bind_of_ok (Op.lift_apply _)]
    cases (current s).filter (·.baselineId = m.pointer.baselineId) with
    | some same => exact ⟨rfl, hR⟩
    | none =>
      dsimp only
      rw [Op.bind_of_ok hw, Op.bind_of_ok hw']
      exact ⟨rfl, hR'⟩

/-- A refused move leaves what it found. -/
theorem setDefaultWith_error {σ : Type} {current : σ → Option Pointer} {write : Pointer → Op σ PointerError Unit}
    {m : Move} {s s' t : σ} {e : PointerError} (hw : write (placed m (current s)) s = (.ok (), s'))
    (h : setDefaultWith current write m s = (.error e, t)) : t = s := by
  unfold setDefaultWith at h
  rw [Op.bind_of_ok (Op.gets_apply _)] at h
  cases hc : checkExpected m (current s) with
  | error e =>
    rw [Op.bind_of_error (Op.lift_of_error hc)] at h
    exact (congrArg Prod.snd h).symm
  | ok u =>
    rw [Op.bind_of_ok (Op.lift_of_ok hc)] at h
    cases hs : (current s).filter (·.baselineId = m.pointer.baselineId) with
    | some same =>
      rw [hs] at h
      cases h
    | none =>
      rw [hs] at h
      dsimp only at h
      rw [Op.bind_of_ok hw] at h
      cases h

theorem PointerLog.setDefault_moves (m : Move) (log : PointerLog) : Moves m log (setDefault m log) := by
  unfold setDefault setDefaultWith
  rw [Op.bind_of_ok (Op.gets_apply _)]
  cases hc : checkExpected m (log m.pointer.scope).getLast? with
  | error e =>
    rw [Op.bind_of_error (Op.lift_apply _)]
    exact .refused hc
  | ok u =>
    rw [Op.bind_of_ok (Op.lift_apply _)]
    have expected := checkExpected_ok_iff.1 hc
    cases hs : (log m.pointer.scope).getLast?.filter (·.baselineId = m.pointer.baselineId) with
    | some same =>
      obtain ⟨current, id⟩ := Option.filter_eq_some_iff.1 hs
      rw [current] at expected
      exact .kept current (by simpa using id) expected.symm
    | none =>
      refine .moved expected (fun c hcur hid => ?_)
      rw [hcur] at hs
      simp [hid] at hs

/-- The position after the last entry is one more than there are entries. -/
theorem PointerLog.Numbered.placed {log : PointerLog} (h : log.Numbered) (m : Move) (scope : String) :
    (placed m (log scope).getLast?).position = (log scope).length + 1 := by
  have hp := h scope
  generalize log scope = entries at hp
  induction entries using List.reverseRecOn with
  | nil => rfl
  | append_singleton rest last _ =>
    rw [List.map_append, List.length_append, List.length_singleton, List.range'_concat] at hp
    have hlast := (List.append_inj' hp rfl).2
    simp only [List.map_cons, List.map_nil, List.cons.injEq, and_true, Nat.one_mul] at hlast
    rw [List.getLast?_concat, List.length_append, List.length_singleton]
    show last.position + 1 = _
    omega

/-- The log with one more entry at the scope of a move. -/
theorem PointerLog.Numbered.append {log : PointerLog} (h : log.Numbered) (m : Move) :
    Numbered (Function.update log m.pointer.scope
      (log m.pointer.scope ++ [Storage.placed m (log m.pointer.scope).getLast?])) := by
  intro scope
  by_cases hs : scope = m.pointer.scope
  · subst hs
    simp only [Function.update_self, List.map_append, List.length_append, h m.pointer.scope]
    rw [List.length_singleton, List.range'_concat, List.map_singleton, h.placed]
    congr 2
    omega
  · simp only [Function.update_of_ne hs, h scope]

/-! ### Each store follows the log -/

namespace Memory

structure FollowsLog (log : PointerLog) (s : Baselines) : Prop where
  current : ∀ scope, s.defaults.get scope = (log scope).getLast?
  history : ∀ scope, entries scope s = log scope

/-- Both answer the same and go on from what they leave. -/
theorem setDefault_follows {log : PointerLog} {s : Baselines} (h : FollowsLog log s) (m : Move) :
    (setDefault m s).1 = (PointerLog.setDefault m log).1 ∧
      FollowsLog (PointerLog.setDefault m log).2 (setDefault m s).2 := by
  refine setDefaultWith_agree (fun s log => FollowsLog log s) h (h.current _) rfl rfl ⟨fun scope => ?_, fun scope => ?_⟩
  · show (s.defaults.set m.pointer.scope _).get scope = (Function.update log m.pointer.scope _ scope).getLast?
    by_cases hs : scope = m.pointer.scope
    · subst hs
      simp [getDefault, h.current]
    · simp [hs, h.current]
  · show ((s.history.set m.pointer.scope (entries m.pointer.scope s ++ _)).get scope).getD [] =
      Function.update log m.pointer.scope _ scope
    by_cases hs : scope = m.pointer.scope
    · subst hs
      simp [getDefault, h.history, h.current]
    · simpa [hs, entries] using h.history scope

end Memory

namespace Sqlite

def DefaultRow.of (p : Pointer) : DefaultRow := ⟨p.baselineId, p.position, p⟩

/-- The rows of a scope were inserted in the order of the log. -/
structure FollowsLog (log : PointerLog) (s : Baselines) : Prop where
  numbered : log.Numbered
  current : ∀ scope, s.defaults.get scope = (log scope).getLast?.map DefaultRow.of
  history : ∀ scope, s.history.rows.filter (fun r => r.1.1 = scope) =
    (log scope).map (fun p => ((scope, p.position), p))

/-- The key of the next entry has no row. -/
theorem FollowsLog.fresh {log : PointerLog} {s : Baselines} (h : FollowsLog log s) (m : Move) :
    s.history.get (m.pointer.scope, (placed m (log m.pointer.scope).getLast?).position) = none := by
  rw [h.numbered.placed]
  by_contra hsome
  obtain ⟨p, hp⟩ := Option.ne_none_iff_exists'.1 hsome
  have hrow : ((m.pointer.scope, (log m.pointer.scope).length + 1), p) ∈
      s.history.rows.filter (fun r => r.1.1 = m.pointer.scope) :=
    List.mem_filter.2 ⟨Table.mem_of_get hp, by simp⟩
  rw [h.history] at hrow
  obtain ⟨q, hq, he⟩ := List.mem_map.1 hrow
  have hpos : q.position ∈ (log m.pointer.scope).map (·.position) := List.mem_map_of_mem hq
  rw [h.numbered, List.mem_range'_1] at hpos
  have : q.position = (log m.pointer.scope).length + 1 := congrArg (·.1.2) he
  omega

theorem FollowsLog.getDefault {log : PointerLog} {s : Baselines} (h : FollowsLog log s) (scope : String) :
    getDefault scope s = (log scope).getLast? := by
  rw [Sqlite.getDefault, h.current, Option.map_map]
  exact Option.map_id_fun' ▸ rfl

/-- The two rows of the next pointer go in. -/
theorem FollowsLog.writes {log : PointerLog} {s : Baselines} (h : FollowsLog log s) {m : Move} {p : Pointer}
    (hp : p = placed m (log m.pointer.scope).getLast?) :
    writePointer p s =
      (.ok (), ⟨s.defaults.set m.pointer.scope (.of p), s.history.set (m.pointer.scope, p.position) p⟩) := by
  have fresh := h.fresh m
  subst hp
  unfold writePointer insertHistory
  rw [Op.bind_of_ok (Op.modify_apply _), Op.bind_of_ok (Op.gets_apply _)]
  exact Op.bind_of_ok (Op.lift_ensure_of fresh)

theorem setDefault_follows {log : PointerLog} {s : Baselines} (h : FollowsLog log s) (m : Move) :
    (setDefault m s).1 = (PointerLog.setDefault m log).1 ∧
      FollowsLog (PointerLog.setDefault m log).2 (setDefault m s).2 := by
  have writes := h.writes (congrArg (placed m) (h.getDefault m.pointer.scope))
  unfold setDefault
  rw [Op.atomically_eq (fun e t => setDefaultWith_error writes)]
  refine setDefaultWith_agree (fun s log => FollowsLog log s) h (h.getDefault _) writes rfl
    ⟨h.numbered.append m, fun scope => ?_, fun scope => ?_⟩
  · show (s.defaults.set m.pointer.scope _).get scope = (Function.update log m.pointer.scope _ scope).getLast?.map _
    by_cases hs : scope = m.pointer.scope
    · subst hs
      simp [h.getDefault]
    · simp [hs, h.current]
  · show (s.history.set (m.pointer.scope, _) _).rows.filter _ = (Function.update log m.pointer.scope _ scope).map _
    rw [h.getDefault, Table.rows_set_of_none _ (h.fresh m), List.filter_append, h.history]
    by_cases hs : scope = m.pointer.scope
    · subst hs
      simp
    · simp [hs, Ne.symm hs]

/-- Rows inserted in the order of their positions are listed from the last one back. -/
theorem FollowsLog.latestFirst {log : PointerLog} {s : Baselines} (h : FollowsLog log s) (scope : String) :
    latestFirst scope s = ((log scope).map (fun p => (p.position, p))).reverse := by
  have rows : (s.history.rows.filter (fun r => r.1.1 = scope)).map (fun r => (r.1.2, r.2)) =
      (log scope).map (fun p => (p.position, p)) := by
    rw [h.history, List.map_map]
    rfl
  have keys : ((log scope).map (fun p => (p.position, p))).map Prod.fst = List.range' 1 (log scope).length := by
    rw [List.map_map, ← h.numbered scope]
    rfl
  unfold Sqlite.latestFirst
  rw [rows]
  generalize (log scope).map (fun p => (p.position, p)) = entries at keys
  have increasing : entries.Pairwise (fun a b => a.1 ≤ b.1) := by
    rw [← List.pairwise_map (f := Prod.fst) (R := (· ≤ ·)), keys]
    exact List.pairwise_le_range'
  have distinct : (entries.map Prod.fst).Nodup := keys ▸ List.nodup_range'
  have sorted : (entries.mergeSort (fun a b => decide (b.1 ≤ a.1))).Pairwise (fun a b => decide (b.1 ≤ a.1) = true) :=
    List.pairwise_mergeSort (fun a b c hab hbc => by simp at *; omega) (fun a b => by simp; omega) entries
  refine ((List.mergeSort_perm entries _).trans (List.reverse_perm entries).symm).eq_of_pairwise
    (fun a b ha hb hab hba => ?_) sorted ?_
  · have hfst : a.1 = b.1 := by
      simp only [decide_eq_true_eq] at hab hba
      omega
    exact List.inj_on_of_nodup_map distinct (List.mem_mergeSort.1 ha) (List.mem_reverse.1 hb) hfst
  · rw [List.pairwise_reverse]
    exact increasing.imp (fun h => by simpa using h)

theorem FollowsLog.entries {log : PointerLog} {s : Baselines} (h : FollowsLog log s) (scope : String) :
    entries scope s = log scope := by
  rw [Sqlite.entries, h.latestFirst, List.map_reverse, List.reverse_reverse, List.map_map]
  exact List.map_id _

/-- A limit that binds lists as many of the last entries. -/
theorem FollowsLog.defaultHistory {log : PointerLog} {s : Baselines} (h : FollowsLog log s) (scope : String)
    {limit : Int} (positive : 0 < limit) (fits : limit ≤ maxSqlLimit) :
    defaultHistory scope limit s = .ok ((log scope).drop ((log scope).length - limit.toNat)) := by
  have binds : bindInteger limit = .ok limit := by
    unfold bindInteger ensure
    rw [if_pos ⟨by omega, fits⟩]
    rfl
  have order : (Sqlite.latestFirst scope s).map Prod.snd = (log scope).reverse := by
    rw [h.latestFirst, List.map_reverse, List.map_map]
    exact congrArg List.reverse (List.map_id _)
  unfold Sqlite.defaultHistory limited
  rw [binds]
  show Except.ok _ = _
  rw [if_neg (by omega), List.map_take, order, List.take_reverse, List.reverse_reverse]

/-- A limit that does not bind raises, whatever is stored. -/
theorem defaultHistory_overflow (scope : String) {limit : Int} (large : maxSqlLimit < limit) (s : Baselines) :
    defaultHistory scope limit s = .error (.overflow limit) := by
  unfold defaultHistory bindInteger ensure
  rw [if_neg (fun h => by omega)]
  rfl

end Sqlite

/-! ### Runs of moves -/

/-- What the two repositories offer. -/
structure PointerStore where
  State : Type
  empty : State
  setDefault : Move → Op State PointerError Pointer
  getDefault : String → State → Option Pointer
  /-- The whole history of a scope. -/
  entries : String → State → List Pointer
  defaultHistory : String → Int → State → Except PointerError (List Pointer)

def memoryPointers : PointerStore where
  State := Memory.Baselines
  empty := Memory.noBaselines
  setDefault := Memory.setDefault
  getDefault := Memory.getDefault
  entries := Memory.entries
  defaultHistory := Memory.defaultHistory

def sqlitePointers : PointerStore where
  State := Sqlite.Baselines
  empty := Sqlite.noBaselines
  setDefault := Sqlite.setDefault
  getDefault := Sqlite.getDefault
  entries := Sqlite.entries
  defaultHistory := Sqlite.defaultHistory

namespace PointerStore

/-- The state after calls of `set_default`, in the order the store served them. -/
def after (P : PointerStore) (moves : List Move) : P.State :=
  run (fun m s => (P.setDefault m s).2) P.empty moves

def answers (P : PointerStore) (moves : List Move) : List (Except PointerError Pointer) :=
  replies P.setDefault P.empty moves

theorem after_concat (P : PointerStore) (earlier : List Move) (m : Move) :
    P.after (earlier ++ [m]) = (P.setDefault m (P.after earlier)).2 := run_append ..

/-- Answer `p` to the move: the pointer it expected was the current one, and the history of the
scope got `p` as its next entry, unless the current pointer names that baseline already. -/
structure MovedFrom (P : PointerStore) (m : Move) (s : P.State) (p : Pointer) : Prop where
  expected : (P.getDefault m.pointer.scope s).map (·.baselineId) = m.expectedCurrent
  entry : p = { m.pointer with position := (P.entries m.pointer.scope s).length + 1 } ∧
      P.entries m.pointer.scope (P.setDefault m s).2 = P.entries m.pointer.scope s ++ [p] ∨
    p.baselineId = m.pointer.baselineId ∧ P.getDefault m.pointer.scope s = some p ∧
      P.entries m.pointer.scope (P.setDefault m s).2 = P.entries m.pointer.scope s

/-- The history of a scope over a run of moves. -/
structure KeepsHistory (P : PointerStore) (moves : List Move) (scope : String) : Prop where
  positions : (P.entries scope (P.after moves)).map (·.position) =
    List.range' 1 (P.entries scope (P.after moves)).length
  current : P.getDefault scope (P.after moves) = (P.entries scope (P.after moves)).getLast?
  moved : ∀ earlier m later, moves = earlier ++ m :: later → ∀ p,
    (P.setDefault m (P.after earlier)).1 = .ok p → P.MovedFrom m (P.after earlier) p
  /-- Entries go in only by a move at the scope that went through. -/
  unmoved : ∀ earlier m later, moves = earlier ++ m :: later →
    (m.pointer.scope ≠ scope ∨ ∃ e, (P.setDefault m (P.after earlier)).1 = .error e) →
    P.entries scope (P.after (earlier ++ [m])) = P.entries scope (P.after earlier)
  /-- No entry is lost. -/
  kept : ∀ earlier later, moves = earlier ++ later →
    P.entries scope (P.after earlier) <+: P.entries scope (P.after moves)

/-- A store whose states stand for logs and whose moves are the log's. -/
structure Refines (P : PointerStore) (Follows : PointerLog → P.State → Prop) : Prop where
  initial : Follows (fun _ => []) P.empty
  step : ∀ log s m, Follows log s → (P.setDefault m s).1 = (PointerLog.setDefault m log).1 ∧
    Follows (PointerLog.setDefault m log).2 (P.setDefault m s).2
  current : ∀ log s scope, Follows log s → P.getDefault scope s = (log scope).getLast?
  entries : ∀ log s scope, Follows log s → P.entries scope s = log scope

end PointerStore

theorem memory_refines : memoryPointers.Refines Memory.FollowsLog where
  initial := ⟨fun _ => rfl, fun _ => rfl⟩
  step _ _ m h := Memory.setDefault_follows h m
  current _ _ scope h := h.current scope
  entries _ _ scope h := h.history scope

theorem sqlite_refines : sqlitePointers.Refines Sqlite.FollowsLog where
  initial := ⟨fun _ => rfl, fun _ => rfl, fun _ => rfl⟩
  step _ _ m h := Sqlite.setDefault_follows h m
  current _ _ scope h := h.getDefault scope
  entries _ _ scope h := h.entries scope

/-- The log after a run of moves. -/
def PointerLog.after (moves : List Move) : PointerLog :=
  run (fun m log => (PointerLog.setDefault m log).2) (fun _ => []) moves

theorem PointerLog.numbered_after (moves : List Move) : (PointerLog.after moves).Numbered := by
  refine run_keeps (fun log m h => ?_) moves (fun _ => rfl)
  cases hm : PointerLog.setDefault m log with
  | mk answer log' =>
    cases hm ▸ PointerLog.setDefault_moves m log with
    | refused _ => exact h
    | kept _ _ _ => exact h
    | moved _ _ => exact h.append m

namespace PointerStore.Refines
variable {P : PointerStore} {Follows : PointerLog → P.State → Prop} (h : P.Refines Follows)

include h

theorem follows_run {log : PointerLog} {s : P.State} (hs : Follows log s) (moves : List Move) :
    Follows (run (fun m log => (PointerLog.setDefault m log).2) log moves)
        (run (fun m s => (P.setDefault m s).2) s moves) ∧
      replies P.setDefault s moves = replies PointerLog.setDefault log moves := by
  induction moves generalizing log s with
  | nil => exact ⟨hs, rfl⟩
  | cons m rest ih =>
    obtain ⟨answer, hnext⟩ := h.step log s m hs
    obtain ⟨follows, answers⟩ := ih hnext
    exact ⟨follows, by rw [replies, replies, answer, answers]⟩

theorem follows_after (moves : List Move) : Follows (PointerLog.after moves) (P.after moves) :=
  (h.follows_run h.initial moves).1

/-- A move that goes through was made from the current pointer. -/
theorem movedFrom {log : PointerLog} {s : P.State} (hs : Follows log s) (numbered : log.Numbered) {m : Move}
    {p : Pointer} (answer : (P.setDefault m s).1 = .ok p) : P.MovedFrom m s p := by
  obtain ⟨same, hnext⟩ := h.step log s m hs
  have entries := h.entries _ _ m.pointer.scope hnext
  rw [answer] at same
  have moves := PointerLog.setDefault_moves m log
  rw [show PointerLog.setDefault m log = (.ok p, (PointerLog.setDefault m log).2) by rw [same]] at moves
  generalize (PointerLog.setDefault m log).2 = log' at entries moves
  cases moves with
  | kept current id expected =>
    refine ⟨?_, .inr ⟨id, ?_, ?_⟩⟩
    · rw [h.current _ _ _ hs, current, expected]
      rfl
    · rw [h.current _ _ _ hs, current]
    · rw [entries, h.entries _ _ _ hs]
  | moved expected another =>
    refine ⟨?_, .inl ⟨?_, ?_⟩⟩
    · rw [h.current _ _ _ hs, expected]
    · have position := numbered.placed m m.pointer.scope
      rw [h.entries _ _ _ hs, ← position]
      rfl
    · rw [entries, Function.update_self, h.entries _ _ _ hs]

/-- One call keeps the entries of a scope, or appends one by a move at the scope. -/
theorem entries_step {log : PointerLog} {s : P.State} (hs : Follows log s) (m : Move) (scope : String) :
    P.entries scope (P.setDefault m s).2 = P.entries scope s ∨
      m.pointer.scope = scope ∧ (∃ p, (P.setDefault m s).1 = .ok p) ∧
        ∃ p, P.entries scope (P.setDefault m s).2 = P.entries scope s ++ [p] := by
  obtain ⟨same, hnext⟩ := h.step log s m hs
  rw [h.entries _ _ scope hnext, h.entries _ _ scope hs, same]
  cases hm : PointerLog.setDefault m log with
  | mk answer log' =>
    cases hm ▸ PointerLog.setDefault_moves m log with
    | refused _ => exact .inl rfl
    | kept _ _ _ => exact .inl rfl
    | moved _ _ =>
      by_cases hsc : scope = m.pointer.scope
      · subst hsc
        exact .inr ⟨rfl, ⟨_, rfl⟩, _, Function.update_self ..⟩
      · exact .inl (Function.update_of_ne hsc ..)

theorem keepsHistory (moves : List Move) (scope : String) : P.KeepsHistory moves scope where
  positions := by
    rw [h.entries _ _ scope (h.follows_after moves)]
    exact PointerLog.numbered_after moves scope
  current := by
    rw [h.current _ _ scope (h.follows_after moves), h.entries _ _ scope (h.follows_after moves)]
  moved earlier m later _ p answer :=
    h.movedFrom (h.follows_after earlier) (PointerLog.numbered_after earlier) answer
  unmoved earlier m later _ other := by
    rw [P.after_concat]
    rcases h.entries_step (h.follows_after earlier) m scope with same | ⟨hscope, ⟨p, hp⟩, -⟩
    · exact same
    · rcases other with hne | ⟨e, he⟩
      · exact absurd hscope hne
      · cases hp.symm.trans he
  kept earlier later hmoves := by
    subst hmoves
    -- Each call extends the entries, so a run of them does.
    induction later using List.reverseRecOn with
    | nil =>
      exact (List.append_nil earlier).symm ▸ List.prefix_rfl
    | append_singleton rest m ih =>
      rw [← List.append_assoc, P.after_concat]
      rcases h.entries_step (h.follows_after (earlier ++ rest)) m scope with same | ⟨-, -, p, hp⟩
      · rw [same]
        exact ih
      · rw [hp]
        exact ih.trans (List.prefix_append _ _)

end PointerStore.Refines

/-- The default baseline of a scope over a run of moves, with one listing of its history at the end. -/
structure PointerSound (moves : List Move) (scope : String) (limit : Int) : Prop where
  memory : memoryPointers.KeepsHistory moves scope
  sqlite : sqlitePointers.KeepsHistory moves scope
  answers : memoryPointers.answers moves = sqlitePointers.answers moves
  listing : memoryPointers.defaultHistory scope limit (memoryPointers.after moves) =
    sqlitePointers.defaultHistory scope limit (sqlitePointers.after moves)

/-- The pointer, its position and its history move together in both stores. The listings agree
exactly on the limits a parameter of the database can hold: beyond, that store raises. -/
theorem pointer_sound_iff (moves : List Move) (scope : String) (limit : Int) (positive : 0 < limit) :
    PointerSound moves scope limit ↔ limit ≤ Sqlite.maxSqlLimit := by
  have hm := memory_refines.follows_after moves
  have hs := sqlite_refines.follows_after moves
  have listed : memoryPointers.defaultHistory scope limit (memoryPointers.after moves) =
      .ok ((PointerLog.after moves scope).drop ((PointerLog.after moves scope).length - limit.toNat)) := by
    have entries := hm.history scope
    show Except.ok ((Memory.entries scope _).drop (if 0 < limit then _ else _)) = _
    rw [if_pos positive, entries]
  constructor
  · intro h
    by_contra large
    have raised : sqlitePointers.defaultHistory scope limit (sqlitePointers.after moves) = .error (.overflow limit) :=
      Sqlite.defaultHistory_overflow scope (not_le.1 large) _
    cases (listed.symm.trans h.listing).trans raised
  · intro fits
    refine ⟨memory_refines.keepsHistory moves scope, sqlite_refines.keepsHistory moves scope, ?_, ?_⟩
    · exact (memory_refines.follows_run memory_refines.initial moves).2.trans
        (sqlite_refines.follows_run sqlite_refines.initial moves).2.symm
    · exact listed.trans (hs.defaultHistory scope positive fits).symm

/-- A pointer is set, then moved by a client that has seen it. -/
def twoMoves : List Move :=
  [⟨⟨"suite", "b1", "ann", "first", "p1", "t1", 0⟩, none⟩, ⟨⟨"suite", "b2", "bob", "better", "p1", "t2", 0⟩, some "b1"⟩]

theorem two_moves_sound : 0 < (20 : Int) ∧ (20 : Int) ≤ Sqlite.maxSqlLimit ∧ PointerSound twoMoves "suite" 20 :=
  ⟨by decide, by decide, (pointer_sound_iff twoMoves "suite" 20 (by decide)).2 (by decide)⟩

/-- Asked for the last `2 ^ 63` entries, one store lists them all and the other raises. -/
theorem large_limit_listing :
    ¬ ∀ (moves : List Move) (scope : String) (limit : Int), 0 < limit → PointerSound moves scope limit := by
  intro h
  have agree := (h twoMoves "suite" (2 ^ 63) (by decide)).listing
  have raised : sqlitePointers.defaultHistory "suite" (2 ^ 63) (sqlitePointers.after twoMoves) =
      .error (.overflow (2 ^ 63)) := Sqlite.defaultHistory_overflow "suite" (by decide) _
  rw [raised] at agree
  cases agree

end Motte.Storage
