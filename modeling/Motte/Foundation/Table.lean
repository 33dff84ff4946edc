import Mathlib.Data.List.Nodup

/-! Keyed tables in insertion order.

A dictionary, and a database table with a primary key read in row order, are
the same thing: rows in the order they were first written, at most one for each
key. Assigning to a key that has a row replaces the row where it stands;
assigning to a new key appends. -/
namespace Motte.Foundation

/-- Rows in insertion order, with distinct keys. -/
structure Table (κ α : Type) where
  rows : List (κ × α)
  nodup : (rows.map Prod.fst).Nodup

namespace Table
variable {κ α β : Type}

def empty : Table κ α := ⟨[], List.nodup_nil⟩

instance : EmptyCollection (Table κ α) := ⟨empty⟩

theorem ext_rows {t u : Table κ α} (h : t.rows = u.rows) : t = u := by
  cases t
  cases u
  cases h
  rfl

variable [DecidableEq κ]

instance [DecidableEq α] : DecidableEq (Table κ α) := fun t u =>
  decidable_of_iff (t.rows = u.rows) ⟨ext_rows, fun h => h ▸ rfl⟩

def get (t : Table κ α) (k : κ) : Option α := (t.rows.find? (fun r => r.1 = k)).map Prod.snd

/-- The row list of an assignment. -/
def assign (rows : List (κ × α)) (k : κ) (v : α) : List (κ × α) :=
  if k ∈ rows.map Prod.fst then rows.map (fun r => if r.1 = k then (k, v) else r) else rows ++ [(k, v)]

theorem assign_keys (rows : List (κ × α)) (k : κ) (v : α) :
    (assign rows k v).map Prod.fst =
      if k ∈ rows.map Prod.fst then rows.map Prod.fst else rows.map Prod.fst ++ [k] := by
  unfold assign
  split
  · rw [List.map_map]
    apply List.map_congr_left
    intro r _
    simp only [Function.comp_apply]
    split
    · rename_i h
      exact h.symm
    · rfl
  · simp

/-- Assign a row: in place if the key has one, else at the end. -/
def set (t : Table κ α) (k : κ) (v : α) : Table κ α where
  rows := assign t.rows k v
  nodup := by
    rw [assign_keys]
    split
    · exact t.nodup
    · rename_i h
      exact List.nodup_append.2 ⟨t.nodup, List.nodup_singleton k, fun a ha b hb heq =>
        h (by rw [List.mem_singleton.1 hb] at heq; exact heq ▸ ha)⟩

/-- Remove the row of a key. -/
def erase (t : Table κ α) (k : κ) : Table κ α where
  rows := t.rows.filter (fun r => r.1 ≠ k)
  nodup := t.nodup.sublist (List.filter_sublist.map Prod.fst)

theorem mem_erase {t : Table κ α} {k : κ} {r : κ × α} : r ∈ (t.erase k).rows ↔ r ∈ t.rows ∧ r.1 ≠ k := by
  simp only [erase, List.mem_filter, decide_eq_true_eq, ne_eq]

/-! ### Lookup -/

@[simp] theorem get_empty (k : κ) : (∅ : Table κ α).get k = none := rfl

theorem mem_of_get {t : Table κ α} {k : κ} {v : α} (h : t.get k = some v) : (k, v) ∈ t.rows := by
  unfold get at h
  rw [Option.map_eq_some_iff] at h
  obtain ⟨⟨k', v'⟩, hf, rfl⟩ := h
  have hk : k' = k := by simpa using List.find?_some hf
  exact hk ▸ List.mem_of_find?_eq_some hf

/-- Keys are distinct, so a row that is in the table is the one its key finds. -/
theorem get_of_mem {t : Table κ α} {k : κ} {v : α} (h : (k, v) ∈ t.rows) : t.get k = some v := by
  have hn := t.nodup
  unfold get
  generalize t.rows = rows at h hn
  induction rows with
  | nil => cases h
  | cons r rest ih =>
    rw [List.map_cons, List.nodup_cons] at hn
    rcases List.mem_cons.1 h with rfl | hr
    · simp
    · have hne : r.1 ≠ k := by
        intro he
        exact hn.1 (he ▸ List.mem_map_of_mem hr)
      simp only [List.find?_cons, hne, decide_false]
      exact ih hr hn.2

/-- A lookup finds exactly the row that is in the table. -/
theorem get_eq_some_iff {t : Table κ α} {k : κ} {v : α} : t.get k = some v ↔ (k, v) ∈ t.rows :=
  ⟨mem_of_get, get_of_mem⟩

theorem mem_keys_of_get {t : Table κ α} {k : κ} {v : α} (h : t.get k = some v) :
    k ∈ t.rows.map Prod.fst := List.mem_map_of_mem (mem_of_get h)

theorem get_eq_none_iff {t : Table κ α} {k : κ} : t.get k = none ↔ k ∉ t.rows.map Prod.fst := by
  constructor
  · intro h hk
    obtain ⟨⟨k', v⟩, hr, rfl⟩ := List.mem_map.1 hk
    rw [get_of_mem hr] at h
    cases h
  · intro h
    cases hg : t.get k with
    | none => rfl
    | some v => exact absurd (mem_keys_of_get hg) h

@[simp] theorem get_set_self (t : Table κ α) (k : κ) (v : α) : (t.set k v).get k = some v := by
  apply get_of_mem
  simp only [set, assign]
  split
  · rename_i h
    obtain ⟨r, hr, hk⟩ := List.mem_map.1 h
    exact List.mem_map.2 ⟨r, hr, by rw [if_pos hk]⟩
  · simp

/-- An assignment to one key leaves the rows of the others where they are. -/
theorem mem_assign_ne {rows : List (κ × α)} {k k' : κ} {v w : α} (h : k' ≠ k) :
    (k', w) ∈ assign rows k v ↔ (k', w) ∈ rows := by
  unfold assign
  split
  · rw [List.mem_map]
    constructor
    · rintro ⟨r, hr, he⟩
      split at he
      · cases he
        exact absurd rfl h
      · exact he ▸ hr
    · intro hr
      exact ⟨(k', w), hr, by rw [if_neg h]⟩
  · simp [h]

@[simp] theorem get_set_ne (t : Table κ α) {k k' : κ} (v : α) (h : k' ≠ k) :
    (t.set k v).get k' = t.get k' := by
  apply Option.ext
  intro w
  rw [get_eq_some_iff, get_eq_some_iff]
  exact mem_assign_ne h

theorem get_set (t : Table κ α) (k k' : κ) (v : α) :
    (t.set k v).get k' = if k' = k then some v else t.get k' := by
  split
  · rename_i h
    rw [h, get_set_self]
  · rename_i h
    exact get_set_ne t v h

/-- An assignment to a new key appends a row. -/
theorem rows_set_of_none {t : Table κ α} {k : κ} (v : α) (h : t.get k = none) :
    (t.set k v).rows = t.rows ++ [(k, v)] := by
  simp only [set, assign, if_neg (get_eq_none_iff.1 h)]

/-- Assigning a row its own value changes nothing. -/
theorem set_get {t : Table κ α} {k : κ} {v : α} (h : t.get k = some v) : t.set k v = t := by
  apply ext_rows
  simp only [set, assign, if_pos (mem_keys_of_get h)]
  conv_rhs => rw [← List.map_id t.rows]
  apply List.map_congr_left
  rintro ⟨k', v'⟩ hr
  simp only [id_eq]
  split
  · rename_i hk
    cases hk
    rw [get_of_mem hr] at h
    cases h
    rfl
  · rfl

/-- The last of two assignments to a key stands. -/
theorem set_set (t : Table κ α) (k : κ) (v w : α) : (t.set k v).set k w = t.set k w := by
  apply ext_rows
  have hk : k ∈ (assign t.rows k v).map Prod.fst := mem_keys_of_get (get_set_self t k v)
  simp only [set]
  rw [assign, if_pos hk]
  unfold assign
  split
  · rw [List.map_map]
    refine List.map_congr_left (fun r _ => ?_)
    simp only [Function.comp_apply]
    split <;> simp_all
  · rename_i hnew
    rw [List.map_append, List.map_cons, List.map_nil, if_pos rfl]
    congr 1
    conv_rhs => rw [← List.map_id t.rows]
    refine List.map_congr_left (fun r hr => if_neg (fun he => hnew ?_))
    exact he ▸ List.mem_map_of_mem hr

/-! ### Mapping the rows -/

/-- The table with another thing in each row. -/
def map (f : α → β) (t : Table κ α) : Table κ β where
  rows := t.rows.map (fun r => (r.1, f r.2))
  nodup := by
    rw [List.map_map]
    exact t.nodup

omit [DecidableEq κ] in
@[simp] theorem map_rows (f : α → β) (t : Table κ α) :
    (t.map f).rows = t.rows.map (fun r => (r.1, f r.2)) := rfl

@[simp] theorem get_map (f : α → β) (t : Table κ α) (k : κ) : (t.map f).get k = (t.get k).map f := by
  simp only [get, map_rows, List.find?_map, Option.map_map]
  rfl

theorem set_map (f : α → β) (t : Table κ α) (k : κ) (v : α) : (t.map f).set k (f v) = (t.set k v).map f := by
  apply ext_rows
  have hkeys : (t.rows.map (fun r => (r.1, f r.2))).map Prod.fst = t.rows.map Prod.fst := by
    rw [List.map_map]
    rfl
  simp only [set, map_rows, assign, hkeys]
  split
  · rw [List.map_map, List.map_map]
    refine List.map_congr_left (fun r _ => ?_)
    simp only [Function.comp_apply]
    split <;> rfl
  · rw [List.map_append]
    rfl

/-! ### Assigning many rows -/

section Many
variable {key : β → κ} {f : β → α}

theorem get_foldl_set_ne {items : List β} {t : Table κ α} {k : κ} (h : k ∉ items.map key) :
    (items.foldl (fun t x => t.set (key x) (f x)) t).get k = t.get k := by
  induction items generalizing t with
  | nil => rfl
  | cons x rest ih =>
    rw [List.map_cons, List.mem_cons, not_or] at h
    rw [List.foldl_cons, ih h.2, get_set_ne _ _ h.1]

theorem get_foldl_set_mem {items : List β} {t : Table κ α} (nodup : (items.map key).Nodup) {x : β} (hx : x ∈ items) :
    (items.foldl (fun t x => t.set (key x) (f x)) t).get (key x) = some (f x) := by
  induction items generalizing t with
  | nil => cases hx
  | cons y rest ih =>
    rw [List.map_cons, List.nodup_cons] at nodup
    rw [List.foldl_cons]
    rcases List.mem_cons.1 hx with rfl | hx
    · rw [get_foldl_set_ne nodup.1, get_set_self]
    · exact ih nodup.2 hx

theorem get_foldl_set_cases {items : List β} {t : Table κ α} (nodup : (items.map key).Nodup) {k : κ} {v : α}
    (h : (items.foldl (fun t x => t.set (key x) (f x)) t).get k = some v) :
    t.get k = some v ∨ ∃ x ∈ items, key x = k ∧ v = f x := by
  by_cases hk : k ∈ items.map key
  · obtain ⟨x, hx, rfl⟩ := List.mem_map.1 hk
    rw [get_foldl_set_mem nodup hx] at h
    exact .inr ⟨x, hx, rfl, (Option.some.inj h).symm⟩
  · rw [get_foldl_set_ne hk] at h
    exact .inl h

end Many

end Table
end Motte.Foundation
