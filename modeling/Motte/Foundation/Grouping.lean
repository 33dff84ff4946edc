import Mathlib.Data.Finset.Card
import Mathlib.Data.List.Induction
import Mathlib.Order.Defs.LinearOrder
import Motte.Foundation.Table

/-! Items grouped by a key.

The groups stand in the order in which their keys were first met, and each holds its items
in order. What is counted over the groups does not depend on the order of the items, as
long as what is asked of a group does not. -/
namespace Motte.Foundation
variable {κ α : Type} [DecidableEq κ]

/-- The items of each key. -/
def groupBy (key : α → κ) (items : List α) : Table κ (List α) :=
  items.foldl (fun groups x => groups.set (key x) ((groups.get (key x)).getD [] ++ [x])) ∅

/-- The items of one key. -/
def ofKey (key : α → κ) (items : List α) (k : κ) : List α := items.filter (fun x => key x = k)

section
variable {key : α → κ} {items other : List α} {k : κ}

theorem mem_ofKey {x : α} : x ∈ ofKey key items k ↔ x ∈ items ∧ key x = k := by
  simp [ofKey]

theorem ofKey_append (items other : List α) : ofKey key (items ++ other) k = ofKey key items k ++ ofKey key other k :=
  List.filter_append ..

theorem ofKey_perm (h : items.Perm other) (k : κ) : (ofKey key items k).Perm (ofKey key other k) := h.filter _

theorem ofKey_ne_nil_iff : ofKey key items k ≠ [] ↔ k ∈ items.map key := by
  rw [List.mem_map]
  constructor
  · intro h
    obtain ⟨x, hx⟩ := List.exists_mem_of_ne_nil _ h
    exact ⟨x, mem_ofKey.1 hx⟩
  · rintro ⟨x, hx⟩
    exact List.ne_nil_of_mem (mem_ofKey.2 hx)

theorem groupBy_append_singleton (items : List α) (x : α) :
    groupBy key (items ++ [x]) = (groupBy key items).set (key x) (((groupBy key items).get (key x)).getD [] ++ [x]) := by
  unfold groupBy
  rw [List.foldl_append]
  rfl

theorem get_groupBy (items : List α) (k : κ) :
    (groupBy key items).get k = if k ∈ items.map key then some (ofKey key items k) else none := by
  induction items using List.reverseRecOn with
  | nil => rfl
  | append_singleton items x ih =>
    rw [groupBy_append_singleton, Table.get_set, ofKey_append, List.map_append]
    by_cases hk : k = key x
    · have hmem : k ∈ items.map key ++ [x].map key := List.mem_append_right _ (by rw [hk]; exact .head _)
      have hone : ofKey key [x] k = [x] := by simp [ofKey, hk]
      rw [if_pos hk, if_pos hmem, hone, ← hk, ih]
      split
      · rfl
      · rename_i hnew
        rw [not_not.1 (mt ofKey_ne_nil_iff.1 hnew)]
        rfl
    · have hnone : ofKey key [x] k = [] := by simp [ofKey, Ne.symm hk]
      rw [if_neg hk, hnone, List.append_nil, ih]
      refine if_congr ?_ rfl rfl
      simp [hk]

theorem mem_groupBy {group : List α} :
    (k, group) ∈ (groupBy key items).rows ↔ k ∈ items.map key ∧ group = ofKey key items k := by
  rw [← Table.get_eq_some_iff, get_groupBy]
  split
  · rename_i h
    exact ⟨fun hsome => ⟨h, (Option.some.inj hsome).symm⟩, fun hgroup => by rw [hgroup.2]⟩
  · rename_i h
    exact ⟨fun hsome => (by cases hsome), fun hgroup => absurd hgroup.1 h⟩

/-- How many groups are as asked. -/
theorem count_groupBy (p : κ → List α → Bool) :
    ((groupBy key items).rows.filter (fun row => p row.1 row.2)).length =
      ((items.map key).toFinset.filter (fun k => p k (ofKey key items k) = true)).card := by
  have hnodup : (((groupBy key items).rows.filter (fun row => p row.1 row.2)).map Prod.fst).Nodup :=
    (groupBy key items).nodup.sublist (List.filter_sublist.map Prod.fst)
  rw [← List.length_map (f := Prod.fst), ← List.toFinset_card_of_nodup hnodup]
  congr 1
  ext k
  simp only [List.mem_toFinset, List.mem_map, List.mem_filter, Finset.mem_filter, Prod.exists, exists_and_right,
    exists_eq_right, mem_groupBy]
  constructor
  · rintro ⟨group, ⟨hk, rfl⟩, hp⟩
    exact ⟨hk, hp⟩
  · rintro ⟨hk, hp⟩
    exact ⟨_, ⟨hk, rfl⟩, hp⟩

theorem length_groupBy : (groupBy key items).rows.length = (items.map key).toFinset.card := by
  have h := @count_groupBy _ _ _ key items (fun _ _ => true)
  simpa using h

/-- The items of different keys, one key after another. -/
theorem flatMap_ofKey {ks : List κ} (hks : ks.Nodup) :
    (ks.flatMap (ofKey key items)).Perm (items.filter (fun x => key x ∈ ks)) := by
  induction ks with
  | nil => simp
  | cons k ks ih =>
    obtain ⟨hk, hks⟩ := List.nodup_cons.1 hks
    rw [List.flatMap_cons]
    refine ((ih hks).append_left (ofKey key items k)).trans ?_
    have hsplit := List.filter_append_perm (fun x => decide (key x = k)) (items.filter (fun x => key x ∈ k :: ks))
    rw [List.filter_filter, List.filter_filter] at hsplit
    have hfirst : items.filter (fun x => decide (key x = k) && decide (key x ∈ k :: ks)) = ofKey key items k := by
      refine List.filter_congr fun x _ => ?_
      by_cases hx : key x = k <;> simp [hx]
    have hothers : items.filter (fun x => (!decide (key x = k)) && decide (key x ∈ k :: ks)) =
        items.filter (fun x => decide (key x ∈ ks)) := by
      refine List.filter_congr fun x _ => ?_
      by_cases hx : key x = k
      · simp [hx, hk]
      · simp [hx]
    rw [hfirst, hothers] at hsplit
    exact hsplit

theorem groupBy_rows : (groupBy key items).rows = ((groupBy key items).rows.map Prod.fst).map (fun k => (k, ofKey key items k)) := by
  rw [List.map_map]
  refine (List.map_id _).symm.trans (List.map_congr_left fun row hrow => ?_)
  obtain ⟨k, group⟩ := row
  exact congrArg (Prod.mk k) (mem_groupBy.1 hrow).2

theorem mem_groupBy_keys {k : κ} : k ∈ (groupBy key items).rows.map Prod.fst ↔ k ∈ items.map key := by
  constructor
  · intro h
    obtain ⟨⟨k', group⟩, hrow, rfl⟩ := List.mem_map.1 h
    exact (mem_groupBy.1 hrow).1
  · intro h
    exact List.mem_map.2 ⟨(k, ofKey key items k), mem_groupBy.2 ⟨h, rfl⟩, rfl⟩

/-- The groups hold all the items. -/
theorem flatMap_groupBy : ((groupBy key items).rows.flatMap Prod.snd).Perm items := by
  rw [groupBy_rows, List.flatMap_map]
  refine (flatMap_ofKey (groupBy key items).nodup).trans ?_
  rw [List.filter_eq_self.2]
  intro x hx
  exact decide_eq_true (mem_groupBy_keys.2 (List.mem_map_of_mem hx))

end

/-! ### Rank -/

/-- The first items of an ordered list are those that few others come before. -/
theorem mem_take_iff_rank {β : Type} [LinearOrder β] {rank : α → β} {items : List α}
    (h : items.Pairwise (fun x y => rank x < rank y)) {x : α} {n : ℕ} :
    x ∈ items.take n ↔ x ∈ items ∧ (items.filter (fun y => rank y < rank x)).length < n := by
  induction items generalizing n with
  | nil => simp
  | cons first rest ih =>
    obtain ⟨hfirst, hrest⟩ := List.pairwise_cons.1 h
    cases n with
    | zero => simp
    | succ n =>
      rw [List.take_succ_cons, List.mem_cons, List.mem_cons, ih hrest]
      constructor
      · rintro (rfl | ⟨hx, hn⟩)
        · refine ⟨.inl rfl, ?_⟩
          rw [List.filter_cons_of_neg (by simp), List.filter_eq_nil_iff.2 (fun y hy => by simpa using (hfirst y hy).le)]
          exact Nat.succ_pos n
        · refine ⟨.inr hx, ?_⟩
          rw [List.filter_cons_of_pos (by simpa using hfirst x hx), List.length_cons]
          exact Nat.succ_lt_succ hn
      · rintro ⟨rfl | hx, hn⟩
        · exact .inl rfl
        · rw [List.filter_cons_of_pos (by simpa using hfirst x hx), List.length_cons] at hn
          exact .inr ⟨hx, Nat.lt_of_succ_lt_succ hn⟩

end Motte.Foundation
