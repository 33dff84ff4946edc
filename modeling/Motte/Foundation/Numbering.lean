import Mathlib.Data.Int.Range
import Mathlib.Data.List.Sort
import Mathlib.Tactic.Linarith

/-! Lists that are numbered without a gap.

A list is numbered from `a` if its items carry the numbers `a`, `a + 1` and so on.
A bound on the number then cuts the list in two. A chain of ranges, each from where
the one before ends, covers the numbers from one end to the other. -/
namespace Motte.Foundation

variable {α : Type} {f : α → Int} {a b m : Int} {xs ys : List α} {x : α}

/-- The items carry consecutive numbers, from `a` on. -/
def Numbered (f : α → Int) : Int → List α → Prop
  | _, [] => True
  | a, x :: rest => f x = a ∧ Numbered f (a + 1) rest

theorem numbered_append : Numbered f a (xs ++ ys) ↔ Numbered f a xs ∧ Numbered f (a + xs.length) ys := by
  induction xs generalizing a with
  | nil => simp [Numbered]
  | cons x rest ih =>
    have shift : a + 1 + (rest.length : Int) = a + ((x :: rest).length : Int) := by
      rw [List.length_cons, Nat.cast_succ]
      omega
    rw [List.cons_append, Numbered, Numbered, ih, and_assoc, shift]

theorem Numbered.mem (h : Numbered f a xs) (hx : x ∈ xs) : a ≤ f x ∧ f x < a + xs.length := by
  induction xs generalizing a with
  | nil => cases hx
  | cons y rest ih =>
    rw [List.length_cons, Nat.cast_succ]
    rcases List.mem_cons.1 hx with rfl | hx
    · have := h.1
      omega
    · have := ih h.2 hx
      omega

/-- The items from a number on. -/
theorem Numbered.filter_ge (h : Numbered f a xs) (m : Int) :
    xs.filter (fun x => m ≤ f x) = xs.drop (m - a).toNat := by
  induction xs generalizing a with
  | nil => simp
  | cons y rest ih =>
    by_cases hm : m ≤ a
    · have all : ∀ x ∈ y :: rest, decide (m ≤ f x) = true := by
        intro x hx
        have := (h.mem hx).1
        exact decide_eq_true (by omega)
      rw [List.filter_eq_self.2 all, Int.toNat_of_nonpos (by omega), List.drop_zero]
    · have out : ¬ m ≤ f y := by
        rw [h.1]
        exact hm
      have shift : (m - a).toNat = (m - (a + 1)).toNat + 1 := by omega
      rw [List.filter_cons_of_neg (by simpa using out), ih h.2, shift, List.drop_succ_cons]

theorem Numbered.drop (h : Numbered f a xs) {k : Nat} (hk : k ≤ xs.length) : Numbered f (a + k) (xs.drop k) := by
  rw [← List.take_append_drop k xs, numbered_append, List.length_take_of_le hk] at h
  exact h.2

theorem Numbered.take (h : Numbered f a xs) (k : Nat) : Numbered f a (xs.take k) := by
  rw [← List.take_append_drop k xs, numbered_append] at h
  exact h.1

theorem Numbered.pairwise (h : Numbered f a xs) : xs.Pairwise (fun x y => f x < f y) := by
  induction xs generalizing a with
  | nil => exact .nil
  | cons y rest ih =>
    refine .cons (fun x hx => ?_) (ih h.2)
    have := (h.2.mem hx).1
    rw [h.1]
    omega

/-- A numbered list is already sorted by its numbers. -/
theorem Numbered.insertionSort (h : Numbered f a xs) : xs.insertionSort (fun x y => f x ≤ f y) = xs :=
  (h.pairwise.imp (fun hlt => le_of_lt hlt)).insertionSort_eq

theorem Numbered.getLast (h : Numbered f a xs) (hx : xs.getLast? = some x) : f x = a + xs.length - 1 := by
  obtain ⟨init, rfl⟩ := List.getLast?_eq_some_iff.1 hx
  have := (numbered_append.1 h).2.1
  rw [List.length_append, List.length_singleton]
  push_cast
  omega

theorem Numbered.max? (h : Numbered f a xs) (hne : xs ≠ []) : (xs.map f).max? = some (a + xs.length - 1) := by
  refine List.max?_eq_some_iff.2 ⟨?_, fun n hn => ?_⟩
  · rw [← h.getLast (List.getLast?_eq_some_getLast hne)]
    exact List.mem_map_of_mem (List.getLast_mem hne)
  · obtain ⟨x, hx, rfl⟩ := List.mem_map.1 hn
    have := (h.mem hx).2
    omega

/-! ### Ranges -/

theorem range_append (hab : a ≤ m) (hmb : m ≤ b) : Int.range a m ++ Int.range m b = Int.range a b := by
  obtain ⟨p, rfl⟩ := Int.le.dest hab
  obtain ⟨q, rfl⟩ := Int.le.dest hmb
  have first : (a + (p : Int) - a).toNat = p := by omega
  have second : (a + (p : Int) + q - (a + p)).toNat = q := by omega
  have both : (a + (p : Int) + q - a).toNat = p + q := by omega
  rw [Int.range, Int.range, Int.range, first, second, both, List.range_add, List.map_append, List.map_map]
  refine congrArg _ (List.map_congr_left (fun i _ => ?_))
  simp only [Function.comp_apply, Nat.cast_add]
  omega

theorem range_singleton (a : Int) : Int.range a (a + 1) = [a] := by
  simp [Int.range]

theorem Numbered.map_eq (h : Numbered f a xs) : xs.map f = Int.range a (a + xs.length) := by
  induction xs generalizing a with
  | nil => simp [Int.range]
  | cons y rest ih =>
    rw [List.map_cons, ih h.2, h.1, List.length_cons, Nat.cast_succ, ← List.singleton_append, ← range_singleton a,
      range_append (by omega) (by omega)]
    congr 1
    omega

/-! ### Chains of ranges -/

/-- The ranges follow each other without a gap, from after `a` to `b`. -/
def Chained (first last : α → Int) : Int → List α → Int → Prop
  | a, [], b => a = b
  | a, r :: rest, b => first r = a + 1 ∧ first r ≤ last r ∧ Chained first last (last r) rest b

variable {first last : α → Int}

theorem chained_append : Chained first last a (xs ++ ys) b ↔
    ∃ m, Chained first last a xs m ∧ Chained first last m ys b := by
  induction xs generalizing a with
  | nil => simp [Chained]
  | cons r rest ih => simp only [List.cons_append, Chained, ih, and_assoc, exists_and_left]

theorem Chained.le (h : Chained first last a xs b) : a ≤ b := by
  induction xs generalizing a with
  | nil => exact le_of_eq h
  | cons r rest ih =>
    have := ih h.2.2
    have := h.1
    have := h.2.1
    omega

theorem Chained.mem (h : Chained first last a xs b) (hx : x ∈ xs) : a < first x ∧ first x ≤ last x ∧ last x ≤ b := by
  induction xs generalizing a with
  | nil => cases hx
  | cons r rest ih =>
    have hstart := h.1
    have hrange := h.2.1
    rcases List.mem_cons.1 hx with rfl | hx
    · exact ⟨by omega, hrange, h.2.2.le⟩
    · obtain ⟨hlow, hle, hhigh⟩ := ih h.2.2 hx
      exact ⟨by omega, hle, hhigh⟩

/-- The ranges of a chain cover its numbers, each once. -/
theorem Chained.flatMap (h : Chained first last a xs b) :
    xs.flatMap (fun r => Int.range (first r) (last r + 1)) = Int.range (a + 1) (b + 1) := by
  induction xs generalizing a with
  | nil =>
    rw [Chained] at h
    simp [h, Int.range]
  | cons r rest ih =>
    have := h.2.1
    have := h.2.2.le
    rw [List.flatMap_cons, ih h.2.2, h.1, range_append (by have := h.1; omega) (by omega)]

theorem Chained.max? (h : Chained first last a xs b) (hne : xs ≠ []) : (xs.map last).max? = some b := by
  have bound : ∀ n ∈ xs.map last, n ≤ b := by
    intro n hn
    obtain ⟨x, hx, rfl⟩ := List.mem_map.1 hn
    exact (h.mem hx).2.2
  obtain ⟨init, r, rfl⟩ : ∃ init r, xs = init ++ [r] := ⟨_, _, (List.dropLast_append_getLast hne).symm⟩
  obtain ⟨m, -, hlast⟩ := chained_append.1 h
  have hend : last r = b := hlast.2.2
  exact List.max?_eq_some_iff.2 ⟨hend ▸ List.mem_map_of_mem (List.mem_append_right init (List.mem_singleton_self r)), bound⟩

end Motte.Foundation
