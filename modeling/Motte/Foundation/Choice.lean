import Mathlib.Data.List.Forall2
import Mathlib.Order.Lattice

/-! Increasing choices.

One is chosen from each list, each above the one before it. When the lists are in order the
first that is above the one before is as good as any other: whatever could follow the other
can follow it. -/
namespace Motte.Foundation
variable {α : Type} [LinearOrder α]

/-- Above what was chosen last, if anything was. -/
def above (cursor : Option α) (key : α) : Bool := cursor.all (· < key)

/-- One of each list, increasing. -/
def Chosen (lists : List (List α)) (choice : List α) : Prop := List.Forall₂ (· ∈ ·) choice lists ∧ choice.Pairwise (· < ·)

/-- One of each list, increasing from above the cursor. -/
def ChosenAbove (cursor : Option α) (lists : List (List α)) (choice : List α) : Prop :=
  Chosen lists choice ∧ ∀ key ∈ choice, above cursor key

variable {cursor : Option α} {keys : List α} {lists : List (List α)} {choice : List α}

theorem chosenAbove_none : ChosenAbove none lists choice ↔ Chosen lists choice :=
  and_iff_left (fun _ _ => rfl)

theorem chosenAbove_nil : ChosenAbove cursor ([] : List (List α)) [] :=
  ⟨⟨.nil, .nil⟩, fun _ h => nomatch h⟩

theorem chosenAbove_cons {key : α} :
    ChosenAbove cursor (keys :: lists) (key :: choice) ↔ key ∈ keys ∧ above cursor key ∧ ChosenAbove (some key) lists choice := by
  unfold ChosenAbove Chosen
  rw [List.forall₂_cons, List.pairwise_cons, List.forall_mem_cons]
  constructor
  · rintro ⟨⟨⟨hmem, hall⟩, hbelow, hpairwise⟩, habove, _⟩
    exact ⟨hmem, habove, ⟨hall, hpairwise⟩, fun other hother => decide_eq_true (hbelow other hother)⟩
  · rintro ⟨hmem, habove, ⟨hall, hpairwise⟩, hbelow⟩
    have hlt : ∀ other ∈ choice, key < other := fun other hother => of_decide_eq_true (hbelow other hother)
    refine ⟨⟨⟨hmem, hall⟩, hlt, hpairwise⟩, habove, fun other hother => ?_⟩
    cases cursor with
    | none => rfl
    | some last => exact decide_eq_true (lt_trans (of_decide_eq_true habove) (hlt other hother))

/-- The first of an ordered list is below every other that would have done. -/
theorem find?_le {p : α → Bool} {first key : α} (ordered : keys.Pairwise (· ≤ ·)) (hfirst : keys.find? p = some first) (hkey : key ∈ keys)
    (hp : p key) : first ≤ key := by
  induction keys with
  | nil => cases hkey
  | cons k rest ih =>
    obtain ⟨hbelow, hrest⟩ := List.pairwise_cons.1 ordered
    by_cases hk : p k = true
    · rw [List.find?_cons_of_pos hk] at hfirst
      cases hfirst
      rcases List.mem_cons.1 hkey with rfl | hmem
      · exact le_refl _
      · exact hbelow key hmem
    · rw [List.find?_cons_of_neg hk] at hfirst
      rcases List.mem_cons.1 hkey with rfl | hmem
      · exact absurd hp hk
      · exact ih hrest hfirst hmem

/-- A choice can be made exactly when it can be made from the first that is above the cursor. -/
theorem exists_chosenAbove_cons (ordered : keys.Pairwise (· ≤ ·)) :
    (∃ choice, ChosenAbove cursor (keys :: lists) choice) ↔
      ∃ first, keys.find? (above cursor) = some first ∧ ∃ choice, ChosenAbove (some first) lists choice := by
  constructor
  · rintro ⟨choice, hchoice⟩
    cases choice with
    | nil => exact nomatch hchoice.1.1
    | cons key rest =>
      obtain ⟨hmem, habove, hrest⟩ := chosenAbove_cons.1 hchoice
      cases hfind : keys.find? (above cursor) with
      | none => exact absurd habove (List.find?_eq_none.1 hfind key hmem)
      | some first =>
        -- What is above the key that was chosen is above the first.
        have hle : first ≤ key := find?_le ordered hfind hmem habove
        refine ⟨first, rfl, rest, hrest.1, fun other hother => ?_⟩
        exact decide_eq_true (lt_of_le_of_lt hle (of_decide_eq_true (hrest.2 other hother)))
  · rintro ⟨first, hfind, choice, hchoice⟩
    exact ⟨first :: choice, chosenAbove_cons.2 ⟨List.mem_of_find?_eq_some hfind, List.find?_some hfind, hchoice⟩⟩

end Motte.Foundation
